import Nethuns.Examples.Forward
import Nethuns.Pcap.Payloads

/-!
# The pcap backend

The pcap socket as an implementation of `Socket`, for programs that do not write to payloads. It
keeps the promises of the trait on what the payloads read, and they read zeros. So the packet
forwarder sends, for each packet that was captured, as many zeros as this packet has bytes.
-/

namespace Nethuns.Pcap

open Nethuns.Lib Nethuns.Api Nethuns.Examples

/-- As many zeros as a packet has bytes. -/
def blanked (data : List UInt8) : List UInt8 := List.replicate data.length 0

namespace Sock

/-- What the user of a token or of its payload reads. -/
def bytesOf (sock : Sock) (delivery : Delivery) : List UInt8 :=
  (sock.deref delivery.token).getD []

/-- The payloads are short enough for their boxes, which are as they were allocated. -/
structure Zeroed (flags : PcapFlags) (sock : Sock) : Prop where
  boxed : sock.Boxed flags
  short : ∀ delivery ∈ sock.live, delivery.token.len.toNat ≤ flags.bufferSize
  captured : ∀ delivery ∈ sock.live, delivery.token.len.toNat = delivery.captured.length
  zeros : ∀ delivery ∈ sock.live,
    readBytes sock.mem delivery.token.idx delivery.token.len.toNat = blanked delivery.captured

variable {flags : PcapFlags} {sock next : Sock} {action : Action}

theorem create_zeroed (flags : PcapFlags) (poolId : UInt32) (mem : ℕ → UInt8) :
    (create flags poolId mem).Zeroed flags := by
  refine ⟨create_boxed flags poolId mem, ?_, ?_, ?_⟩
  all_goals simp [create, live]

theorem Zeroed.bytesOf_eq (zeroed : sock.Zeroed flags) {delivery : Delivery}
    (live : delivery ∈ sock.live) : sock.bytesOf delivery = blanked delivery.captured := by
  have short := zeroed.short delivery live
  have readable : delivery.token.len = 0 ∨
      ∃ block ∈ sock.blocks, block.Contains delivery.token.idx delivery.token.len.toNat := by
    by_cases empty : delivery.token.len = 0
    · exact Or.inl empty
    · right
      have nonempty : flags.bufferSize ≠ 0 := by
        intro none_left
        rw [none_left] at short
        exact empty (UInt32.toNat_inj.mp (Nat.le_zero.mp short))
      refine ⟨_, zeroed.boxed.own_block nonempty live, le_rfl, ?_⟩
      exact Nat.add_le_add_left short _
  rw [bytesOf, deref, if_pos readable, zeroed.zeros delivery live, Option.getD_some]

theorem Zeroed.step (zeroed : sock.Zeroed flags) (fits : action.Short flags)
    (stepped : sock.step action = some next) : next.Zeroed flags := by
  have boxed := zeroed.boxed.step stepped
  rcases step_cases stepped with ⟨-, mem, fewer⟩ | ⟨packet, ptr, received, takes, live⟩
  · refine ⟨boxed, ?_, ?_, ?_⟩
    · exact fun other kept => zeroed.short other (fewer other kept)
    · exact fun other kept => zeroed.captured other (fewer other kept)
    · rw [mem]
      exact fun other kept => zeroed.zeros other (fewer other kept)
  · have length := packet.len_toNat
    have short := fits packet received
    have capacity := zeroed.boxed.capacity
    have cases : ∀ other ∈ next.live,
        other = sock.delivery packet ptr ∨ other ∈ sock.live := by
      intro other kept
      rwa [← Multiset.mem_coe, live, Multiset.mem_cons, Multiset.mem_coe] at kept
    refine ⟨boxed, ?_, ?_, ?_⟩
    all_goals
      intro other kept
      rcases cases other kept with rfl | old
    · simp only [delivery, length]
      exact short
    · exact zeroed.short other old
    · exact length
    · exact zeroed.captured other old
    · simp only [delivery, length, blanked]
      rcases takes with ⟨empty, -⟩ | ⟨-, -, mem, -⟩
      · rw [capacity] at empty
        have nothing : packet.data.length = 0 := Nat.le_zero.mp (empty ▸ short)
        simp only [nothing, readBytes, List.range_zero, List.map_nil, List.replicate_zero]
      · rw [mem, capacity, readBytes_writeBytes_take (by rwa [List.length_replicate]),
          List.take_replicate, Nat.min_eq_left short]
    · rcases takes with ⟨-, mem, -⟩ | ⟨nonempty, apart, mem, -⟩
      · rw [mem]
        exact zeroed.zeros other old
      · rw [capacity] at nonempty apart
        have own := apart _ (zeroed.boxed.own_block nonempty old)
        have inside := zeroed.short other old
        rw [mem, capacity, readBytes_writeBytes_of_disjoint, zeroed.zeros other old]
        simp only [Block.Apart, List.length_replicate] at own ⊢
        omega

end Sock

/-! ## The implementation -/

/-- What happens around a call: what libpcap answers to it, and where a buffer is allocated. -/
structure Surroundings where
  delivered : Except Error Packet
  address : ℕ
  sent : Except Error Unit

/-- The data of the packet that libpcap delivers. -/
def Surroundings.captured (env : Surroundings) : List (List UInt8) :=
  match env.delivered with
  | .ok pkt => [pkt.data]
  | .error _ => []

/-- A socket on a device, with the packets that were captured and sent. -/
structure PacketTrace where
  sock : Sock
  captured : List (List UInt8)
  received : List (List UInt8)
  sent : List (List UInt8)

namespace PacketTrace

def start (sock : Sock) : PacketTrace := ⟨sock, [], [], []⟩

/-- Records a receive that hands out the delivery. -/
def receive (trace : PacketTrace) (env : Surroundings) (sock : Sock) (handed : Option Delivery) :
    PacketTrace :=
  match env.delivered with
  | .ok pkt =>
      { trace with
        sock := sock
        captured := trace.captured ++ [pkt.data]
        received := trace.received ++ (handed.map sock.bytesOf).toList }
  | .error _ => { trace with sock := sock }

def call (trace : PacketTrace) : Call Surroundings → Option (Except Error Unit × PacketTrace)
  | .recvToken env =>
      (trace.sock.recvToken env.delivered env.address).map fun (result, sock) =>
        (result.map fun _ => (), trace.receive env sock sock.tokens.getLast?)
  | .recv env =>
      (trace.sock.recv env.delivered env.address).map fun (result, sock) =>
        (result.map fun _ => (), trace.receive env sock (sock.payloads.getLast?.map Prod.fst))
  | .consume token ctx =>
      (trace.sock.step (.consume token ctx)).map fun sock => (.ok (), { trace with sock := sock })
  | .intoToken payload =>
      (trace.sock.step (.intoToken payload)).map fun sock => (.ok (), { trace with sock := sock })
  | .dropPayload payload _ =>
      (trace.sock.step (.dropPayload payload)).map fun sock =>
        (.ok (), { trace with sock := sock })
  | .cloneCtx ctx =>
      (trace.sock.step (.cloneCtx ctx)).map fun sock => (.ok (), { trace with sock := sock })
  | .dropCtx ctx _ =>
      some (.ok (), { trace with
        sock := { trace.sock with contexts := trace.sock.contexts.eraseIdx ctx } })
  | .writePayload payload bytes =>
      trace.sock.payloads[payload]?.bind fun (delivery, _) =>
        (trace.sock.deref delivery.token).bind fun held =>
          if bytes.length ≤ held.length then
            some (.ok (), { trace with
              sock := { trace.sock with
                mem := writeBytes trace.sock.mem delivery.token.idx bytes } })
          else
            none
  | .send packet env =>
      some (env.sent, match env.sent with
        | .ok () => { trace with sent := trace.sent ++ [packet] }
        | .error _ => trace)
  | .flush _ | .surroundings _ => some (.ok (), trace)

end PacketTrace

def backend : Implementation PacketTrace Surroundings where
  call := PacketTrace.call
  tokens trace := trace.sock.tokens.map trace.sock.bytesOf
  payloads trace := trace.sock.payloads.map fun payload => trace.sock.bytesOf payload.1

namespace PacketTrace

def view (trace : PacketTrace) : View :=
  ⟨trace.received, trace.sent, trace.sock.tokens.map trace.sock.bytesOf,
    trace.sock.payloads.map fun payload => trace.sock.bytesOf payload.1⟩

/-- What was received reads as zeros, as many as were captured. -/
structure Blanked (flags : PcapFlags) (trace : PacketTrace) : Prop where
  zeroed : trace.sock.Zeroed flags
  received : trace.received = trace.captured.map blanked

/-- Packets are not longer than a buffer, and nobody writes to a payload. -/
def Served (flags : PcapFlags) : Call Surroundings → Prop
  | .recvToken env | .recv env =>
      ∀ data ∈ env.captured, data.length ≤ flags.bufferSize
  | .writePayload _ _ => False
  | _ => True

variable {flags : PcapFlags} {trace next : PacketTrace}

/-- The view by what was captured. -/
theorem Blanked.view_eq (good : trace.Blanked flags) :
    trace.view = ⟨trace.received, trace.sent,
      trace.sock.tokens.map fun delivery => blanked delivery.captured,
      trace.sock.payloads.map fun payload => blanked payload.1.captured⟩ := by
  have tokens : trace.sock.tokens.map trace.sock.bytesOf =
      trace.sock.tokens.map fun delivery => blanked delivery.captured := by
    apply List.map_congr_left
    intro delivery listed
    exact good.zeroed.bytesOf_eq (List.mem_append_left _ listed)
  have payloads : (trace.sock.payloads.map fun payload => trace.sock.bytesOf payload.1) =
      trace.sock.payloads.map fun payload => blanked payload.1.captured := by
    apply List.map_congr_left
    intro payload listed
    exact good.zeroed.bytesOf_eq (List.mem_append_right _ (List.mem_map_of_mem listed))
  rw [view, tokens, payloads]

theorem Blanked.of_step {sock : Sock} {action : Action} (good : trace.Blanked flags)
    (fits : action.Short flags) (stepped : trace.sock.step action = some sock) :
    Blanked flags { trace with sock := sock } :=
  ⟨good.zeroed.step fits stepped, good.received⟩

theorem recvToken_view {env : Surroundings} {result : Except Error Unit}
    (good : trace.Blanked flags) (served : Served flags (.recvToken env))
    (called : trace.call (.recvToken env) = some (result, next)) :
    next.Blanked flags ∧ ∃ packet, next.view = trace.view.after packet (.recvToken env) result := by
  rcases env with ⟨delivered, address, sent⟩
  simp only [call, Option.map_eq_some_iff, Prod.mk.injEq] at called
  rcases called with ⟨⟨outcome, sock⟩, received, rfl, rfl⟩
  cases delivered with
  | error error =>
      simp only [Sock.recvToken, Option.some.injEq, Prod.mk.injEq] at received
      rcases received with ⟨rfl, rfl⟩
      exact ⟨good, [], rfl⟩
  | ok pkt =>
      have stepped : trace.sock.step (.recvToken (.ok pkt) address) = some sock := by
        simp only [Sock.step, received, Option.map_some]
      have fits : (Action.recvToken (.ok pkt) address).Short flags := by
        intro packet same
        cases same
        exact served pkt.data (List.mem_singleton_self _)
      rcases Sock.recvToken_cases received with ⟨ptr, -, tokens, payloads, -, -, info, rfl⟩
      have zeroed := good.zeroed.step fits stepped
      have new : trace.sock.delivery pkt ptr ∈ sock.live :=
        (Sock.mem_live_append tokens payloads).mpr (Or.inl rfl)
      have reads : sock.bytesOf (trace.sock.delivery pkt ptr) = blanked pkt.data :=
        zeroed.bytesOf_eq new
      have after : (trace.receive ⟨.ok pkt, address, sent⟩ sock sock.tokens.getLast?).Blanked
          flags := by
        refine ⟨zeroed, ?_⟩
        simp only [receive, tokens, List.getLast?_concat, Option.map_some, Option.toList_some,
          reads, good.received, List.map_append, List.map_singleton]
      refine ⟨after, blanked pkt.data, ?_⟩
      rw [after.view_eq, good.view_eq]
      simp only [receive, tokens, payloads, List.getLast?_concat, Option.map_some,
        Option.toList_some, reads, View.after, Except.map, List.map_append, List.map_singleton]
      rfl

/-- The token that `recv` consumes is the one just received. -/
theorem recv_shape {sock after : Sock} {pkt : Packet} {address : ℕ} {outcome : Except Error Meta}
    (received : sock.recv (.ok pkt) address = some (outcome, after)) :
    ∃ ptr context info, outcome = .ok info ∧ after.tokens = sock.tokens ∧
      after.payloads = sock.payloads ++ [(sock.delivery pkt ptr, context)] := by
  simp only [Sock.recv, Option.bind_eq_some_iff] at received
  rcases received with ⟨⟨found, middle⟩, taken, rest⟩
  rcases Sock.recvToken_cases taken with ⟨ptr, -, tokens, payloads, -, -, info, rfl⟩
  simp only [Option.map_eq_some_iff, Prod.mk.injEq] at rest
  rcases rest with ⟨last, consumed, rfl, rfl⟩
  rcases Sock.consume_cases consumed with ⟨delivery, context, listed, -, rfl, -⟩
  have position : middle.tokens.length - 1 = sock.tokens.length := by
    rw [tokens, List.length_append, List.length_singleton, Nat.add_sub_cancel]
  rw [position, tokens, List.getElem?_concat_length, Option.some.injEq] at listed
  subst delivery
  refine ⟨ptr, context, info, rfl, ?_, ?_⟩
  · simp only [position]
    rw [tokens, List.eraseIdx_append_of_length_le le_rfl, Nat.sub_self]
    exact List.append_nil _
  · simp only [payloads]

theorem recv_view {env : Surroundings} {result : Except Error Unit}
    (good : trace.Blanked flags) (served : Served flags (.recv env))
    (called : trace.call (.recv env) = some (result, next)) :
    next.Blanked flags ∧ ∃ packet, next.view = trace.view.after packet (.recv env) result := by
  rcases env with ⟨delivered, address, sent⟩
  simp only [call, Option.map_eq_some_iff, Prod.mk.injEq] at called
  rcases called with ⟨⟨outcome, sock⟩, received, rfl, rfl⟩
  cases delivered with
  | error error =>
      simp only [Sock.recv, Sock.recvToken, Option.bind_some, Option.some.injEq,
        Prod.mk.injEq] at received
      rcases received with ⟨rfl, rfl⟩
      exact ⟨good, [], rfl⟩
  | ok pkt =>
      have stepped : trace.sock.step (.recv (.ok pkt) address) = some sock := by
        simp only [Sock.step, received, Option.map_some]
      have fits : (Action.recv (.ok pkt) address).Short flags := by
        intro packet same
        cases same
        exact served pkt.data (List.mem_singleton_self _)
      rcases recv_shape received with ⟨ptr, context, info, rfl, tokens, payloads⟩
      have zeroed := good.zeroed.step fits stepped
      have listed : (trace.sock.delivery pkt ptr, context) ∈ sock.payloads := by
        rw [payloads]
        exact List.mem_append_right _ (List.mem_singleton_self _)
      have reads : sock.bytesOf (trace.sock.delivery pkt ptr) = blanked pkt.data :=
        zeroed.bytesOf_eq (List.mem_append_right _ (List.mem_map_of_mem listed))
      have after : (trace.receive ⟨.ok pkt, address, sent⟩ sock
          (sock.payloads.getLast?.map Prod.fst)).Blanked flags := by
        refine ⟨zeroed, ?_⟩
        simp only [receive, payloads, List.getLast?_concat, Option.map_some, Option.toList_some,
          reads, good.received, List.map_append, List.map_singleton]
      refine ⟨after, blanked pkt.data, ?_⟩
      rw [after.view_eq, good.view_eq]
      simp only [receive, tokens, payloads, List.getLast?_concat, Option.map_some,
        Option.toList_some, reads, View.after, Except.map, List.map_append, List.map_singleton]
      rfl

theorem dropPayload_shape {sock after : Sock} {payload : ℕ}
    (stepped : sock.step (.dropPayload payload) = some after) :
    after.tokens = sock.tokens ∧ after.payloads = sock.payloads.eraseIdx payload := by
  simp only [Sock.step, Option.bind_eq_some_iff] at stepped
  rcases stepped with ⟨⟨delivery, context⟩, -, released⟩
  simp only [Sock.release] at released
  split at released
  · cases released
    exact ⟨rfl, rfl⟩
  · split at released
    · cases released
      exact ⟨rfl, rfl⟩
    · cases released

theorem call_view {call : Call Surroundings} {result : Except Error Unit}
    (good : trace.Blanked flags) (served : Served flags call)
    (called : trace.call call = some (result, next)) :
    next.Blanked flags ∧ (result = .ok () ∨ call.Fallible) ∧
      ∃ packet, next.view = trace.view.after packet call result := by
  cases call with
  | recvToken env =>
      rcases recvToken_view good served called with ⟨after, seen⟩
      exact ⟨after, Or.inr trivial, seen⟩
  | recv env =>
      rcases recv_view good served called with ⟨after, seen⟩
      exact ⟨after, Or.inr trivial, seen⟩
  | consume token ctx =>
      simp only [PacketTrace.call, Option.map_eq_some_iff, Prod.mk.injEq] at called
      rcases called with ⟨sock, stepped, rfl, rfl⟩
      have after := good.of_step (fun _ none => by cases none) stepped
      refine ⟨after, Or.inl rfl, [], ?_⟩
      rw [after.view_eq, good.view_eq]
      rcases Sock.consume_cases stepped with ⟨delivery, context, listed, -, rfl, -⟩
      simp only [View.after, List.getElem?_map, listed, Option.map_some, Option.toList_some,
        List.map_append, List.map_singleton, List.eraseIdx_map]
  | intoToken payload =>
      simp only [PacketTrace.call, Option.map_eq_some_iff, Prod.mk.injEq] at called
      rcases called with ⟨sock, stepped, rfl, rfl⟩
      have after := good.of_step (fun _ none => by cases none) stepped
      refine ⟨after, Or.inl rfl, [], ?_⟩
      rw [after.view_eq, good.view_eq]
      simp only [Sock.step, Option.map_eq_some_iff] at stepped
      rcases stepped with ⟨⟨delivery, context⟩, listed, rfl⟩
      simp only [View.after, List.getElem?_map, listed, Option.map_some, Option.toList_some,
        List.map_append, List.map_singleton, List.eraseIdx_map]
  | writePayload payload bytes => exact served.elim
  | dropPayload payload env =>
      simp only [PacketTrace.call, Option.map_eq_some_iff, Prod.mk.injEq] at called
      rcases called with ⟨sock, stepped, rfl, rfl⟩
      have after := good.of_step (fun _ none => by cases none) stepped
      refine ⟨after, Or.inl rfl, [], ?_⟩
      rw [after.view_eq, good.view_eq]
      rcases dropPayload_shape stepped with ⟨tokens, payloads⟩
      simp only [View.after, tokens, payloads, List.eraseIdx_map]
  | cloneCtx ctx =>
      simp only [PacketTrace.call, Option.map_eq_some_iff, Prod.mk.injEq] at called
      rcases called with ⟨sock, stepped, rfl, rfl⟩
      have after := good.of_step (fun _ none => by cases none) stepped
      refine ⟨after, Or.inl rfl, [], ?_⟩
      rw [after.view_eq, good.view_eq]
      simp only [Sock.step, Option.map_eq_some_iff] at stepped
      rcases stepped with ⟨context, listed, rfl⟩
      rfl
  | dropCtx ctx env =>
      simp only [PacketTrace.call, Option.some.injEq, Prod.mk.injEq] at called
      rcases called with ⟨rfl, rfl⟩
      have boxed := good.zeroed.boxed
      have fewer : ∀ context ∈ trace.sock.contexts.eraseIdx ctx, context = trace.sock.ctx :=
        fun context listed => boxed.contexts context (List.mem_of_mem_eraseIdx listed)
      exact ⟨⟨⟨⟨boxed.capacity, fewer, boxed.borrowed, boxed.blocks, boxed.pool⟩,
        good.zeroed.short, good.zeroed.captured, good.zeroed.zeros⟩, good.received⟩, Or.inl rfl,
        [], rfl⟩
  | send packet env =>
      simp only [PacketTrace.call, Option.some.injEq, Prod.mk.injEq] at called
      rcases called with ⟨rfl, rfl⟩
      cases answer : env.sent with
      | ok => exact ⟨⟨good.zeroed, good.received⟩, Or.inl rfl, [], rfl⟩
      | error error => exact ⟨good, Or.inr trivial, [], rfl⟩
  | flush env | surroundings env =>
      simp only [PacketTrace.call, Option.some.injEq, Prod.mk.injEq] at called
      rcases called with ⟨rfl, rfl⟩
      exact ⟨good, Or.inl rfl, [], rfl⟩

theorem start_blanked (flags : PcapFlags) (poolId : UInt32) (mem : ℕ → UInt8) :
    (start (.create flags poolId mem)).Blanked flags :=
  ⟨Sock.create_zeroed flags poolId mem, rfl⟩

end PacketTrace

/-- The pcap socket keeps the promises of the trait on what the payloads read. -/
theorem backend_refines (flags : PcapFlags) :
    backend.Refines PacketTrace.view (PacketTrace.Blanked flags)
      (fun _ call => PacketTrace.Served flags call) where
  tokens _ := rfl
  payloads _ := rfl
  step := PacketTrace.call_view

/-! ## The forwarder -/

/-- No packet is longer than a buffer of the input socket. -/
def ForwardServed (flags : PcapFlags) : ForwardAction Surroundings → Prop
  | .go env => ∀ data ∈ env.captured, data.length ≤ flags.bufferSize
  | _ => True

variable {flags : PcapFlags} {inId outId : UInt32} {mem outMem : ℕ → UInt8}
  {actions : List (ForwardAction Surroundings)} {final : Forwarder PacketTrace}

/-- The forwarder between two pcap sockets sends, for each packet that was captured and in the same
order, a packet of the same length that has only zeros, but for the one that is being sent. -/
theorem forwards_zeros (short : ∀ action ∈ actions, ForwardServed flags action)
    (performed : run (Forwarder.step backend) (.new (.start (.create flags inId mem))
      (.start (.create flags outId outMem))) actions = some final) :
    final.inSocket.captured.map blanked = final.outSocket.sent ++ final.current backend ∧
      (final.current backend).length ≤ 1 := by
  have serves : RunMeets (Forwarder.step backend)
      (Forwarder.Serves backend fun _ call => PacketTrace.Served flags call)
      (.new (.start (.create flags inId mem)) (.start (.create flags outId outMem))) actions := by
    apply runMeets_of_forall
    intro action listed forwarder
    have served := short action listed
    cases action with
    | go env =>
        simp only [Forwarder.Serves]
        split
        · intro _
          exact served
        · intro packet _
          trivial
        all_goals trivial
    | interrupt | input env | output env => trivial
  have sound := Forwarder.run_sound (backend_refines flags)
    (PacketTrace.start_blanked flags inId mem) (PacketTrace.start_blanked flags outId outMem) rfl
    rfl serves performed
  refine ⟨?_, sound.current_length (backend_refines flags)⟩
  rw [← sound.inGood.received]
  exact sound.stream

/-- The forwarder receives a packet of three bytes, and sends it at the second attempt. -/
def forwardOne : List (ForwardAction Surroundings) :=
  let quiet : Surroundings := ⟨.error (.generic "timeout"), 0, .ok ()⟩
  let busy : Surroundings := ⟨.error (.generic "timeout"), 0, .error (.generic "busy")⟩
  [.go ⟨.ok Sock.oneTwoThree, 64, .ok ()⟩, .go busy, .go quiet, .go quiet]

theorem forwards_zeros_one :
    ∃ final : Forwarder PacketTrace,
      run (Forwarder.step backend) (.new (.start (.create ⟨2048⟩ 0 fun _ => 7))
        (.start (.create ⟨2048⟩ 1 fun _ => 7))) forwardOne = some final ∧
      final.inSocket.captured = [[1, 2, 3]] ∧
      final.inSocket.captured.map blanked = final.outSocket.sent ++ final.current backend ∧
        (final.current backend).length ≤ 1 := by
  have short : ∀ action ∈ forwardOne, ForwardServed ⟨2048⟩ action := by
    simp [forwardOne, ForwardServed, Surroundings.captured, Sock.oneTwoThree]
  rcases performed : run (Forwarder.step backend) (.new (.start (.create ⟨2048⟩ 0 fun _ => 7))
    (.start (.create ⟨2048⟩ 1 fun _ => 7))) forwardOne with _ | final
  · cases performed
  · refine ⟨final, rfl, ?_, forwards_zeros short performed⟩
    cases performed
    rfl

end Nethuns.Pcap
