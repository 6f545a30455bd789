import Nethuns.Examples.Forward
import Nethuns.Examples.ForwardMt
import Nethuns.Netmap.Payloads

/-!
# The netmap backend

The netmap socket as an implementation of `Socket`, and the promises of the trait. The packet
forwarder sends what was published on the rings of the one port through the other port. It does
not end, however, when it receives a packet that is larger than a buffer of that port.
-/

namespace Nethuns.Netmap

open Nethuns.Lib Nethuns.Mpsc Nethuns.Api

/-- What happens around a call: where a dropped buffer is thrown away, and what the kernel does in
its `ioctl` calls; or what the NIC writes between two calls. -/
structure Surroundings where
  site : Site
  first : Ioctl
  second : Ioctl
  pointer : ℕ
  position : ℕ
  bytes : List UInt8

/-- The kernel does nothing. -/
def Surroundings.quiet : Surroundings := ⟨⟨0, 0⟩, some id, some id, 0, 0, []⟩

def Event.ofCall : Call Surroundings → Event
  | .recvToken env => .act (.recvToken env.first)
  | .recv env => .act (.recv env.first)
  | .consume token ctx => .act (.pool (.consume token ctx))
  | .intoToken payload => .act (.pool (.intoToken payload))
  | .writePayload payload bytes => .writePayload payload bytes
  | .dropPayload payload env => .act (.pool (.dropPayload payload env.site))
  | .cloneCtx ctx => .act (.pool (.cloneCtx ctx))
  | .dropCtx ctx env => .act (.pool (.dropCtx ctx env.site))
  | .send packet env => .act (.send packet env.first env.second)
  | .flush env => .act (.flush env.first)
  | .surroundings env => .fill env.pointer env.position env.bytes

/-- What an event returns to the program. -/
def Sock.returned (sock : Sock) : Event → Except Error Unit
  | .act (.recvToken ioctl) => (sock.recvToken ioctl).elim (.ok ()) Prod.fst
  | .act (.recv ioctl) => (sock.recv ioctl).elim (.ok ()) Prod.fst
  | .act (.send packet first second) => (sock.send packet first second).elim (.ok ()) Prod.fst
  | _ => .ok ()

def backend : Implementation PacketTrace Surroundings where
  call trace call := (trace.step (.ofCall call)).map fun next =>
    (trace.recv.sock.returned (.ofCall call), next)
  tokens trace := trace.recv.sock.pool.tokens.map trace.recv.sock.packetOf
  payloads trace :=
    trace.recv.sock.pool.payloads.map fun payload => trace.recv.sock.packetOf payload.token

namespace PacketTrace

def view (trace : PacketTrace) : View :=
  trace.recv.sock.pool.view trace.recv.sock.packetOf (trace.received.map Prod.snd) trace.sent

variable {trace next : PacketTrace} {call : Call Surroundings}

theorem Carries.view {sock after : Sock} (carries : Sock.Carries sock after)
    (received sent : List (List UInt8)) :
    after.pool.view after.packetOf received sent = sock.pool.view sock.packetOf received sent :=
  Pool.view_congr carries.tokens carries.payloads carries.held received sent

theorem receive_view {env : Surroundings} (faithful : trace.Faithful)
    (served : trace.Served (.ofCall (.recvToken env)))
    (stepped : trace.step (.ofCall (.recvToken env)) = some next) :
    ∃ packet, next.view = trace.view.after packet (.recvToken env)
      (trace.recv.sock.returned (.ofCall (.recvToken env))) := by
  simp only [step, Event.ofCall, RecvTrace.step, Option.map_map, Option.map_eq_some_iff,
    Function.comp_apply] at stepped
  rcases stepped with ⟨⟨result, sock⟩, received, rfl⟩
  rcases Sock.recvToken_receipt faithful.lossless.ready served.2.1 received with
    ⟨bufs, -, payloads, outcome⟩
  have held : ∀ other ∈ trace.recv.sock.pool.liveTokens,
      sock.packetOf other = trace.recv.sock.packetOf other := by
    intro other _
    rw [Sock.packetOf, Port.content, bufs]
    rfl
  simp only [Sock.returned, Event.ofCall, received, Option.elim_some]
  rcases outcome with ⟨error, rfl, nothing, tokens⟩ | ⟨index, token, rfl, handed, tokens⟩
  · refine ⟨[], ?_⟩
    simp only [view, act, Sock.handsOut, nothing, Sock.sends, Option.toList_none, List.map_nil,
      List.append_nil]
    exact Pool.view_congr tokens payloads held _ _
  · refine ⟨sock.packetOf token, ?_⟩
    simp only [view, act, Sock.handsOut, handed, Sock.sends, Option.toList_some, List.map_cons,
      List.map_nil, List.map_append, List.append_nil]
    exact Pool.view_recvToken tokens payloads held _ _ env

theorem recv_view {env : Surroundings} (faithful : trace.Faithful)
    (served : trace.Served (.ofCall (.recv env)))
    (stepped : trace.step (.ofCall (.recv env)) = some next) :
    ∃ packet, next.view = trace.view.after packet (.recv env)
      (trace.recv.sock.returned (.ofCall (.recv env))) := by
  simp only [step, Event.ofCall, RecvTrace.step, Option.map_eq_some_iff,
    Option.bind_eq_some_iff] at stepped
  rcases stepped with ⟨_, ⟨⟨result, middle⟩, received, ⟨outcome, sock⟩, ended, rfl⟩, rfl⟩
  rcases Sock.recvToken_receipt faithful.lossless.ready served.2.1 received with
    ⟨bufs, -, payloads, receipt⟩
  have held : ∀ other ∈ trace.recv.sock.pool.liveTokens,
      middle.packetOf other = trace.recv.sock.packetOf other := by
    intro other _
    rw [Sock.packetOf, Port.content, bufs]
    rfl
  simp only [Sock.returned, Event.ofCall, ended, Option.elim_some]
  simp only [Sock.recv, received, Option.bind_some] at ended
  rcases receipt with ⟨error, rfl, nothing, tokens⟩ | ⟨index, token, rfl, handed, tokens⟩
  · simp only [Option.some.injEq, Prod.mk.injEq] at ended
    rcases ended with ⟨rfl, rfl⟩
    refine ⟨[], ?_⟩
    simp only [view, act, Sock.handsOut, nothing, Sock.sends, Option.toList_none, List.map_nil,
      List.append_nil]
    exact Pool.view_congr tokens payloads held _ _
  · simp only [Option.map_eq_some_iff, Prod.mk.injEq] at ended
    rcases ended with ⟨pool, consumed, rfl, rfl⟩
    refine ⟨middle.packetOf token, ?_⟩
    simp only [view, act, Sock.handsOut, handed, Sock.sends, Option.toList_some, List.map_cons,
      List.map_nil, List.map_append, List.append_nil]
    exact Pool.view_recv tokens payloads held consumed _ _ env

theorem send_view {packet : List UInt8} {env : Surroundings} (faithful : trace.Faithful)
    (served : trace.Served (.ofCall (.send packet env)))
    (stepped : trace.step (.ofCall (.send packet env)) = some next) :
    next.view = trace.view.after [] (.send packet env)
      (trace.recv.sock.returned (.ofCall (.send packet env))) := by
  simp only [step, Event.ofCall, RecvTrace.step, Sock.step, Option.map_map,
    Option.map_eq_some_iff, Function.comp_apply] at stepped
  rcases stepped with ⟨⟨result, sock⟩, sent, rfl⟩
  have carries := Sock.send_carries faithful.nodup served.1 sent
  simp only [Sock.returned, Event.ofCall, sent, Option.elim_some, view, act, Sock.handsOut,
    Sock.sends, Option.toList_none, List.map_nil, List.append_nil]
  cases result with
  | ok => exact Carries.view carries _ _
  | error error =>
      rw [List.append_nil]
      exact Carries.view carries _ _

theorem pool_view {action : PoolAction}
    (stepped : trace.step (.act (.pool action)) = some next) (env : Site → Surroundings) :
    next.view = trace.view.after [] (action.call env) (.ok ()) := by
  simp only [step, RecvTrace.step, Sock.step, Option.map_map, Option.map_eq_some_iff,
    Function.comp_apply] at stepped
  rcases stepped with ⟨⟨pool, discards⟩, moved, rfl⟩
  simp only [view, act, Sock.handsOut, Sock.sends, Option.toList_none, List.map_nil,
    List.append_nil]
  exact Pool.step_view trace.recv.sock.packetOf _ _ env moved

theorem call_view (faithful : trace.Faithful) (served : trace.Served (.ofCall call))
    (stepped : trace.step (.ofCall call) = some next) :
    (trace.recv.sock.returned (.ofCall call) = .ok () ∨ call.Fallible) ∧
      ∃ packet, next.view =
        trace.view.after packet call (trace.recv.sock.returned (.ofCall call)) := by
  cases call with
  | recvToken env => exact ⟨Or.inr trivial, receive_view faithful served stepped⟩
  | recv env => exact ⟨Or.inr trivial, recv_view faithful served stepped⟩
  | consume token ctx => exact ⟨Or.inl rfl, [], pool_view stepped fun _ => .quiet⟩
  | intoToken payload => exact ⟨Or.inl rfl, [], pool_view stepped fun _ => .quiet⟩
  | dropPayload payload env => exact ⟨Or.inl rfl, [], pool_view stepped fun _ => env⟩
  | cloneCtx ctx => exact ⟨Or.inl rfl, [], pool_view stepped fun _ => .quiet⟩
  | dropCtx ctx env => exact ⟨Or.inl rfl, [], pool_view stepped fun _ => env⟩
  | send packet env => exact ⟨Or.inr trivial, [], send_view faithful served stepped⟩
  | flush env =>
      simp only [step, Event.ofCall, RecvTrace.step, Sock.step, Sock.flush, Option.map_map,
        Option.map_eq_some_iff, Function.comp_apply] at stepped
      rcases stepped with ⟨after, done, rfl⟩
      rcases Port.sync_sameShape done with ⟨rings, rfl⟩
      refine ⟨Or.inl rfl, [], ?_⟩
      simp only [view, act, Sock.handsOut, Sock.sends, Option.toList_none, List.map_nil,
        List.append_nil]
      rfl
  | writePayload position bytes =>
      simp only [step, Event.ofCall, Option.map_eq_some_iff] at stepped
      rcases stepped with ⟨sock, written, rfl⟩
      rcases Sock.writePayload_held faithful.nodup written with
        ⟨payload, present, pool, -, own, others⟩
      have distinct := Sock.liveTokens_distinct faithful.nodup
      refine ⟨Or.inl rfl, [], ?_⟩
      simp only [view, pool]
      exact Pool.view_writePayload distinct present own others _ _ _
  | surroundings env =>
      simp only [step, Event.ofCall, Option.map_eq_some_iff] at stepped
      rcases stepped with ⟨sock, filled, rfl⟩
      exact ⟨Or.inl rfl, [], Carries.view (Sock.fill_carries faithful.nodup filled) _ _⟩

theorem start_view {port : Port} {ioctl : Ioctl} {index : UInt32} {site : Site} {sock : Sock}
    (created : Sock.create port ioctl index site = some sock) : (start sock).view = .empty := by
  rcases create_unused created with ⟨tokens, payloads⟩
  simp only [view, start, RecvTrace.start, Pool.view, tokens, payloads, List.map_nil, View.empty]

end PacketTrace

/-- The netmap socket keeps the promises of the trait. -/
theorem backend_refines :
    backend.Refines PacketTrace.view PacketTrace.Faithful
      (fun trace call => trace.Served (.ofCall call)) where
  tokens _ := rfl
  payloads _ := rfl
  step := by
    intro trace next call result faithful served called
    simp only [backend, Option.map_eq_some_iff, Prod.mk.injEq] at called
    rcases called with ⟨_, stepped, rfl, rfl⟩
    exact ⟨PacketTrace.step_faithful faithful served stepped,
      PacketTrace.call_view faithful served stepped⟩

/-! ## The forwarder -/

section Forward

open Nethuns.Examples

variable {inPort outPort inTaken outTaken : Port} {inExtra outExtra : List UInt32}
  {inIoctl outIoctl : Ioctl} {inIndex outIndex : UInt32} {inSite outSite : Site}
  {inSock outSock : Sock}

/-- The steps of the forwarder in which the kernel does what it is trusted to do, and a receive
that finds a packet finds a free buffer. -/
def ForwardServed : Forwarder PacketTrace → ForwardAction Surroundings → Prop :=
  Forwarder.Serves backend fun trace call => trace.Served (.ofCall call)

/-- In every run of the forwarder in which the kernel does what it is trusted to do and receives
find free buffers, in any interleaving with the NICs and the kernel on both sides: the packets of
the sends that succeeded on the one port, then the one that is being sent, if any, are an
interleaving of those received from the rings of the other port; and what the kernel published on
each of these rings is what was received from it, in order and each of them once, then what is
pending there. The totals count what was received and the sends that succeeded. Nothing is said of
the slots of the other port. -/
theorem forwards_rings {actions : List (ForwardAction Surroundings)}
    {final : Forwarder PacketTrace}
    (inChain : inPort.extraBuffersIndexes = some (inExtra, inTaken))
    (inDistinct : (inPort.txBufs + inPort.rxBufs + ↑(inExtra.map UInt32.toNat)).Nodup)
    (inValid : inPort.RxValid) (inKeeps : inIoctl.KeepsBufs)
    (inDelivers : inIoctl.DeliversRx inPort.rxBase inPort.niRxRings)
    (outChain : outPort.extraBuffersIndexes = some (outExtra, outTaken))
    (outDistinct : (outPort.txBufs + outPort.rxBufs + ↑(outExtra.map UInt32.toNat)).Nodup)
    (outValid : outPort.RxValid) (outKeeps : outIoctl.KeepsBufs)
    (outDelivers : outIoctl.DeliversRx outPort.rxBase outPort.niRxRings)
    (inCreated : Sock.create inPort inIoctl inIndex inSite = some inSock)
    (outCreated : Sock.create outPort outIoctl outIndex outSite = some outSock)
    (served : RunMeets (Forwarder.step backend) ForwardServed
      (.new (.start inSock) (.start outSock)) actions)
    (performed : run (Forwarder.step backend) (.new (.start inSock) (.start outSock)) actions =
      some final) :
    final.inSocket.received.map Prod.snd = final.outSocket.sent ++ final.current backend ∧
      (∀ ring < final.inSocket.recv.sock.port.niRxRings,
        final.inSocket.delivered ring = final.inSocket.receivedAt ring ++
          final.inSocket.recv.sock.pendingPackets ring) ∧
      (final.current backend).length ≤ 1 ∧
      final.totalRcv = .ofNat final.inSocket.received.length ∧
      final.totalFwd + final.uncounted = .ofNat final.outSocket.sent.length := by
  have sound := Forwarder.run_sound backend_refines
    (PacketTrace.start_faithful inChain inDistinct inValid inKeeps inDelivers inCreated)
    (PacketTrace.start_faithful outChain outDistinct outValid outKeeps outDelivers outCreated)
    (PacketTrace.start_view inCreated) (PacketTrace.start_view outCreated) served performed
  have input : final.inSocket.Faithful := sound.inGood
  have totalRcv := sound.totalRcv
  simp only [PacketTrace.view, Pool.view, List.length_map] at totalRcv
  exact ⟨sound.stream, input.stream, sound.current_length backend_refines, totalRcv,
    sound.totalFwd⟩

/-- The kernel does nothing in the calls of the step. -/
def Quiet : ForwardAction Surroundings → Prop
  | .go env => env = .quiet
  | .interrupt | .input _ | .output _ => True

/-- The steps with an idle kernel while there are free buffers. -/
theorem quiet_served {forwarder : Forwarder PacketTrace} {action : ForwardAction Surroundings}
    (poppable : forwarder.inSocket.recv.sock.pool.channel.pop.1.isSome = true)
    (quiet : Quiet action) : ForwardServed forwarder action := by
  have keeps : ∀ base, Ioctl.KeepsBufs (some id) ∧ Ioctl.LeavesFrom (some id) base :=
    fun base => ⟨Ioctl.id_keepsBufs, Ioctl.id_leavesFrom base⟩
  cases action with
  | go env =>
      obtain rfl : env = .quiet := quiet
      cases pc : forwarder.pc with
      | receiving =>
          simp only [ForwardServed, Forwarder.Serves, pc]
          intro _
          refine ⟨Ioctl.id_keepsBufs, RecvTrace.Ioctl.id_deliversRx _ _, ?_⟩
          intro index ready _ empty
          rw [empty] at poppable
          cases poppable
      | sending =>
          simp only [ForwardServed, Forwarder.Serves, pc]
          intro packet _
          exact ⟨⟨keeps _, keeps _⟩,
            ⟨RecvTrace.Ioctl.id_leavesRx _ _, RecvTrace.Ioctl.id_leavesRx _ _⟩, trivial⟩
      | flushing =>
          simp only [ForwardServed, Forwarder.Serves, pc]
          exact ⟨keeps _, RecvTrace.Ioctl.id_leavesRx _ _, trivial⟩
      | forwarded =>
          simp only [ForwardServed, Forwarder.Serves, pc]
          exact ⟨trivial, trivial, trivial⟩
      | terminated => simp only [ForwardServed, Forwarder.Serves, pc]
  | interrupt => trivial
  | input env => trivial
  | output env => trivial

theorem quiet_runMeets {start : Forwarder PacketTrace}
    {actions : List (ForwardAction Surroundings)}
    (poppable : RunMeets (Forwarder.step backend)
      (fun forwarder _ => forwarder.inSocket.recv.sock.pool.channel.pop.1.isSome = true) start
      actions)
    (quiet : ∀ action ∈ actions, Quiet action) :
    RunMeets (Forwarder.step backend) ForwardServed start actions :=
  (poppable.and (runMeets_of_forall fun action listed _ => quiet action listed)).imp
    (fun _ => True) (fun _ both => quiet_served both.1 both.2) (fun _ _ _ => trivial) trivial

/-- A packet is forwarded; meanwhile the NIC reuses the buffer that its slot got. -/
def oneForwarded : List (ForwardAction Surroundings) :=
  [.go .quiet, .input { Surroundings.quiet with pointer := 1, bytes := [7, 7] }, .go .quiet,
    .go .quiet]

theorem onePacketPort_rxValid : onePacketPort.RxValid := by
  intro index present
  obtain rfl : index = 0 := Nat.lt_one_iff.mp present
  decide

/-- The extra buffers of the port of the examples. -/
def sixteen : List UInt32 := [5, 6, 7, 8, 9, 10, 11, 12, 13, 14, 15, 16, 17, 18, 19, 20]

theorem chain_of_map {port : Port} {extra : List UInt32}
    (walked : port.extraBuffersIndexes.map Prod.fst = some extra) :
    ∃ taken, port.extraBuffersIndexes = some (extra, taken) := by
  simpa only [Option.map_eq_some_iff, Prod.exists, exists_and_right, exists_eq_right] using walked

theorem forwards_rings_oneForwarded :
    ∃ inSock outSock final, Sock.create onePacketPort (some id) 0 ⟨0, 0⟩ = some inSock ∧
      Sock.create onePacketPort (some id) 0 ⟨0, 0⟩ = some outSock ∧
      run (Forwarder.step backend) (.new (.start inSock) (.start outSock)) oneForwarded =
        some final ∧
      final.inSocket.delivered 0 = [[4, 0, 0, 0]] ∧ final.outSocket.sent = [[4, 0, 0, 0]] := by
  have performed : ((Sock.create onePacketPort (some id) 0 ⟨0, 0⟩).bind fun sock =>
      (run (Forwarder.step backend) (.new (.start sock) (.start sock)) oneForwarded).map
        fun final =>
          (decide (RunMeets (Forwarder.step backend)
            (fun forwarder _ => forwarder.inSocket.recv.sock.pool.channel.pop.1.isSome = true)
            (.new (.start sock) (.start sock)) oneForwarded ∧
              0 < final.inSocket.recv.sock.port.niRxRings),
            final.inSocket.received,
            final.current backend ++ final.inSocket.recv.sock.pendingPackets 0)) =
      some (true, [(0, [4, 0, 0, 0])], []) := by
    decide +kernel
  simp only [Option.bind_eq_some_iff, Option.map_eq_some_iff, Prod.mk.injEq, decide_eq_true_eq,
    List.append_eq_nil_iff] at performed
  rcases performed with
    ⟨sock, created, final, performed, ⟨poppable, rings⟩, all, current, pending⟩
  rcases chain_of_map (show onePacketPort.extraBuffersIndexes.map Prod.fst = some sixteen by
    decide +kernel) with ⟨taken, chain⟩
  have served : RunMeets (Forwarder.step backend) ForwardServed
      (.new (.start sock) (.start sock)) oneForwarded := by
    apply quiet_runMeets poppable
    simp [oneForwarded, Quiet]
  have distinct : (onePacketPort.txBufs + onePacketPort.rxBufs +
      ↑(sixteen.map UInt32.toNat)).Nodup := by
    decide +kernel
  rcases forwards_rings chain distinct onePacketPort_rxValid Ioctl.id_keepsBufs
    (RecvTrace.Ioctl.id_deliversRx _ _) chain distinct onePacketPort_rxValid Ioctl.id_keepsBufs
    (RecvTrace.Ioctl.id_deliversRx _ _) created created served performed with ⟨stream, each, -⟩
  have first := each 0 rings
  simp only [PacketTrace.receivedAt, all, pending] at first
  simp only [all, current, List.append_nil] at stream
  exact ⟨sock, sock, final, created, created, performed, first, stream.symm⟩

/-! ## A packet that is too large -/

section TooLarge

variable {sock next : Sock} {packet : List UInt8} {size : ℕ} {sent : List (List UInt8)}

theorem Sock.send_nrBufSize {first second : Ioctl} {result : Except Error Unit}
    (ended : sock.send packet first second = some (result, next)) :
    next.port.nrBufSize = sock.port.nrBufSize ∧
      (sock.port.nrBufSize < packet.length → result ≠ .ok ()) := by
  simp only [send, Option.bind_eq_some_iff] at ended
  rcases ended with ⟨⟨found, tx, after⟩, obtained, ended⟩
  rcases obtain_sameShape obtained with ⟨rings, rfl⟩
  cases found with
  | none =>
      simp only [Option.some.injEq, Prod.mk.injEq] at ended
      rcases ended with ⟨rfl, rfl⟩
      refine ⟨rfl, ?_⟩
      intro _ ok
      cases ok
  | some buf =>
      simp only [sendInner, Option.map_eq_some_iff] at ended
      rcases ended with ⟨slot, -, ended⟩
      split at ended
      · rw [Prod.mk.injEq] at ended
        rcases ended with ⟨rfl, rfl⟩
        refine ⟨rfl, ?_⟩
        intro _ ok
        cases ok
      · rename_i fits
        rw [Prod.mk.injEq] at ended
        rcases ended with ⟨rfl, rfl⟩
        exact ⟨rfl, fun large => absurd large fits⟩

section Calls

variable {trace after : PacketTrace} {env : Surroundings} {result : Except Error Unit}

theorem backend_send (called : backend.call trace (.send packet env) = some (result, after)) :
    after.recv.sock.port.nrBufSize = trace.recv.sock.port.nrBufSize ∧
      (trace.recv.sock.port.nrBufSize < packet.length →
        result ≠ .ok () ∧ after.sent = trace.sent) := by
  simp only [backend, PacketTrace.step, Event.ofCall, RecvTrace.step, Sock.step, Option.map_map,
    Option.map_eq_some_iff, Function.comp_apply] at called
  rcases called with ⟨⟨outcome, sock⟩, ended, called⟩
  simp only [Sock.returned, ended, Option.elim_some, Prod.mk.injEq] at called
  rcases called with ⟨rfl, rfl⟩
  rcases Sock.send_nrBufSize ended with ⟨kept, rejected⟩
  refine ⟨kept, fun large => ⟨rejected large, ?_⟩⟩
  cases outcome with
  | ok => exact absurd rfl (rejected large)
  | error error => simp only [PacketTrace.act, Sock.sends, ended, List.append_nil]

theorem backend_flush (called : backend.call trace (.flush env) = some (result, after)) :
    after.recv.sock.port.nrBufSize = trace.recv.sock.port.nrBufSize ∧
      after.sent = trace.sent := by
  simp only [backend, PacketTrace.step, Event.ofCall, RecvTrace.step, Sock.step, Sock.flush,
    Option.map_map, Option.map_eq_some_iff, Function.comp_apply, Prod.mk.injEq] at called
  rcases called with ⟨port, done, -, rfl⟩
  rcases Port.sync_sameShape done with ⟨rings, rfl⟩
  exact ⟨rfl, List.append_nil trace.sent⟩

theorem backend_surroundings
    (called : backend.call trace (.surroundings env) = some (result, after)) :
    after.recv.sock.port.nrBufSize = trace.recv.sock.port.nrBufSize ∧
      after.sent = trace.sent := by
  simp only [backend, PacketTrace.step, Event.ofCall, Sock.fill, Option.map_eq_some_iff,
    Option.ite_none_right_eq_some, Prod.mk.injEq] at called
  rcases called with ⟨_, ⟨sock, ⟨-, slot, -, rfl⟩, rfl⟩, -, rfl⟩
  exact ⟨rfl, rfl⟩

end Calls

theorem rejects_tooLarge (large : size < packet.length) (sent : List (List UInt8)) :
    Forwarder.Rejects backend packet
      (fun trace => trace.recv.sock.port.nrBufSize = size ∧ trace.sent = sent) where
  send := by
    rintro trace next env result ⟨rfl, rfl⟩ called
    rcases backend_send called with ⟨kept, rejected⟩
    rcases rejected large with ⟨fails, same⟩
    exact ⟨fails, kept, same⟩
  flush := by
    rintro trace next env result ⟨rfl, rfl⟩ called
    exact backend_flush called
  surroundings := by
    rintro trace next env result ⟨rfl, rfl⟩ called
    exact backend_surroundings called

/-- Where the kernel does what it is trusted to do and receives find free buffers: once the
forwarder has received a packet that is larger than a buffer of the other port, it tries to send it
for ever, also after Ctrl-C, and no further send succeeds. -/
theorem forward_hangs {before after : List (ForwardAction Surroundings)}
    {middle final : Forwarder PacketTrace}
    (inChain : inPort.extraBuffersIndexes = some (inExtra, inTaken))
    (inDistinct : (inPort.txBufs + inPort.rxBufs + ↑(inExtra.map UInt32.toNat)).Nodup)
    (inValid : inPort.RxValid) (inKeeps : inIoctl.KeepsBufs)
    (inDelivers : inIoctl.DeliversRx inPort.rxBase inPort.niRxRings)
    (outChain : outPort.extraBuffersIndexes = some (outExtra, outTaken))
    (outDistinct : (outPort.txBufs + outPort.rxBufs + ↑(outExtra.map UInt32.toNat)).Nodup)
    (outValid : outPort.RxValid) (outKeeps : outIoctl.KeepsBufs)
    (outDelivers : outIoctl.DeliversRx outPort.rxBase outPort.niRxRings)
    (inCreated : Sock.create inPort inIoctl inIndex inSite = some inSock)
    (outCreated : Sock.create outPort outIoctl outIndex outSite = some outSock)
    (served : RunMeets (Forwarder.step backend) ForwardServed
      (.new (.start inSock) (.start outSock)) (before ++ after))
    (reached : run (Forwarder.step backend) (.new (.start inSock) (.start outSock)) before =
      some middle)
    (received : middle.current backend = [packet]) (large : outPort.nrBufSize < packet.length)
    (performed : run (Forwarder.step backend) middle after = some final) :
    (final.pc = .sending ∨ final.pc = .flushing) ∧ final.current backend = [packet] ∧
      final.outSocket.sent = middle.outSocket.sent := by
  rcases served.split reached with ⟨earlier, later⟩
  have sound := Forwarder.run_sound backend_refines
    (PacketTrace.start_faithful inChain inDistinct inValid inKeeps inDelivers inCreated)
    (PacketTrace.start_faithful outChain outDistinct outValid outKeeps outDelivers outCreated)
    (PacketTrace.start_view inCreated) (PacketTrace.start_view outCreated) earlier reached
  have initial : outSock.port.nrBufSize = outPort.nrBufSize := by
    rcases Sock.create_cases outCreated with ⟨_, synced, _, -, done, -, rfl⟩
    rcases Port.sync_sameShape done with ⟨rings, rfl⟩
    rfl
  have size : middle.outSocket.recv.sock.port.nrBufSize = outPort.nrBufSize :=
    Forwarder.run_output (fun kept sent => (backend_send sent).1.trans kept)
      (fun kept flushed => (backend_flush flushed).1.trans kept)
      (fun kept moved => (backend_surroundings moved).1.trans kept) initial reached
  have busy : (middle.pc = .sending ∨ middle.pc = .flushing) ∧
      backend.payloads middle.inSocket = [packet] := by
    cases pc : middle.pc <;> simp [Forwarder.current, pc] at received ⊢
    · exact received
    · exact received
  have stuck := Forwarder.run_stuck backend_refines
    (rejects_tooLarge large middle.outSocket.sent)
    ⟨busy.1, sound.inGood, by rw [busy.2, List.getElem?_cons_zero], size, rfl⟩ later performed
  have last := Forwarder.run_sound backend_refines
    (PacketTrace.start_faithful inChain inDistinct inValid inKeeps inDelivers inCreated)
    (PacketTrace.start_faithful outChain outDistinct outValid outKeeps outDelivers outCreated)
    (PacketTrace.start_view inCreated) (PacketTrace.start_view outCreated) served
    (by rw [run_append, reached, Option.bind_some, performed])
  exact ⟨stuck.busy, stuck.current backend_refines last, stuck.bad.2⟩

/-- A packet of four bytes is received, and two attempts to send it. -/
theorem forward_hangs_smallBuffers :
    ∃ inSock outSock middle final,
      Sock.create onePacketPort (some id) 0 ⟨0, 0⟩ = some inSock ∧
      Sock.create { onePacketPort with nrBufSize := 3 } (some id) 0 ⟨0, 0⟩ = some outSock ∧
      run (Forwarder.step backend) (.new (.start inSock) (.start outSock)) [.go .quiet] =
        some middle ∧
      run (Forwarder.step backend) middle [.interrupt, .go .quiet, .go .quiet, .go .quiet] =
        some final ∧
      final.pc ≠ .terminated ∧ final.current backend = [[4, 0, 0, 0]] := by
  have performed : ((Sock.create onePacketPort (some id) 0 ⟨0, 0⟩).bind fun inSock =>
      (Sock.create { onePacketPort with nrBufSize := 3 } (some id) 0 ⟨0, 0⟩).bind fun outSock =>
        (run (Forwarder.step backend) (.new (.start inSock) (.start outSock)) [.go .quiet]).bind
          fun middle =>
            (run (Forwarder.step backend) middle
              [.interrupt, .go .quiet, .go .quiet, .go .quiet]).map fun final =>
                (decide (RunMeets (Forwarder.step backend)
                  (fun forwarder _ =>
                    forwarder.inSocket.recv.sock.pool.channel.pop.1.isSome = true)
                  (.new (.start inSock) (.start outSock))
                  [.go .quiet, .interrupt, .go .quiet, .go .quiet, .go .quiet]),
                  middle.current backend)) =
      some (true, [[4, 0, 0, 0]]) := by
    decide +kernel
  simp only [Option.bind_eq_some_iff, Option.map_eq_some_iff, Prod.mk.injEq,
    decide_eq_true_eq] at performed
  rcases performed with ⟨inSock, inCreated, outSock, outCreated, middle, reached, final, performed,
    poppable, current⟩
  rcases chain_of_map (show onePacketPort.extraBuffersIndexes.map Prod.fst = some sixteen by
    decide +kernel) with ⟨taken, chain⟩
  have served : RunMeets (Forwarder.step backend) ForwardServed
      (.new (.start inSock) (.start outSock))
      ([.go .quiet] ++ [.interrupt, .go .quiet, .go .quiet, .go .quiet]) := by
    apply quiet_runMeets poppable
    simp [Quiet]
  have distinct : (onePacketPort.txBufs + onePacketPort.rxBufs +
      ↑(sixteen.map UInt32.toNat)).Nodup := by
    decide +kernel
  rcases chain_of_map (show { onePacketPort with nrBufSize := 3 }.extraBuffersIndexes.map Prod.fst =
    some sixteen by decide +kernel) with ⟨outTaken, outChain⟩
  rcases forward_hangs chain distinct onePacketPort_rxValid Ioctl.id_keepsBufs
    (RecvTrace.Ioctl.id_deliversRx _ _) outChain distinct onePacketPort_rxValid
    Ioctl.id_keepsBufs (RecvTrace.Ioctl.id_deliversRx _ _) inCreated outCreated served reached
    current (by decide) performed with ⟨busy, still, -⟩
  refine ⟨inSock, outSock, middle, final, inCreated, outCreated, reached, performed, ?_, still⟩
  intro ended
  rw [ended] at busy
  rcases busy with pc | pc
  · cases pc
  · cases pc

end TooLarge

end Forward

end Nethuns.Netmap
