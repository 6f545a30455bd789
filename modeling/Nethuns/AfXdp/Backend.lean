import Nethuns.AfXdp.Payloads
import Nethuns.Examples.Forward
import Nethuns.Examples.ForwardMt

/-!
# The AF_XDP backend

The AF_XDP socket as an implementation of `Socket`, and the promises of the trait: when the frames
consist of whole chunks, and as long as no refill runs out of free frames and each send that obtains
a slot finds a free frame with room for its packet, a program that uses the socket sees received
packets that nobody else changes. The packet forwarder then puts on the one wire what arrives on the
other one.
-/

namespace Nethuns.AfXdp

open Nethuns.Lib Nethuns.Mpsc Nethuns.Api

/-- What happens around a call: where a dropped frame is thrown away, and what the kernel does
meanwhile. -/
structure Surroundings where
  site : Site
  before : List KernelAction
  after : List KernelAction
  kernel : Interleaving
  action : KernelAction
deriving DecidableEq

/-- The kernel does nothing during a call; between two calls it takes a frame to fill. -/
def Surroundings.quiet : Surroundings := ⟨⟨0, 0⟩, [], [], .idle, .takeFill⟩

def Action.ofCall : Call Surroundings → Action
  | .recvToken env => .recvToken env.before env.after
  | .recv env => .recv env.before env.after
  | .consume token ctx => .pool (.consume token ctx)
  | .intoToken payload => .pool (.intoToken payload)
  | .writePayload payload bytes => .writePayload payload bytes
  | .dropPayload payload env => .pool (.dropPayload payload env.site)
  | .cloneCtx ctx => .pool (.cloneCtx ctx)
  | .dropCtx ctx env => .pool (.dropCtx ctx env.site)
  | .send packet env => .send packet env.site env.kernel
  | .flush env => .flush env.site env.kernel
  | .surroundings env => .kernel env.action

/-- What an action returns to the program. -/
def Sock.returned (sock : Sock) : Action → Except Error Unit
  | .recvToken before after => (sock.recvToken before after).elim (.ok ()) Prod.fst
  | .recv before after => (sock.recv before after).elim (.ok ()) Prod.fst
  | .send packet site kernel => (sock.send packet site kernel).elim (.ok ()) Prod.fst
  | _ => .ok ()

def backend : Implementation PacketTrace Surroundings where
  call trace call := (trace.step (.ofCall call)).map fun next =>
    (trace.tx.sock.returned (.ofCall call), next)
  tokens trace := trace.tx.sock.pool.tokens.map trace.tx.sock.packetOf
  payloads trace :=
    trace.tx.sock.pool.payloads.map fun payload => trace.tx.sock.packetOf payload.token

def PacketTrace.view (trace : PacketTrace) : View :=
  trace.tx.sock.pool.view trace.tx.sock.packetOf trace.received trace.tx.sent

namespace Sock

variable {flags : AfXdpFlags} {sock next : Sock} {fresh : List (List UInt8)}

theorem Carries.view (carries : Carries sock next fresh) (received sent : List (List UInt8)) :
    next.pool.view next.packetOf received sent = sock.pool.view sock.packetOf received sent :=
  Pool.view_congr carries.tokens carries.payloads carries.held received sent

theorem writePayload_view {position : ℕ} {bytes : List UInt8} (intact : sock.Intact flags True)
    (nodup : (sock.frames flags).Nodup) (written : sock.writePayload position bytes = some next)
    (received sent : List (List UInt8)) (packet : List UInt8) :
    next.pool.view next.packetOf received sent =
      (sock.pool.view sock.packetOf received sent).after packet
        (@Call.writePayload Surroundings position bytes) (.ok ()) := by
  rcases writePayload_held intact nodup written with ⟨payload, present, pool, -, own, others⟩
  have distinct : sock.pool.liveTokens.Nodup := (liveTokens_distinct nodup).of_map _
  rw [pool]
  exact Pool.view_writePayload distinct present own others received sent packet

end Sock

namespace PacketTrace

variable {flags : AfXdpFlags} {trace next : PacketTrace} {call : Call Surroundings}

theorem receive_view {env : Surroundings} (chunked : flags.Chunked) (fits : flags.Fits)
    (faithful : trace.Faithful flags)
    (served : trace.tx.Served flags (.ofCall (.recvToken env)))
    (stepped : trace.step (.ofCall (.recvToken env)) = some next) :
    ∃ packet, next.view = trace.view.after packet (.recvToken env)
      (trace.tx.sock.returned (.ofCall (.recvToken env))) := by
  rcases faithful.tx.exclusive with ⟨intact, nodup⟩
  simp only [step, TxTrace.step, Action.ofCall, Sock.step, Option.map_map,
    Option.map_eq_some_iff, Function.comp_apply] at stepped
  rcases stepped with ⟨⟨result, sock⟩, received, rfl⟩
  simp only [Sock.returned, Action.ofCall, received, Option.elim_some, receipt]
  rcases Sock.recvToken_receives chunked intact fits nodup served.1 received with
    ⟨rfl, token, receives⟩ | ⟨error, rfl, carries⟩
  · refine ⟨sock.packetOf token, ?_⟩
    simp only [receives.tokens, List.getLast?_concat]
    exact Pool.view_recvToken receives.tokens receives.payloads receives.held trace.received
      trace.tx.sent env
  · exact ⟨[], carries.view trace.received trace.tx.sent⟩

theorem recv_view {env : Surroundings} (chunked : flags.Chunked) (fits : flags.Fits)
    (faithful : trace.Faithful flags)
    (served : trace.tx.Served flags (.ofCall (.recv env)))
    (stepped : trace.step (.ofCall (.recv env)) = some next) :
    ∃ packet, next.view = trace.view.after packet (.recv env)
      (trace.tx.sock.returned (.ofCall (.recv env))) := by
  rcases faithful.tx.exclusive with ⟨intact, nodup⟩
  simp only [step, TxTrace.step, Action.ofCall, Sock.step, Option.map_map,
    Option.map_eq_some_iff, Function.comp_apply] at stepped
  rcases stepped with ⟨⟨outcome, sock⟩, ended, rfl⟩
  simp only [Sock.returned, Action.ofCall, ended, Option.elim_some, receipt]
  simp only [Sock.recv, Option.bind_eq_some_iff] at ended
  rcases ended with ⟨⟨result, middle⟩, received, ended⟩
  rcases Sock.recvToken_receives chunked intact fits nodup served.1 received with
    ⟨rfl, token, receives⟩ | ⟨error, rfl, carries⟩
  · simp only [Option.map_eq_some_iff, Prod.mk.injEq] at ended
    rcases ended with ⟨pool, consumed, rfl, rfl⟩
    refine ⟨middle.packetOf token, ?_⟩
    simp only [received, receives.tokens, List.getLast?_concat]
    exact Pool.view_recv receives.tokens receives.payloads receives.held consumed trace.received
      trace.tx.sent env
  · simp only [Option.some.injEq, Prod.mk.injEq] at ended
    rcases ended with ⟨rfl, rfl⟩
    simp only [received]
    exact ⟨[], carries.view trace.received trace.tx.sent⟩

theorem send_view {packet : List UInt8} {env : Surroundings} (chunked : flags.Chunked)
    (fits : flags.Fits) (faithful : trace.Faithful flags)
    (served : trace.tx.Served flags (.ofCall (.send packet env)))
    (stepped : trace.step (.ofCall (.send packet env)) = some next) :
    next.view = trace.view.after [] (.send packet env)
      (trace.tx.sock.returned (.ofCall (.send packet env))) := by
  rcases faithful.tx.exclusive with ⟨intact, nodup⟩
  simp only [step, TxTrace.step, Action.ofCall, Option.map_map, Option.map_eq_some_iff,
    Function.comp_apply] at stepped
  rcases stepped with ⟨⟨result, sock⟩, sent, rfl⟩
  simp only [Sock.returned, Action.ofCall, sent, Option.elim_some, receipt]
  have carries := Sock.send_carries chunked intact fits nodup served.2 sent
  cases result with
  | ok =>
      have view := carries.view trace.received (trace.tx.sent ++ [packet])
      exact view
  | error error => exact carries.view trace.received trace.tx.sent

theorem pool_view {action : PoolAction}
    (stepped : trace.step (.pool action) = some next) (env : Site → Surroundings) :
    next.view = trace.view.after [] (action.call env) (.ok ()) := by
  simp only [step, TxTrace.step, Sock.step, Option.map_map, Option.map_eq_some_iff] at stepped
  rcases stepped with ⟨⟨pool, discards⟩, moved, rfl⟩
  exact Pool.step_view trace.tx.sock.packetOf trace.received trace.tx.sent env moved

theorem call_view (chunked : flags.Chunked) (fits : flags.Fits) (faithful : trace.Faithful flags)
    (served : trace.tx.Served flags (.ofCall call))
    (stepped : trace.step (.ofCall call) = some next) :
    (trace.tx.sock.returned (.ofCall call) = .ok () ∨ call.Fallible) ∧
      ∃ packet, next.view =
        trace.view.after packet call (trace.tx.sock.returned (.ofCall call)) := by
  cases call with
  | recvToken env => exact ⟨Or.inr trivial, receive_view chunked fits faithful served stepped⟩
  | recv env => exact ⟨Or.inr trivial, recv_view chunked fits faithful served stepped⟩
  | consume token ctx =>
      exact ⟨Or.inl rfl, [], pool_view stepped fun _ => .quiet⟩
  | intoToken payload =>
      exact ⟨Or.inl rfl, [], pool_view stepped fun _ => .quiet⟩
  | dropPayload payload env => exact ⟨Or.inl rfl, [], pool_view stepped fun _ => env⟩
  | cloneCtx ctx =>
      exact ⟨Or.inl rfl, [], pool_view stepped fun _ => .quiet⟩
  | dropCtx ctx env => exact ⟨Or.inl rfl, [], pool_view stepped fun _ => env⟩
  | send packet env => exact ⟨Or.inr trivial, [], send_view chunked fits faithful served stepped⟩
  | flush env =>
      rcases faithful.tx.exclusive with ⟨intact, nodup⟩
      simp only [step, TxTrace.step, Action.ofCall, Sock.step, Option.map_map,
        Option.map_eq_some_iff, Function.comp_apply] at stepped
      rcases stepped with ⟨sock, flushed, rfl⟩
      have carries := Sock.flush_carries chunked intact nodup flushed
      exact ⟨Or.inl rfl, [], carries.view trace.received trace.tx.sent⟩
  | writePayload position bytes =>
      rcases faithful.tx.exclusive with ⟨intact, nodup⟩
      simp only [step, TxTrace.step, Action.ofCall, Sock.step, Option.map_map,
        Option.map_eq_some_iff, Function.comp_apply] at stepped
      rcases stepped with ⟨sock, written, rfl⟩
      have view := Sock.writePayload_view intact nodup written trace.received trace.tx.sent []
      exact ⟨Or.inl rfl, [], view⟩
  | surroundings env =>
      rcases faithful.tx.exclusive with ⟨intact, nodup⟩
      simp only [step, TxTrace.step, Action.ofCall, Sock.step, Option.map_map,
        Option.map_eq_some_iff, Function.comp_apply] at stepped
      rcases stepped with ⟨sock, moved, rfl⟩
      have carries := Sock.kernelStep_carries chunked intact nodup moved
      exact ⟨Or.inl rfl, [], carries.view trace.received trace.tx.sent⟩

end PacketTrace

theorem PacketTrace.start_view {flags : AfXdpFlags} {index : UInt32} {site : Site} {sock : Sock}
    (created : Sock.create flags index site = some sock) : (start sock).view = .empty := by
  rcases Sock.create_unreceived created with ⟨-, -, tokens, payloads, -⟩
  simp only [view, start, Pool.view, tokens, payloads, List.map_nil, View.empty]

/-- An AF_XDP socket whose frames consist of whole chunks keeps the promises of the trait. -/
theorem backend_refines {flags : AfXdpFlags} (chunked : flags.Chunked) (fits : flags.Fits) :
    backend.Refines PacketTrace.view (PacketTrace.Faithful flags)
      (fun trace call => trace.tx.Served flags (.ofCall call)) where
  tokens _ := rfl
  payloads _ := rfl
  step := by
    intro trace next call result faithful served called
    simp only [backend, Option.map_eq_some_iff, Prod.mk.injEq] at called
    rcases called with ⟨_, stepped, rfl, rfl⟩
    exact ⟨PacketTrace.step_faithful chunked fits faithful served stepped,
      PacketTrace.call_view chunked fits faithful served stepped⟩

/-! ## The forwarder -/

section Forward

open Nethuns.Examples

variable {flags : AfXdpFlags} {inIndex outIndex : UInt32} {inSite outSite : Site}
  {inSock outSock : Sock}

/-- The steps of the forwarder in which no refill runs out of free frames, and each send that
obtains a slot finds a free frame with room for its packet. -/
def ForwardServed (flags : AfXdpFlags) :
    Forwarder PacketTrace → ForwardAction Surroundings → Prop :=
  Forwarder.Serves backend fun trace call => trace.tx.Served flags (.ofCall call)

/-- In every run of the forwarder whose refills and sends are served, in any interleaving with the
kernel on both sides: the packets that the kernel delivered to the one socket are those sent through
the other one, in order and each of them once, then the one that is being sent, if any, and those
that wait to be received. The kernel of the other socket is given descriptors of these packets in
this order, and the frame of each descriptor that it has contains its packet. The totals count what
was received and sent. -/
theorem forwards_in_order {actions : List (ForwardAction Surroundings)}
    {final : Forwarder PacketTrace} (chunked : flags.Chunked) (fits : flags.Fits)
    (inCreated : Sock.create flags inIndex inSite = some inSock)
    (outCreated : Sock.create flags outIndex outSite = some outSock)
    (served : RunMeets (Forwarder.step backend) (ForwardServed flags)
      (.new (.start inSock) (.start outSock)) actions)
    (performed : run (Forwarder.step backend) (.new (.start inSock) (.start outSock))
      actions = some final) :
    final.inSocket.delivered = final.outSocket.tx.sent ++ final.current backend ++
        final.inSocket.tx.sock.waitingPackets ∧
      (final.outSocket.tx.sock.tx.exposed.map fun desc => desc.len.toNat) <+:
        final.outSocket.tx.sent.map List.length ∧
      (∀ entry ∈ final.outSocket.tx.sock.live, ∃ packet,
        final.inSocket.delivered[entry.2]? = some packet ∧ entry.1.len.toNat = packet.length ∧
          readBytes final.outSocket.tx.sock.mem entry.1.offset packet.length = packet) ∧
      final.totalRcv = .ofNat final.inSocket.received.length ∧
      final.totalFwd + final.uncounted = .ofNat final.outSocket.tx.sent.length := by
  have sound := Forwarder.run_sound (backend_refines chunked fits)
    (PacketTrace.start_faithful fits inCreated) (PacketTrace.start_faithful fits outCreated)
    (PacketTrace.start_view inCreated) (PacketTrace.start_view outCreated) served performed
  have input : final.inSocket.Faithful flags := sound.inGood
  have output : final.outSocket.Faithful flags := sound.outGood
  have stream : final.inSocket.received =
    final.outSocket.tx.sent ++ final.current backend := sound.stream
  have delivered : final.inSocket.delivered = final.outSocket.tx.sent ++
      final.current backend ++ final.inSocket.tx.sock.waitingPackets := by
    rw [input.stream, stream]
  refine ⟨delivered, ?_, ?_, sound.totalRcv, sound.totalFwd⟩
  · rw [← output.tx.lengths, TxRing.issued, List.map_append]
    exact List.prefix_append _ _
  · intro entry live
    rcases output.tx.delivers entry live with ⟨numbered, packet, sent, -, read⟩
    refine ⟨packet, ?_, ?_, read⟩
    · rcases List.getElem?_eq_some_iff.mp sent with ⟨bound, _⟩
      rw [delivered, List.append_assoc, List.getElem?_append_left bound, sent]
    · have lengths := congrArg (fun list => list[entry.2]?) output.tx.lengths
      simpa only [List.getElem?_map, numbered, sent, Option.map_some, Option.some.injEq]
        using lengths

/-- The first send of a new socket finds a whole free frame. -/
theorem Sock.Fresh.sendsFit {sock : Sock} {tx : TxRing} {addr cell : ℕ} {packet : List UInt8}
    {site : Site} (fresh : sock.Fresh flags)
    (asked : sock.nextSlot [] = some (some cell, { sock with tx := tx }))
    (popped : sock.pool.channel.pop.1 = some addr)
    (short : packet.length ≤ flags.frameSize.toNat) :
    SendsFit flags sock (.send packet site .idle) := by
  intro cell middle obtained
  have slotted : sock.obtainSlot site .idle = _ := Sock.obtainSlot_of_nextSlot asked
  rw [slotted, Option.some.injEq, Prod.mk.injEq] at obtained
  rw [← obtained.2]
  refine ⟨addr, popped, ?_⟩
  have held := (Sock.popped_lt fresh.intact popped).1
  have aligned := fresh.aligned addr (Multiset.mem_add.mpr (Or.inl held))
  rw [AfXdpFlags.Inside, aligned]
  omega

/-- The kernel delivers a packet to the one socket, which is forwarded at once. -/
def firstForwarded (addr : UInt64) : List (ForwardAction Surroundings) :=
  [.input .quiet,
    .input { Surroundings.quiet with action := .receive addr ⟨addr, 3, 0⟩ [1, 2, 3] },
    .go .quiet, .go .quiet]

theorem forwards_in_order_firstPacket :
    ∃ inSock outSock addr final, Sock.create largeFlags 0 ⟨0, 0⟩ = some inSock ∧
      Sock.create largeFlags 0 ⟨0, 0⟩ = some outSock ∧
      run (Forwarder.step backend) (.new (.start inSock) (.start outSock))
        (firstForwarded addr) = some final ∧
      final.inSocket.delivered = [[1, 2, 3]] ∧ final.outSocket.tx.sent = [[1, 2, 3]] := by
  rcases largeFlags_recv with ⟨inSock, addr, middle, ready, next, inCreated, taken, delivered,
    advanced, pool, tokens, payloads, token, received⟩
  rcases create_largeFlags with ⟨outSock, outCreated, some_free⟩
  have fresh := Sock.create_fresh outCreated (by decide)
  rcases fresh.send (by decide) ⟨0, 0⟩ (readBytes ready.mem addr.toNat 3) (by decide)
    some_free with ⟨tx, free, -, popped, asked, sent⟩
  have performed : ∃ final packet,
      run (Forwarder.step backend) (.new (.start inSock) (.start outSock))
          (firstForwarded addr) = some final ∧
        final.inSocket.delivered = [[1, 2, 3]] ∧ final.outSocket.tx.sent = [packet] := by
    simp [firstForwarded, run, Forwarder.step, Forwarder.new, Forwarder.go, backend, Action.ofCall,
      Surroundings.quiet, Sock.returned, PacketTrace.step, TxTrace.step, Sock.step,
      PacketTrace.start, taken, delivered, received, token, receipt, edited, kernelSteps, pool,
      payloads, Sock.recvInner, Pool.give, tokens, deliveries, Sock.recvSteps, advanced,
      Sock.packetOf, sent]
  have served : RunMeets (Forwarder.step backend) (ForwardServed largeFlags)
      (.new (.start inSock) (.start outSock)) (firstForwarded addr) := by
    refine ⟨⟨trivial, trivial⟩, fun first stepped => ⟨⟨trivial, trivial⟩, fun second stepped' =>
      ⟨?_, fun third stepped'' => ⟨?_, fun _ _ => trivial⟩⟩⟩⟩
    all_goals
      simp only [Forwarder.step, Forwarder.new, backend, Action.ofCall, Surroundings.quiet,
        PacketTrace.step, TxTrace.step, Sock.step, PacketTrace.start, taken, Option.map_some,
        Option.some.injEq, receipt] at stepped
      subst first
      simp only [Forwarder.step, backend, Action.ofCall, Surroundings.quiet, PacketTrace.step,
        TxTrace.step, Sock.step, delivered, Option.map_some, Option.some.injEq, receipt] at stepped'
      subst second
    · intro _
      exact ⟨recvServed_of_waiting advanced, trivial⟩
    · simp [Forwarder.step, Forwarder.go, backend, Action.ofCall, Surroundings.quiet,
        PacketTrace.step, TxTrace.step, Sock.step, received, Sock.returned, receipt, token,
        Sock.recvInner, Pool.give] at stepped''
      subst third
      intro packet present
      simp only [backend, pool, payloads, List.nil_append, List.map_cons, List.getElem?_cons_zero,
        Option.some.injEq, Sock.packetOf] at present
      rw [← present]
      refine ⟨trivial, fresh.sendsFit asked popped ?_⟩
      simp [readBytes, largeFlags]
  rcases performed with ⟨final, packet, performed, all, one⟩
  rcases forwards_in_order (by decide) (by decide) inCreated outCreated served performed with
    ⟨stream, -⟩
  refine ⟨inSock, outSock, addr, final, inCreated, outCreated, performed, all, ?_⟩
  simp only [all, one, List.cons_append, List.cons.injEq] at stream
  rw [one, stream.1]

/-! ## The forwarder with two threads -/

/-- The steps of the forwarder with two threads in which no refill runs out of free frames, and
each send that obtains a slot finds a free frame with room for its packet. -/
def ForwardMtServed (flags : AfXdpFlags) :
    ForwarderMt PacketTrace → ForwardMtAction Surroundings → Prop :=
  ForwarderMt.Serves backend fun trace call => trace.tx.Served flags (.ofCall call)

/-- In every run of the forwarder with two threads whose refills and sends are served, in any
interleaving of the threads and of the kernel on both sides: the packets that the kernel delivered
are those taken from the ring, then those behind the tokens of the program, and those that wait to
be received, in order and each of them once. Those whose send succeeded are given to the kernel of
the other socket in this order; those whose send failed are lost. -/
theorem forwardMt_in_order {ringSize : ℕ} {actions : List (ForwardMtAction Surroundings)}
    {state final : ForwarderMt PacketTrace} (chunked : flags.Chunked) (fits : flags.Fits)
    (inCreated : Sock.create flags inIndex inSite = some inSock)
    (outCreated : Sock.create flags outIndex outSite = some outSock)
    (created : ForwarderMt.new backend (.start inSock) (.start outSock) ringSize = some state)
    (served : RunMeets (ForwarderMt.step backend) (ForwardMtServed flags) state actions)
    (performed : run (ForwarderMt.step backend) state actions = some final) :
    final.inSocket.delivered = final.outcomes.map Prod.fst ++ final.current backend ++
        backend.tokens final.inSocket ++ final.inSocket.tx.sock.waitingPackets ∧
      (backend.tokens final.inSocket).length =
        final.poppedTokens.length + final.ring.length + final.pushedTokens.length ∧
      final.ring.length ≤ final.ringSize ∧
      final.outSocket.tx.sent = final.succeeded ∧
      (final.outSocket.tx.sock.tx.exposed.map fun desc => desc.len.toNat) <+:
        final.succeeded.map List.length ∧
      ∀ entry ∈ final.outSocket.tx.sock.live, ∃ packet,
        final.succeeded[entry.2]? = some packet ∧
          readBytes final.outSocket.tx.sock.mem entry.1.offset packet.length = packet := by
  have sound := ForwarderMt.run_sound (backend_refines chunked fits)
    (PacketTrace.start_faithful fits inCreated) (PacketTrace.start_faithful fits outCreated)
    (PacketTrace.start_view inCreated) (PacketTrace.start_view outCreated) ⟨trivial, trivial⟩
    created served performed
  have input : final.inSocket.Faithful flags := sound.inGood
  have output : final.outSocket.Faithful flags := sound.outGood
  have stream : final.inSocket.received = final.outcomes.map Prod.fst ++
    final.current backend ++ backend.tokens final.inSocket := sound.stream
  have sent : final.outSocket.tx.sent = final.succeeded := sound.sent
  have tokens : (backend.tokens final.inSocket).length = final.live.length := sound.tokens
  refine ⟨?_, ?_, sound.bounded, sent, ?_, ?_⟩
  · rw [input.stream, stream]
  · rw [tokens, sound.live, List.length_append, List.length_append]
  · rw [← sent, ← output.tx.lengths, TxRing.issued, List.map_append]
    exact List.prefix_append _ _
  · intro entry live
    rcases output.tx.delivers entry live with ⟨-, packet, present, -, read⟩
    exact ⟨packet, sent ▸ present, read⟩

/-- The kernel delivers a packet, whose token is pushed to the ring. -/
def firstToken (addr : UInt64) : List (ForwardMtAction Surroundings) :=
  [.input .quiet,
    .input { Surroundings.quiet with action := .receive addr ⟨addr, 3, 0⟩ [1, 2, 3] },
    .producer .quiet, .producer .quiet]

theorem Sock.kernelStep_pool (sock : Sock) (pool : Pool) (action : KernelAction) :
    Sock.kernelStep { sock with pool := pool } action =
      (sock.kernelStep action).map fun next => { next with pool := pool } := by
  cases action with
  | takeFill => simp [kernelStep, Function.comp_def]
  | receive addr desc packet =>
      simp only [kernelStep]
      split
      · simp [Function.comp_def]
      · rfl
  | takeTx => simp [kernelStep, Function.comp_def]
  | complete position => simp [kernelStep, Function.comp_def, Option.map_bind]

theorem forwardMt_in_order_firstToken :
    ∃ inSock outSock addr state final, Sock.create largeFlags 0 ⟨0, 0⟩ = some inSock ∧
      Sock.create largeFlags 0 ⟨0, 0⟩ = some outSock ∧
      ForwarderMt.new backend (.start inSock) (.start outSock) 1 = some state ∧
      run (ForwarderMt.step backend) state (firstToken addr) = some final ∧
      final.inSocket.delivered = [[1, 2, 3]] ∧ final.ring = [0] ∧
      backend.tokens final.inSocket = [[1, 2, 3]] := by
  rcases largeFlags_recv with ⟨inSock, addr, middle, ready, next, inCreated, taken, delivered,
    advanced, pool, tokens, payloads, -⟩
  rcases create_largeFlags with ⟨outSock, outCreated, -⟩
  rcases (Sock.create_fresh inCreated (by decide)).intact.sane.live with ⟨batch, live⟩
  have created : ∃ clone state,
      ForwarderMt.new backend (.start inSock) (.start outSock) 1 = some state ∧
        state = ⟨.start { inSock with pool := clone }, .start outSock, [], 1, [], 0, [],
          .receiving, .polling, false⟩ ∧ clone.tokens = [] ∧ clone.payloads = [] := by
    simp [ForwarderMt.new, backend, PacketTrace.step, TxTrace.step, Action.ofCall,
      Sock.step, Pool.step, Pool.cloneCtx, Channel.clone, PacketTrace.start,
      live, receipt, edited, kernelSteps, deliveries, tokens, payloads]
  rcases created with ⟨clone, state, created, rfl, noTokens, noPayloads⟩
  have taken' := Sock.kernelStep_pool inSock clone .takeFill
  have delivered' := Sock.kernelStep_pool middle clone
    (.receive addr ⟨addr, 3, 0⟩ [1, 2, 3])
  rw [taken, Option.map_some] at taken'
  rw [delivered, Option.map_some] at delivered'
  have received : Sock.recvToken { ready with pool := clone } [] [] = _ :=
    Sock.recvToken_of_waiting advanced
  have performed : ∃ final,
      run (ForwarderMt.step backend)
          ⟨.start { inSock with pool := clone }, .start outSock, [], 1, [], 0, [], .receiving,
            .polling, false⟩ (firstToken addr) = some final ∧
        final.inSocket.delivered = [[1, 2, 3]] ∧ final.ring = [0] ∧ final.outcomes = [] ∧
        final.consumer = .polling ∧
        ∃ packet, backend.tokens final.inSocket = [packet] := by
    simp [firstToken, run, ForwarderMt.step, ForwarderMt.producerStep, backend, Action.ofCall,
      Surroundings.quiet, Sock.returned, PacketTrace.step, TxTrace.step, Sock.step,
      PacketTrace.start, taken', delivered', received, receipt, edited, kernelSteps, noTokens,
      Sock.recvInner, Pool.give, deliveries, Sock.recvSteps, advanced]
  rcases performed with ⟨final, performed, all, ring, outcomes, pc, packet, one⟩
  have served : RunMeets (ForwarderMt.step backend) (ForwardMtServed largeFlags)
      ⟨.start { inSock with pool := clone }, .start outSock, [], 1, [], 0, [], .receiving,
        .polling, false⟩ (firstToken addr) := by
    refine ⟨⟨trivial, trivial⟩, fun first stepped => ⟨⟨trivial, trivial⟩, fun second stepped' =>
      ⟨?_, fun third stepped'' => ⟨?_, fun _ _ => trivial⟩⟩⟩⟩
    all_goals
      simp only [ForwarderMt.step, backend, Action.ofCall, Surroundings.quiet, PacketTrace.step,
        TxTrace.step, Sock.step, PacketTrace.start, taken', Option.map_some, Option.some.injEq,
        receipt] at stepped
      subst first
      simp only [ForwarderMt.step, backend, Action.ofCall, Surroundings.quiet, PacketTrace.step,
        TxTrace.step, Sock.step, delivered', Option.map_some, Option.some.injEq,
        receipt] at stepped'
      subst second
    · intro _ _
      exact ⟨recvServed_of_waiting advanced, trivial⟩
    · simp [ForwarderMt.step, ForwarderMt.producerStep, backend, Action.ofCall, Surroundings.quiet,
        PacketTrace.step, TxTrace.step, Sock.step, received, Sock.returned] at stepped''
      subst third
      intro pushing
      cases pushing
  rcases forwardMt_in_order (by decide) (by decide) inCreated outCreated created served
    performed with ⟨stream, -⟩
  refine ⟨inSock, outSock, addr, _, final, inCreated, outCreated, created, performed, all, ring,
    ?_⟩
  simp only [all, one, outcomes, ForwarderMt.current, pc, List.map_nil, List.nil_append,
    List.singleton_append, List.cons.injEq] at stream
  rw [one, stream.1]

end Forward

end Nethuns.AfXdp
