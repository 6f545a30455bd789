import Nethuns.AfXdp.Ownership

/-!
# The stream of packets sent through an AF_XDP socket

The descriptors exposed to the kernel should be those of the packets that were sent successfully,
in order, and their frames should contain these packets until the kernel is done with them. A
send that obtains a slot and finds no free frame breaks this: it fails, and its slot is exposed
with the descriptor that it had before. So does a packet that fits a frame but not the rest of
the frame it is written to, which begins where a received packet began. This file shows that the
stream is faithful in the runs without such sends, without a refill that runs out of frames, and
with a kernel that leaves received packets in the frames that it took for them.
-/

namespace Nethuns.AfXdp

open Nethuns.Lib Nethuns.Mpsc Nethuns.Api

/-- A socket with the packets that were sent successfully so far. -/
structure TxTrace where
  sock : Sock
  sent : List (List UInt8)

/-- A send that obtains a slot of the transmit ring finds a free frame, and the packet fits the
rest of it. -/
def SendsFit (flags : AfXdpFlags) (sock : Sock) : Action → Prop
  | .send packet site kernel => ∀ cell middle,
      sock.obtainSlot site kernel = some (some cell, middle) →
        ∃ addr, middle.pool.channel.pop.1 = some addr ∧ flags.Inside addr packet.length
  | _ => True

namespace TxTrace

/-- One step of the socket. -/
def step (trace : TxTrace) : Action → Option TxTrace
  | .send packet site kernel =>
      (trace.sock.send packet site kernel).map fun (result, sock) =>
        match result with
        | .ok () => ⟨sock, trace.sent ++ [packet]⟩
        | .error _ => ⟨sock, trace.sent⟩
  | action => (trace.sock.step action).map fun sock => { trace with sock := sock }

def Served (flags : AfXdpFlags) (trace : TxTrace) (action : Action) : Prop :=
  RefillsServed trace.sock action ∧ SendsFit flags trace.sock action

/-- The slots handed out so far are those of the packets sent so far, and the packets that the
kernel is not done with are in their frames. -/
structure Faithful (flags : AfXdpFlags) (trace : TxTrace) : Prop where
  exclusive : Exclusive flags trace.sock
  lengths : trace.sock.tx.issued.map (fun desc => desc.len.toNat) = trace.sent.map List.length
  delivers : trace.sock.Delivers flags trace.sent

variable {flags : AfXdpFlags} {trace next : TxTrace} {action : Action}

theorem Faithful.of_moves {sock : Sock} {lost : Multiset ℕ} (faithful : trace.Faithful flags)
    (moves : Sock.Moves flags True trace.sock sock lost) :
    TxTrace.Faithful flags { trace with sock := sock } := by
  rcases faithful with ⟨⟨intact, nodup⟩, lengths, delivers⟩
  refine ⟨⟨moves.intact, moves.nodup nodup⟩, ?_, moves.delivers trivial nodup _ delivers⟩
  rw [moves.issued]
  exact lengths

theorem send_faithful {packet : List UInt8} {site : Site} {kernel : Interleaving} {sock : Sock}
    {result : Except Error Unit} (fits : flags.Fits) (faithful : trace.Faithful flags)
    (returns : kernel.Returns flags True)
    (served : SendsFit flags trace.sock (.send packet site kernel))
    (sent : trace.sock.send packet site kernel = some (result, sock)) :
    (result = .ok () → TxTrace.Faithful flags ⟨sock, trace.sent ++ [packet]⟩) ∧
      (result ≠ .ok () → TxTrace.Faithful flags ⟨sock, trace.sent⟩) := by
  rcases Sock.send_cases faithful.exclusive.1 returns sent with
    ⟨prior, lost, moves, -, ⟨-, rfl, rfl⟩ | ⟨cell, tx, handsOut, obtained, inner⟩⟩
  · exact ⟨by simp, fun _ => faithful.of_moves moves⟩
  · rcases served cell { prior with tx := tx } obtained with ⟨addr, popped, inside⟩
    rcases Sock.written_spec moves.intact fits handsOut popped with
      ⟨succeeded, intact, addresses, -⟩
    rw [succeeded, Prod.mk.injEq] at inner
    rcases inner with ⟨rfl, rfl⟩
    rcases faithful.of_moves moves with ⟨⟨-, nodup⟩, lengths, delivers⟩
    refine ⟨fun _ => ⟨⟨intact, ?_⟩, ?_, ?_⟩, fun failed => absurd rfl failed⟩
    · rw [Sock.frames, addresses]
      exact nodup
    · have issued : (prior.written tx cell addr packet).tx.issued = _ :=
        (handsOut.write (Sock.writtenDesc tx cell addr packet)).2.2
      simp only [issued, List.map_append, lengths, List.map_cons, List.map_nil]
      simp [Sock.writtenDesc, inside.toNat_ofNat]
    · have length := congrArg List.length lengths
      simp only [List.length_map] at length
      exact Sock.written_delivers moves.intact fits handsOut popped inside nodup length.symm
        delivers

theorem step_of_notSend (notSend : ∀ packet site kernel, action ≠ .send packet site kernel) :
    trace.step action =
      (trace.sock.step action).map fun sock => { trace with sock := sock } := by
  cases action with
  | send packet site kernel => exact absurd rfl (notSend packet site kernel)
  | _ => rfl

theorem step_faithful (fits : flags.Fits) (faithful : trace.Faithful flags)
    (returns : action.Returns flags True) (served : trace.Served flags action)
    (stepped : trace.step action = some next) : next.Faithful flags := by
  by_cases sends : ∃ packet site kernel, action = .send packet site kernel
  · rcases sends with ⟨packet, site, kernel, rfl⟩
    simp only [step, Option.map_eq_some_iff] at stepped
    rcases stepped with ⟨⟨result, sock⟩, sent, rfl⟩
    rcases send_faithful fits faithful returns served.2 sent with ⟨succeeds, fails⟩
    cases result with
    | ok => exact succeeds rfl
    | error error => exact fails (by simp)
  · push Not at sends
    rw [step_of_notSend sends, Option.map_eq_some_iff] at stepped
    rcases stepped with ⟨sock, stepped, rfl⟩
    rcases step_moves faithful.exclusive.1 fits returns served.1 sends stepped with ⟨lost, moves, -⟩
    exact faithful.of_moves moves

end TxTrace

variable {flags : AfXdpFlags} {index : UInt32} {site : Site} {sock : Sock}

theorem Sock.Fresh.faithful (fresh : sock.Fresh flags) : TxTrace.Faithful flags ⟨sock, []⟩ := by
  have issued : sock.tx.issued = [] := by
    rw [fresh.tx]
    rfl
  have live : sock.live = [] := by
    simp [Sock.live, fresh.kernelTx, fresh.tx, TxRing.descs, XskRing.span, XskRing.used,
      Sock.newRing]
  refine ⟨fresh.exclusive, by simp [issued], ?_⟩
  intro entry entry_live
  simp [live] at entry_live

/-- In every run of a socket, in any interleaving with the kernel and with the users: as long as
each send that obtains a slot finds a free frame with room for its packet, no refill runs out of
free frames, and the packets that the kernel receives stay in the frames that it took for them, the
descriptors exposed to the kernel are those of the packets that were sent successfully, in order; no
other descriptor is ever handed out; and the frame of each descriptor that the kernel has or will
have contains its packet. -/
theorem tx_stream_faithful {final : TxTrace} {actions : List Action} (fits : flags.Fits)
    (created : Sock.create flags index site = some sock)
    (returns : ∀ action ∈ actions, action.Returns flags True)
    (served : RunMeets TxTrace.step (TxTrace.Served flags) ⟨sock, []⟩ actions)
    (performed : run TxTrace.step ⟨sock, []⟩ actions = some final) :
    (final.sock.tx.exposed.map fun desc => desc.len.toNat) <+: final.sent.map List.length ∧
      final.sock.tx.issued.length = final.sent.length ∧
      ∀ entry ∈ final.sock.live, final.sock.tx.issued[entry.2]? = some entry.1 ∧
        ∃ packet, final.sent[entry.2]? = some packet ∧
          readBytes final.sock.mem entry.1.offset packet.length = packet := by
  have faithful : final.Faithful flags :=
    run_invariant (TxTrace.Faithful flags)
      (fun faithful condition => TxTrace.step_faithful fits faithful condition.2 condition.1)
      (Sock.create_fresh created fits).faithful
      (served.and (runMeets_of_forall fun action member _ => returns action member)) performed
  refine ⟨?_, ?_, ?_⟩
  · rw [← faithful.lengths, TxRing.issued, List.map_append]
    exact List.prefix_append _ _
  · have length := congrArg List.length faithful.lengths
    simpa only [List.length_map] using length
  · intro entry entry_live
    rcases faithful.delivers entry entry_live with ⟨numbered, packet, sent_eq, -, read⟩
    exact ⟨numbered, packet, sent_eq, read⟩

theorem Sock.flush_idle (sock : Sock) (site : Site)
    (cq : sock.cq = newRing 2048 0 0) :
    sock.flush site .idle = some { sock with tx := sock.tx.sync } := by
  have peeked : (newRing 2048 0 (0 : UInt64)).consPeek 64 0 = (0, 0, newRing 2048 0 0) := rfl
  simp [Sock.flush, Sock.kernelRun, Interleaving.idle, Sock.completeTx, cq, peeked]

theorem tx_stream_faithful_oneSend :
    ∃ sock final, Sock.create largeFlags 0 ⟨0, 0⟩ = some sock ∧
      run TxTrace.step ⟨sock, []⟩
        [.send [1, 2, 3] ⟨0, 0⟩ .idle, .flush ⟨0, 0⟩ .idle] = some final ∧
      final.sock.tx.exposed.length = 1 ∧ final.sent = [[1, 2, 3]] ∧
      (final.sock.tx.exposed.map fun desc => desc.len.toNat) <+: [3] := by
  rcases create_largeFlags with ⟨sock, created, some_free⟩
  have fresh := Sock.create_fresh created (by decide)
  rcases fresh.send (by decide) ⟨0, 0⟩ [1, 2, 3] (by decide) some_free with
    ⟨tx, addr, handsOut, popped, asked, sent⟩
  have chunked : largeFlags.Chunked := by decide
  have flushed := Sock.flush_idle (sock.written tx 0 addr [1, 2, 3]) ⟨0, 0⟩ fresh.cq
  have performed : run TxTrace.step ⟨sock, []⟩
      [.send [1, 2, 3] ⟨0, 0⟩ .idle, .flush ⟨0, 0⟩ .idle] =
      some ⟨{ sock.written tx 0 addr [1, 2, 3] with
        tx := (sock.written tx 0 addr [1, 2, 3]).tx.sync }, [[1, 2, 3]]⟩ := by
    simp [run, TxTrace.step, sent, Sock.step, flushed]
  have fit : SendsFit largeFlags sock (.send [1, 2, 3] ⟨0, 0⟩ .idle) := by
    intro cell middle obtained
    have slotted : sock.obtainSlot ⟨0, 0⟩ .idle = _ := Sock.obtainSlot_of_nextSlot asked
    rw [slotted, Option.some.injEq, Prod.mk.injEq] at obtained
    rw [← obtained.2]
    refine ⟨addr, popped, ?_⟩
    have held := (Sock.popped_lt fresh.intact popped).1
    have aligned := fresh.aligned addr (Multiset.mem_add.mpr (Or.inl held))
    rw [AfXdpFlags.Inside, aligned]
    decide
  have served : RunMeets TxTrace.step (TxTrace.Served largeFlags) ⟨sock, []⟩
      [.send [1, 2, 3] ⟨0, 0⟩ .idle, .flush ⟨0, 0⟩ .idle] :=
    ⟨⟨trivial, fit⟩, fun _ _ => ⟨⟨trivial, trivial⟩, fun _ _ => trivial⟩⟩
  refine ⟨sock, _, created, performed, ?_, rfl,
    (tx_stream_faithful (by decide) created (fun action _ => chunked.returns action) served
      performed).1⟩
  have issued : (sock.written tx 0 addr [1, 2, 3]).tx.issued = _ :=
    (handsOut.write (Sock.writtenDesc tx 0 addr [1, 2, 3])).2.2
  have counted : (sock.written tx 0 addr [1, 2, 3]).tx.toFlush.toNat ≠ 0 := handsOut.counted
  have before : sock.tx.issued = [] := by
    rw [fresh.tx]
    rfl
  simp only [TxRing.sync_exposed counted, issued, before]
  rfl

/-- With exactly as many frames as the fill ring has entries, the first send fails; the next flush
exposes a descriptor although no packet was sent. -/
theorem failedSend_exposed :
    ∃ sock final, Sock.create smallFlags 0 ⟨0, 0⟩ = some sock ∧
      run TxTrace.step ⟨sock, []⟩
        [.send [1, 2, 3] ⟨0, 0⟩ .idle, .flush ⟨0, 0⟩ .idle] = some final ∧
      final.sent = [] ∧ final.sock.tx.exposed = [⟨0, 0, 0⟩] := by
  rcases create_smallFlags with ⟨sock, created, empty⟩
  have fresh := Sock.create_fresh created (by decide)
  rcases fresh.nextSlot (by decide) with ⟨tx, handsOut, asked⟩
  rcases Sock.sendInner_of_empty [1, 2, 3] fresh.intact handsOut empty with ⟨pool, failed, -⟩
  have sent : sock.send [1, 2, 3] ⟨0, 0⟩ .idle =
      some (.error (.generic "No free frames for TX"), { sock with tx := tx, pool := pool }) := by
    simp [Sock.send, Sock.obtainSlot, Interleaving.idle, asked, failed]
  have flushed : Sock.flush { sock with tx := tx, pool := pool } ⟨0, 0⟩ .idle =
      some { sock with tx := tx.sync, pool := pool } :=
    Sock.flush_idle { sock with tx := tx, pool := pool } ⟨0, 0⟩ fresh.cq
  refine ⟨sock, ⟨{ sock with tx := tx.sync, pool := pool }, []⟩, created, ?_, rfl, ?_⟩
  · simp [run, TxTrace.step, sent, Sock.step, flushed]
  · have issued := handsOut.stale.2
    rw [handsOut.ring_eq, fresh.tx] at issued
    rw [TxRing.sync_exposed handsOut.counted, issued]
    rfl

end Nethuns.AfXdp
