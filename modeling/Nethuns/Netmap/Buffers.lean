import Nethuns.Lib.Run
import Nethuns.Netmap.Sock

/-!
# Where the buffers of a netmap port are

The buffers named by the slots of the rings, and those in the hands of the users or in the free
channel. The transmitter never exchanges the buffer of a slot. A receive exchanges one, so the
receive slots and the pool together keep their buffers. Everything here rests on one assumption
about the kernel, that its `ioctl` calls do not change the buffer of a slot, and for the flags
of the receive slots on another, that `NIOCTXSYNC` does not touch them.
-/

namespace Nethuns.Netmap

open Nethuns.Lib Nethuns.Mpsc Nethuns.Api

/-- The kernel does not change the buffers of the slots. -/
def Ioctl.KeepsBufs (ioctl : Ioctl) : Prop :=
  ∀ kernel, ioctl = some kernel → ∀ rings pointer,
    (kernel rings pointer).slots.map Slot.bufIdx = (rings pointer).slots.map Slot.bufIdx

/-- The kernel does not touch the slots of the rings from the given pointer on. -/
def Ioctl.LeavesFrom (ioctl : Ioctl) (base : ℕ) : Prop :=
  ∀ kernel, ioctl = some kernel → ∀ rings pointer, base ≤ pointer →
    (kernel rings pointer).slots = (rings pointer).slots

namespace Port

/-- The pointer of the first receive ring. -/
def rxBase (port : Port) : ℕ := port.niTxRings + port.niHostTxRings

/-- The buffers of the slots of a ring. -/
def ringBufs (port : Port) (pointer : ℕ) : List ℕ :=
  (port.rings pointer).slots.map fun slot => slot.bufIdx.toNat

/-- The buffers in the transmit slots. -/
def txBufs (port : Port) : Multiset ℕ := ↑((List.range port.rxBase).flatMap port.ringBufs)

/-- The pointers of the receive rings. -/
def rxPointers (port : Port) : List ℕ :=
  List.range' port.rxBase (port.niRxRings + port.niHostRxRings)

/-- The buffers in the receive slots. -/
def rxBufs (port : Port) : Multiset ℕ := ↑(port.rxPointers.flatMap port.ringBufs)

/-- The ports differ in their rings and bytes only, and no slot has another buffer. -/
structure Keeps (before after : Port) : Prop where
  shape : ∃ rings bufs, after = { before with rings := rings, bufs := bufs }
  ringBufs : ∀ pointer, after.ringBufs pointer = before.ringBufs pointer

/-- The slots of the receive rings are the same. -/
def SameRx (before after : Port) : Prop :=
  ∀ pointer, before.rxBase ≤ pointer → (after.rings pointer).slots = (before.rings pointer).slots

variable {port before middle after : Port}

theorem Keeps.refl (port : Port) : port.Keeps port := ⟨⟨port.rings, port.bufs, rfl⟩, fun _ => rfl⟩

theorem Keeps.trans (first : before.Keeps middle) (second : middle.Keeps after) :
    before.Keeps after := by
  rcases first with ⟨⟨rings, bufs, rfl⟩, same⟩
  rcases second with ⟨⟨rings', bufs', rfl⟩, same'⟩
  refine ⟨⟨rings', bufs', rfl⟩, ?_⟩
  intro pointer
  rw [same' pointer, same pointer]

theorem Keeps.rxBase (keeps : before.Keeps after) : after.rxBase = before.rxBase := by
  rcases keeps.shape with ⟨rings, bufs, rfl⟩
  rfl

theorem Keeps.txBufs (keeps : before.Keeps after) : after.txBufs = before.txBufs := by
  have same : after.ringBufs = before.ringBufs := funext keeps.ringBufs
  simp only [Port.txBufs, keeps.rxBase, same]

theorem Keeps.rxBufs (keeps : before.Keeps after) : after.rxBufs = before.rxBufs := by
  have same : after.ringBufs = before.ringBufs := funext keeps.ringBufs
  have pointers : after.rxPointers = before.rxPointers := by
    rcases keeps.shape with ⟨rings, bufs, rfl⟩
    rfl
  simp only [Port.rxBufs, pointers, same]

theorem SameRx.refl (port : Port) : port.SameRx port := fun _ _ => rfl

theorem SameRx.trans (keeps : before.Keeps middle) (first : before.SameRx middle)
    (second : middle.SameRx after) : before.SameRx after := by
  intro pointer receive
  rw [second pointer (keeps.rxBase ▸ receive), first pointer receive]

theorem setRing_keeps {pointer : ℕ} {ring : NetmapRing}
    (slots : ring.slots = (port.rings pointer).slots) :
    port.Keeps (port.setRing pointer ring) ∧ port.SameRx (port.setRing pointer ring) := by
  have same : ∀ other, ((port.setRing pointer ring).rings other).slots =
      (port.rings other).slots := by
    intro other
    by_cases here : other = pointer
    · subst other
      simp [setRing, slots]
    · simp [setRing, Function.update_of_ne here]
  refine ⟨⟨⟨_, port.bufs, rfl⟩, ?_⟩, fun other _ => same other⟩
  intro other
  simp only [Port.ringBufs, same other]

theorem sync_keeps {ioctl : Ioctl} (keepsBufs : ioctl.KeepsBufs)
    (done : port.sync ioctl = some after) : port.Keeps after := by
  rcases sync_eq_some done with ⟨kernel, answered, rfl⟩
  refine ⟨⟨_, port.bufs, rfl⟩, ?_⟩
  intro pointer
  have same := congrArg (List.map UInt32.toNat) (keepsBufs kernel answered port.rings pointer)
  simpa [Port.ringBufs, Function.comp_def] using same

theorem sync_sameRx {ioctl : Ioctl} (leaves : ioctl.LeavesFrom port.rxBase)
    (done : port.sync ioctl = some after) : port.SameRx after := by
  rcases sync_eq_some done with ⟨kernel, answered, rfl⟩
  exact fun pointer receive => leaves kernel answered port.rings pointer receive

end Port

theorem NetmapRing.next_slots {ring after : NetmapRing} {found : Option ℕ}
    (advanced : ring.next = (found, after)) : after.slots = ring.slots := by
  simp only [NetmapRing.next] at advanced
  split at advanced
  all_goals
    simp only [Prod.mk.injEq] at advanced
    rcases advanced with ⟨-, rfl⟩
    rfl

theorem Port.rawTxRingAt_eq_some {port : Port} {index pointer : ℕ}
    (present : port.rawTxRingAt index = some pointer) : pointer < port.niTxRings := by
  simp only [Port.rawTxRingAt] at present
  split at present
  · simp at present
  · simp only [Option.some.injEq] at present
    omega

theorem Port.rawRxRingAt_eq_some {port : Port} {index pointer : ℕ}
    (present : port.rawRxRingAt index = some pointer) :
    port.rxBase ≤ pointer ∧ pointer ∈ port.rxPointers := by
  simp only [Port.rawRxRingAt] at present
  split at present
  · simp at present
  · simp only [Option.some.injEq] at present
    simp only [Port.rxBase, Port.rxPointers, List.mem_range'_1]
    omega

/-! ## The transmitter -/

section Transmit

variable {tx : Transmitter} {port : Port}

/-- What a visit of the transmitter leaves: no other buffer in any slot, the receive slots as
they were, and a slot of a transmit ring if it found one. -/
def Visit.Quiet (visit : Visit) (port : Port) : Prop :=
  ∀ found tx after, visit.outcome = some (found, tx, after) →
    port.Keeps after ∧ port.SameRx after ∧
      ∀ buf : TxBuf, found = some buf → buf.pointer < port.niTxRings

theorem scan_quiet (tx : Transmitter) (port : Port) : (tx.scan port).Quiet port := by
  induction tx, port using Transmitter.scan.induct with
  | case1 tx port outside =>
      rw [Transmitter.scan, outside]
      rintro found tx' after ⟨⟩
      exact ⟨.refl port, .refl port, by simp⟩
  | case2 tx port pointer pointer_eq slot ring advanced =>
      rcases Port.setRing_keeps (NetmapRing.next_slots advanced) with ⟨keeps, sameRx⟩
      rw [Transmitter.scan, pointer_eq]
      simp only [advanced]
      rintro found tx' after ⟨⟩
      refine ⟨keeps, sameRx, ?_⟩
      rintro buf ⟨⟩
      exact Port.rawTxRingAt_eq_some pointer_eq
  | case3 tx port pointer pointer_eq ring advanced past =>
      rcases Port.setRing_keeps (NetmapRing.next_slots advanced) with ⟨keeps, sameRx⟩
      rw [Transmitter.scan, pointer_eq]
      simp only [advanced, if_pos past]
      rintro found tx' after ⟨⟩
      exact ⟨keeps, sameRx, by simp⟩
  | case4 tx port pointer pointer_eq ring advanced more ih =>
      rcases Port.setRing_keeps (NetmapRing.next_slots advanced) with ⟨keeps, sameRx⟩
      rw [Transmitter.scan, pointer_eq]
      simp only [advanced, if_neg more]
      intro found tx' after ends
      rcases ih found tx' after ends with ⟨keeps', sameRx', region⟩
      exact ⟨keeps.trans keeps', sameRx.trans keeps sameRx', region⟩

theorem Visit.Quiet.after {visit : Visit} {before : Port} (keeps : before.Keeps port)
    (sameRx : before.SameRx port) (quiet : visit.Quiet port) : visit.Quiet before := by
  intro found tx after ends
  rcases quiet found tx after ends with ⟨keeps', sameRx', region⟩
  refine ⟨keeps.trans keeps', sameRx.trans keeps sameRx', ?_⟩
  rcases keeps.shape with ⟨rings, bufs, rfl⟩
  exact region

theorem next_quiet {ioctl : Ioctl} (keepsBufs : ioctl.KeepsBufs)
    (leaves : ioctl.LeavesFrom port.rxBase) : (tx.next port ioctl).Quiet port := by
  simp only [Transmitter.next]
  split
  · exact scan_quiet tx port
  · split
    · intro found tx after ends
      simp at ends
    · rename_i synced done
      exact (scan_quiet _ synced).after (Port.sync_keeps keepsBufs done)
        (Port.sync_sameRx leaves done)

theorem obtain_quiet {first second : Ioctl} (keepsFirst : first.KeepsBufs)
    (leavesFirst : first.LeavesFrom port.rxBase) (keepsSecond : second.KeepsBufs)
    (leavesSecond : second.LeavesFrom port.rxBase) :
    (tx.obtain port first second).Quiet port := by
  have visited : (tx.next port first).Quiet port := next_quiet keepsFirst leavesFirst
  simp only [Transmitter.obtain]
  split
  · exact visited
  · exact visited
  · rename_i scanned after failed
    rcases visited none scanned after failed with ⟨keeps, sameRx, -⟩
    split
    · intro found last_tx last_port ends
      simp at ends
    · rename_i restarted synced done
      simp only [Transmitter.reset, Option.map_eq_some_iff, Prod.mk.injEq] at done
      rcases done with ⟨other, done, -, rfl⟩
      have keeps' := Port.sync_keeps keepsSecond done
      have sameRx' : after.SameRx other :=
        Port.sync_sameRx (keeps.rxBase ▸ leavesSecond) done
      have again : (restarted.next other first).Quiet other := by
        apply next_quiet keepsFirst
        rw [keeps'.rxBase, keeps.rxBase]
        exact leavesFirst
      exact again.after (keeps.trans keeps') (sameRx.trans keeps sameRx')

end Transmit

/-! ## The receiver -/

section Receive

variable {rx : Receiver} {port : Port}

/-- The ring pointer of the receiver, if it has one, is that of a receive ring. -/
def Receiver.Aimed (rx : Receiver) (port : Port) : Prop :=
  ∀ pointer, rx.curRing = some pointer → port.rxBase ≤ pointer ∧ pointer ∈ port.rxPointers

theorem Receiver.Aimed.keeps {after : Port} (aimed : rx.Aimed port) (keeps : port.Keeps after) :
    rx.Aimed after := by
  rcases keeps.shape with ⟨rings, bufs, rfl⟩
  exact aimed

/-- What a call of the receiver leaves: the same slots in all rings, and a slot of a receive
ring if it found one. -/
structure Received (found : Option RxBuf) (rx : Receiver) (before after : Port) : Prop where
  keeps : before.Keeps after
  sameRx : before.SameRx after
  aimed : rx.Aimed after
  region : ∀ buf, found = some buf → after.rxBase ≤ buf.pointer ∧ buf.pointer ∈ after.rxPointers

theorem rx_scan_received {found : Option RxBuf} {rx' : Receiver} {after : Port}
    (aimed : rx.Aimed port) (scanned : rx.scan port = some (found, rx', after)) :
    Received found rx' port after := by
  induction rx, port using Receiver.scan.induct with
  | case1 rx port null =>
      rw [Receiver.scan, null] at scanned
      simp at scanned
  | case2 rx port pointer current slot ring advanced =>
      rcases Port.setRing_keeps (NetmapRing.next_slots advanced) with ⟨keeps, sameRx⟩
      rw [Receiver.scan, current] at scanned
      simp only [advanced, Option.some.injEq, Prod.mk.injEq] at scanned
      rcases scanned with ⟨rfl, rfl, rfl⟩
      refine ⟨keeps, sameRx, aimed.keeps keeps, ?_⟩
      rintro buf ⟨⟩
      exact aimed.keeps keeps pointer current
  | case3 rx port pointer current ring advanced past =>
      rcases Port.setRing_keeps (NetmapRing.next_slots advanced) with ⟨keeps, sameRx⟩
      rw [Receiver.scan, current] at scanned
      simp only [advanced, if_pos past, Option.some.injEq, Prod.mk.injEq] at scanned
      rcases scanned with ⟨rfl, rfl, rfl⟩
      refine ⟨keeps, sameRx, ?_, by simp⟩
      rintro pointer ⟨⟩
  | case4 rx port pointer current ring advanced more ih =>
      rcases Port.setRing_keeps (NetmapRing.next_slots advanced) with ⟨keeps, sameRx⟩
      rw [Receiver.scan, current] at scanned
      simp only [advanced, if_neg more] at scanned
      have aimed' : Receiver.Aimed { rx with
          ringIdx := rx.ringIdx + 1
          curRing := port.rawRxRingAt (rx.ringIdx + 1) } (port.setRing pointer ring) := by
        intro other present
        exact Port.rawRxRingAt_eq_some present
      have rest := ih aimed' scanned
      exact ⟨keeps.trans rest.keeps, sameRx.trans keeps rest.sameRx, rest.aimed, rest.region⟩

theorem rx_next_received {found : Option RxBuf} {rx' : Receiver} {after : Port}
    (aimed : rx.Aimed port) (scanned : rx.next port = some (found, rx', after)) :
    Received found rx' port after := by
  simp only [Receiver.next] at scanned
  split at scanned
  · simp only [Option.some.injEq, Prod.mk.injEq] at scanned
    rcases scanned with ⟨rfl, rfl, rfl⟩
    exact ⟨.refl port, .refl port, aimed, by simp⟩
  · exact rx_scan_received aimed scanned

end Receive

end Nethuns.Netmap
