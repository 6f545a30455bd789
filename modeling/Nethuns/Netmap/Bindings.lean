import Nethuns.Netmap.Interval
import Nethuns.Netmap.Reception
import Mathlib.Algebra.Order.BigOperators.Group.Finset

/-!
# The bindings under which the receiver is safe

A port can be bound to rings of the NIC, to the rings of the host, or to both; in the order of
`ring_ofs` the host rings follow those of the NIC. `raw_rx_ring_at` knows only the rings of the
NIC and gives the null pointer for a host ring. `next` tests its pointer on entry, but not when
it moves on to the next ring of the interval. A port that is also bound to host rings thus makes
it access a ring through the null pointer, and a port that is bound to host rings only makes it
find nothing for ever.

The accesses of a call are listed beside it. In the interval of a port that is not bound to any
receive ring, the first index is past the last.
-/

namespace Nethuns.Netmap

open Nethuns.Lib

namespace Receiver

/-- The ring indices at which the loop of `next` accesses a ring, with the pointers. -/
def scanDerefs (rx : Receiver) (port : Port) : List (ℕ × Option ℕ) :=
  (rx.ringIdx, rx.curRing) ::
    match rx.curRing with
    | none => []
    | some pointer =>
        match (port.rings pointer).next with
        | (some _, _) => []
        | (none, ring) =>
            if rx.ringIdx + 1 > rx.lastRxRing then
              []
            else
              { rx with
                  ringIdx := rx.ringIdx + 1
                  curRing := port.rawRxRingAt (rx.ringIdx + 1) }.scanDerefs
                (port.setRing pointer ring)
termination_by rx.lastRxRing - rx.ringIdx

/-- The accesses of `ReceiverIterMut::next`. -/
def derefs (rx : Receiver) (port : Port) : List (ℕ × Option ℕ) :=
  if rx.curRing = none then [] else rx.scanDerefs port

/-- A scan fails exactly when it accesses a ring through the null pointer. -/
theorem scan_eq_none_iff (rx : Receiver) (port : Port) :
    rx.scan port = none ↔ ∃ index, (index, none) ∈ rx.scanDerefs port := by
  induction rx, port using Receiver.scan.induct with
  | case1 rx port null =>
      rw [scan, scanDerefs, null]
      simp
  | case2 rx port pointer current slot ring advanced =>
      rw [scan, scanDerefs, current]
      simp [advanced]
  | case3 rx port pointer current ring advanced past =>
      rw [scan, scanDerefs, current]
      simp [advanced, past]
  | case4 rx port pointer current ring advanced more ih =>
      rw [scan, scanDerefs, current]
      simp [advanced, more, ih]

theorem next_eq_none_iff (rx : Receiver) (port : Port) :
    rx.next port = none ↔ ∃ index, (index, none) ∈ rx.derefs port := by
  simp only [next, derefs]
  split
  · simp
  · exact scan_eq_none_iff rx port

variable {rx : Receiver} {port : Port}

/-- On a port that is bound to rings of the NIC, the accesses of a scan are as they should be, and
the receiver stays in the interval, whatever the cursors of the rings are. -/
theorem At.scan_safe (here : rx.At port) (present : port.lastRxRing.toNat < port.niRxRings)
    (inside : rx.ringIdx ≤ rx.lastRxRing) :
    (∀ access ∈ rx.scanDerefs port,
        port.RxOwns access.1 ∧ access.2 = some (port.rxBase + access.1)) ∧
      ∀ found after final, rx.scan port = some (found, after, final) →
        after.At final ∧ ∃ rings, final = { port with rings := rings } := by
  have last_eq := here.last_eq
  have aimed : rx.curRing = some (port.rxBase + rx.ringIdx) := by
    rcases here.aimed with ⟨-, aimed⟩ | ⟨past, -⟩
    · exact aimed
    · omega
  have owned : port.RxOwns rx.ringIdx := ⟨here.first_le, last_eq ▸ inside⟩
  induction rx, port using Receiver.scan.induct with
  | case1 rx port null => simp [null] at aimed
  | case2 rx port pointer current slot ring advanced =>
      rw [scan, scanDerefs, current]
      simp only [advanced, List.mem_singleton, forall_eq]
      refine ⟨⟨owned, current ▸ aimed⟩, ?_⟩
      rintro found after final ⟨⟩
      exact ⟨here.rings rfl, _, rfl⟩
  | case3 rx port pointer current ring advanced past =>
      rw [scan, scanDerefs, current]
      simp only [advanced, if_pos past, List.mem_singleton, forall_eq]
      refine ⟨⟨owned, current ▸ aimed⟩, ?_⟩
      rintro found after final ⟨⟩
      refine ⟨⟨last_eq, here.first_le.trans (Nat.le_succ _), Or.inr ⟨?_, rfl⟩⟩, _, rfl⟩
      simp only
      omega
  | case4 rx port pointer current ring advanced more ih =>
      rw [scan, scanDerefs, current]
      simp only [advanced, if_neg more, List.forall_mem_cons]
      have there : port.rawRxRingAt (rx.ringIdx + 1) = some (port.rxBase + (rx.ringIdx + 1)) :=
        Port.rawRxRingAt_of_lt (by omega)
      have moved : Receiver.At { rx with
          ringIdx := rx.ringIdx + 1
          curRing := port.rawRxRingAt (rx.ringIdx + 1) } (port.setRing pointer ring) :=
        ⟨last_eq, here.first_le.trans (Nat.le_succ _), Or.inl ⟨by simp only; omega, there⟩⟩
      rcases ih moved present (by simp only; omega) last_eq there
        ⟨moved.first_le, last_eq ▸ Nat.not_lt.mp more⟩ with ⟨rest, after⟩
      refine ⟨⟨⟨owned, current ▸ aimed⟩, rest⟩, ?_⟩
      intro found rx' final scanned
      rcases after found rx' final scanned with ⟨after, rings, rfl⟩
      exact ⟨after, rings, rfl⟩

theorem At.next_safe (here : rx.At port) (present : port.lastRxRing.toNat < port.niRxRings) :
    (∀ access ∈ rx.derefs port,
        port.RxOwns access.1 ∧ access.2 = some (port.rxBase + access.1)) ∧
      ∀ found after final, rx.next port = some (found, after, final) →
        after.At final ∧ ∃ rings, final = { port with rings := rings } := by
  rcases here.aimed with ⟨inside, current⟩ | ⟨-, null⟩
  · simp only [derefs, next, current, reduceCtorEq, if_false]
    exact here.scan_safe present inside
  · simp only [derefs, next, null, if_true]
    refine ⟨by simp, ?_⟩
    rintro found after final ⟨⟩
    exact ⟨here, port.rings, rfl⟩

theorem scanDerefs_of_empty
    (empty : ∀ pointer, (port.rings pointer).head = (port.rings pointer).tail)
    (before : rx.ringIdx < port.niRxRings) (past : port.niRxRings ≤ rx.lastRxRing)
    (current : rx.curRing = some (port.rxBase + rx.ringIdx)) :
    (port.niRxRings, none) ∈ rx.scanDerefs port := by
  generalize left : port.niRxRings - rx.ringIdx = count
  induction count generalizing rx with
  | zero => omega
  | succ count ih =>
      rw [scanDerefs, current]
      simp only [NetmapRing.next_of_eq (empty _), Port.setRing_self]
      rw [if_neg (by omega), List.mem_cons]
      right
      by_cases last : rx.ringIdx + 1 = port.niRxRings
      · have null : port.rawRxRingAt (rx.ringIdx + 1) = none := by
          simp [Port.rawRxRingAt, last]
        rw [scanDerefs, null, last]
        exact List.mem_cons_self
      · apply ih
        · simp only
          omega
        · exact past
        · exact Port.rawRxRingAt_of_lt (by omega)
        · simp only
          omega

end Receiver

namespace RxTrace

/-- The next calls on the receiver, after a reset, yield a slot of the ring. -/
def Reaches (trace : RxTrace) (ioctl : Ioctl) (index : ℕ) : Prop :=
  ∃ calls final, run step trace (.reset ioctl :: List.replicate calls .next) = some final ∧
    ∃ buf ∈ final.yielded.drop trace.yielded.length, buf.pointer = trace.port.rxBase + index

/-- The next call accesses only rings of the bound interval, each where `NETMAP_RXRING` has it,
and what is pending on the rings of the interval can be reached. -/
structure ScanSafe (trace : RxTrace) : Prop where
  derefs : ∀ access ∈ trace.rx.derefs trace.port,
    trace.port.RxOwns access.1 ∧ access.2 = some (trace.port.rxBase + access.1)
  reaches : (∀ index, trace.port.RxOwns index → (trace.port.rxRing index).Valid) →
    ∀ ioctl, trace.KernelPublishes (.reset ioctl) →
    ∀ index, trace.port.RxOwns index →
      (trace.port.rxRing index).head ≠ (trace.port.rxRing index).tail →
      trace.Reaches ioctl index

/-! ## Ports bound to rings of the NIC -/

section Bound

variable {start : Port} {trace next : RxTrace}

/-- How many packets are pending on the rings before an index. -/
def pendingBefore (trace : RxTrace) (index : ℕ) : ℕ :=
  ∑ before ∈ Finset.range index, (trace.port.rxRing before).userCount

theorem reaches_calls {index : ℕ} (here : trace.rx.At trace.port)
    (present : trace.port.lastRxRing.toNat < trace.port.niRxRings)
    (valid : ∀ index, trace.port.RxOwns index → (trace.port.rxRing index).Valid)
    (owned : trace.port.RxOwns index) (at_most : trace.rx.ringIdx ≤ index)
    (pending : (trace.port.rxRing index).head ≠ (trace.port.rxRing index).tail) :
    ∃ calls final, run step trace (List.replicate calls .next) = some final ∧
      ∃ buf ∈ final.yielded.drop trace.yielded.length,
        buf.pointer = trace.port.rxBase + index := by
  -- Each call takes a packet from a ring before the index, until it takes one from there.
  generalize left : trace.pendingBefore index = count
  induction count using Nat.strong_induction_on generalizing trace with
  | _ count ih =>
  rcases here.next_cases present valid with
    ⟨found, lower, found_owned, empties, some_left, scanned⟩ | ⟨empties, -⟩
  · have reached : found ≤ index := by
      by_contra beyond
      exact pending (empties index at_most (Nat.lt_of_not_le beyond))
    rcases (valid found found_owned).next_of_ne some_left with ⟨-, valid', -⟩
    rcases Nat.eq_or_lt_of_le reached with rfl | earlier
    · refine ⟨1, _, run_cons_eq_some.mpr ⟨_, step_took scanned, rfl⟩, ?_⟩
      simp [took, Receiver.foundAt]
    · have untouched : (trace.took found).port.rxRing index = trace.port.rxRing index := by
        rw [took_rxRing, if_neg earlier.ne']
      have valid_after : ∀ other, trace.port.RxOwns other →
          ((trace.took found).port.rxRing other).Valid := by
        intro other other_owned
        rw [took_rxRing]
        split
        · exact valid'
        · exact valid other other_owned
      have fewer : (trace.took found).pendingBefore index < count := by
        have shorter := (valid found found_owned).userCount_advance some_left
        rw [← left]
        apply Finset.sum_lt_sum
        · intro before before_mem
          rw [took_rxRing]
          split
          · rename_i same
            rw [same]
            omega
          · exact le_refl _
        · refine ⟨found, Finset.mem_range.mpr earlier, ?_⟩
          rw [took_rxRing, if_pos rfl]
          omega
      rcases @ih _ fewer (trace.took found) (here.foundAt found_owned lower) present
        valid_after owned reached (untouched ▸ pending) rfl
        with ⟨calls, final, performed, buf, yielded, there⟩
      refine ⟨calls + 1, final, run_cons_eq_some.mpr ⟨_, step_took scanned, performed⟩, buf, ?_,
        there⟩
      refine List.drop_subset_drop_left _ ?_ yielded
      simp [took]
  · exact absurd (empties index at_most owned.2) pending

/-- The receiver of a run on a port that is bound to rings of the NIC. -/
structure OnNic (start : Port) (trace : RxTrace) : Prop where
  shape : ∃ rings, trace.port = { start with rings := rings }
  here : trace.rx.At trace.port

theorem new_at (ordered : start.firstRxRing ≤ start.lastRxRing)
    (present : start.lastRxRing.toNat < start.niRxRings) : (Receiver.new start).At start := by
  have ordered := UInt16.le_iff_toNat_le.mp ordered
  exact ⟨rfl, le_refl _, Or.inl ⟨ordered, Port.rawRxRingAt_of_lt (ordered.trans_lt present)⟩⟩

theorem reset_at {ioctl : Ioctl} {rx : Receiver} {port : Port} (onNic : trace.OnNic start)
    (ordered : start.firstRxRing ≤ start.lastRxRing)
    (present : start.lastRxRing.toNat < start.niRxRings)
    (done : trace.rx.reset trace.port ioctl = some (rx, port)) :
    rx.At port ∧ ∃ rings, port = { start with rings := rings } := by
  rcases onNic.shape with ⟨old, same⟩
  simp only [Receiver.reset, Option.map_eq_some_iff, Prod.mk.injEq] at done
  rcases done with ⟨synced, done, rfl, rfl⟩
  rcases Port.sync_eq_some done with ⟨kernel, -, rfl⟩
  have restarted : Receiver.new { trace.port with rings := kernel trace.port.rings } =
      { trace.rx with
        ringIdx := trace.port.firstRxRing.toNat
        curRing := trace.port.rawRxRingAt trace.port.firstRxRing.toNat } := by
    rw [Receiver.new, ← onNic.here.last_eq]
    rfl
  rw [← restarted]
  refine ⟨new_at ?_ ?_, _, by rw [same]⟩
  · rw [same]
    exact ordered
  · rw [same]
    exact present

theorem step_onNic {action : RxAction} (onNic : trace.OnNic start)
    (ordered : start.firstRxRing ≤ start.lastRxRing)
    (present : start.lastRxRing.toNat < start.niRxRings)
    (stepped : trace.step action = some next) : next.OnNic start := by
  rcases onNic.shape with ⟨old, same⟩
  cases action with
  | next =>
      simp only [step, Option.map_eq_some_iff, Prod.exists] at stepped
      rcases stepped with ⟨found, rx, port, scanned, rfl⟩
      have present : trace.port.lastRxRing.toNat < trace.port.niRxRings := by
        rw [same]
        exact present
      rcases (onNic.here.next_safe present).2 found rx port scanned with ⟨here, rings, rfl⟩
      exact ⟨⟨rings, by rw [same]⟩, here⟩
  | reset ioctl =>
      simp only [step, Option.map_eq_some_iff, Prod.exists] at stepped
      rcases stepped with ⟨rx, port, done, rfl⟩
      rcases reset_at onNic ordered present done with ⟨here, shape⟩
      exact ⟨shape, here⟩
  | update pointer position f =>
      simp only [step, Option.some.injEq] at stepped
      subst next
      exact ⟨⟨_, by rw [Port.updateSlot, Port.setRing, same]⟩, onNic.here.rings rfl⟩

theorem OnNic.scanSafe (onNic : trace.OnNic start)
    (ordered : start.firstRxRing ≤ start.lastRxRing)
    (present : start.lastRxRing.toNat < start.niRxRings) : trace.ScanSafe := by
  rcases onNic.shape with ⟨old, same⟩
  have last_lt : trace.port.lastRxRing.toNat < trace.port.niRxRings := by
    rw [same]
    exact present
  refine ⟨(onNic.here.next_safe last_lt).1, ?_⟩
  rintro valid ioctl ⟨kernel, rfl, grows⟩ index owned pending
  have done : trace.rx.reset trace.port (some kernel) = some ({ trace.rx with
        ringIdx := trace.port.firstRxRing.toNat
        curRing := trace.port.rawRxRingAt trace.port.firstRxRing.toNat },
      { trace.port with rings := kernel trace.port.rings }) := rfl
  rcases reset_at onNic ordered present done with ⟨here, -⟩
  have still : (kernel trace.port.rings (trace.port.rxBase + index)).head ≠
      (kernel trace.port.rings (trace.port.rxBase + index)).tail := by
    have counted := (grows index owned).userCount_le
    have valid' := (grows index owned).valid (valid index owned)
    intro drained
    rw [← valid'.userSlots_eq_nil, ← List.length_eq_zero_iff, NetmapRing.userSlots,
      length_window] at drained
    apply pending
    rw [← (valid index owned).userSlots_eq_nil, ← List.length_eq_zero_iff, NetmapRing.userSlots,
      length_window]
    omega
  rcases @reaches_calls { trace with
      rx := { trace.rx with
        ringIdx := trace.port.firstRxRing.toNat
        curRing := trace.port.rawRxRingAt trace.port.firstRxRing.toNat }
      port := { trace.port with rings := kernel trace.port.rings }
      published := fun index => trace.published index ++ (trace.port.rxRing index).freshSlots
        (kernel trace.port.rings (trace.port.rxBase + index)) } index here last_lt
    (fun other owned => (grows other owned).valid (valid other owned)) owned owned.1 still with
    ⟨calls, final, performed, yields⟩
  exact ⟨calls, final, run_cons_eq_some.mpr ⟨_, rfl, performed⟩, yields⟩

/-! ## Other ports -/

theorem calls_of_null {final : RxTrace} {calls : ℕ} (null : trace.rx.curRing = none)
    (performed : run step trace (List.replicate calls .next) = some final) :
    final.yielded = trace.yielded := by
  induction calls generalizing trace with
  | zero =>
      simp only [List.replicate_zero, run_nil, Option.some.injEq] at performed
      rw [performed]
  | succ calls ih =>
      rcases run_cons_eq_some.mp performed with ⟨next, stepped, rest⟩
      simp only [step, Receiver.next, if_pos null, Option.map_some, Option.toList_none,
        List.append_nil, Option.some.injEq] at stepped
      subst next
      exact ih null rest

/-- The receiver has no ring pointer in any state of a run on a port that is bound to nothing. -/
structure Idle (start : Port) (trace : RxTrace) : Prop where
  shape : ∃ rings, trace.port = { start with rings := rings }
  null : trace.rx.curRing = none

theorem step_idle {action : RxAction} (idle : trace.Idle start)
    (past : start.niRxRings ≤ start.firstRxRing.toNat)
    (stepped : trace.step action = some next) : next.Idle start := by
  rcases idle.shape with ⟨old, same⟩
  cases action with
  | next =>
      simp only [step, Receiver.next, if_pos idle.null, Option.map_some, Option.some.injEq]
        at stepped
      subst next
      exact ⟨idle.shape, idle.null⟩
  | reset ioctl =>
      simp only [step, Receiver.reset, Option.map_eq_some_iff, Prod.exists, Prod.mk.injEq]
        at stepped
      rcases stepped with ⟨rx, port, ⟨synced, done, rfl, rfl⟩, rfl⟩
      rcases Port.sync_eq_some done with ⟨kernel, -, rfl⟩
      refine ⟨⟨_, by rw [same]⟩, ?_⟩
      rw [same]
      exact if_pos past
  | update pointer position f =>
      simp only [step, Option.some.injEq] at stepped
      subst next
      exact ⟨⟨_, by rw [Port.updateSlot, Port.setRing, same]⟩, idle.null⟩

theorem Idle.scanSafe (idle : trace.Idle start) (nothing : start.lastRxRing < start.firstRxRing) :
    trace.ScanSafe := by
  refine ⟨?_, ?_⟩
  · simp [Receiver.derefs, idle.null]
  · intro _ _ _ index owned
    rcases idle.shape with ⟨old, same⟩
    rw [same] at owned
    have := UInt16.lt_iff_toNat_lt.mp nothing
    have := owned.1.trans owned.2
    simp only at this
    omega

end Bound

end RxTrace

/-- The interval has rings of the NIC only, or it is empty and starts past them. -/
def Port.NicBound (port : Port) : Prop :=
  (port.firstRxRing ≤ port.lastRxRing ∧ port.lastRxRing.toNat < port.niRxRings) ∨
    (port.lastRxRing < port.firstRxRing ∧ port.niRxRings ≤ port.firstRxRing.toNat)

namespace RxTrace

variable {port : Port}

theorem not_scanSafe_of_host (ordered : port.firstRxRing ≤ port.lastRxRing)
    (past : port.niRxRings ≤ port.firstRxRing.toNat) :
    ¬(new { port with rings := fun _ => smallRing 1 }).ScanSafe := by
  intro safe
  have one_packet : (smallRing 1).Valid ∧ (smallRing 1).head ≠ (smallRing 1).tail := by decide
  rcases safe.reaches (fun _ _ => one_packet.1) (some id)
    ⟨id, rfl, fun _ _ => NetmapRing.grows_self one_packet.1⟩ port.firstRxRing.toNat
    ⟨le_refl _, UInt16.le_iff_toNat_le.mp ordered⟩ one_packet.2 with
    ⟨calls, final, performed, buf, yielded, -⟩
  rcases run_cons_eq_some.mp performed with ⟨restarted, reset, rest⟩
  have null : restarted.rx.curRing = none ∧ restarted.yielded = [] := by
    simp only [step, Receiver.reset, Port.sync, Option.map_some, Option.some.injEq] at reset
    subst restarted
    exact ⟨if_pos past, rfl⟩
  rw [calls_of_null null.1 rest, null.2] at yielded
  simp at yielded

theorem next_of_mixed
    (empty : ∀ pointer, (port.rings pointer).head = (port.rings pointer).tail)
    (before : port.firstRxRing.toNat < port.niRxRings)
    (past : port.niRxRings ≤ port.lastRxRing.toNat) :
    (port.niRxRings, none) ∈ (Receiver.new port).derefs port := by
  have there : (Receiver.new port).curRing = some (port.rxBase + port.firstRxRing.toNat) :=
    Port.rawRxRingAt_of_lt before
  have scanned := Receiver.scanDerefs_of_empty empty before past there
  simpa [Receiver.derefs, there] using scanned

theorem not_scanSafe_of_mixed
    (empty : ∀ pointer, (port.rings pointer).head = (port.rings pointer).tail)
    (before : port.firstRxRing.toNat < port.niRxRings)
    (past : port.niRxRings ≤ port.lastRxRing.toNat) : ¬(new port).ScanSafe := by
  intro safe
  have access := (safe.derefs _ (next_of_mixed empty before past)).2
  simp at access

theorem not_scanSafe_of_empty (nothing : port.lastRxRing < port.firstRxRing)
    (before : port.firstRxRing.toNat < port.niRxRings) : ¬(new port).ScanSafe := by
  intro safe
  have there : port.rawRxRingAt port.firstRxRing.toNat =
      some (port.rxBase + port.firstRxRing.toNat) := Port.rawRxRingAt_of_lt before
  have access := safe.derefs (port.firstRxRing.toNat, some (port.rxBase + port.firstRxRing.toNat))
    (by
      simp only [Receiver.derefs, new, Receiver.new, there, reduceCtorEq, if_false]
      rw [Receiver.scanDerefs]
      exact List.mem_cons_self)
  have := UInt16.lt_iff_toNat_lt.mp nothing
  have := access.1.2
  simp only [new] at this
  omega

/-- Whatever the rings contain and the kernel does to them, every state of every run is safe,
exactly when the port is bound to rings of the NIC or to nothing. -/
theorem scanSafe_iff_nicBound (port : Port) :
    (∀ rings actions trace, run step (new { port with rings := rings }) actions = some trace →
      trace.ScanSafe) ↔ port.NicBound := by
  constructor
  · intro safe
    rcases Nat.lt_or_ge port.firstRxRing.toNat port.niRxRings with before | past
    · rcases UInt16.lt_or_le port.lastRxRing port.firstRxRing with nothing | ordered
      · exact absurd (safe port.rings [] _ rfl) (not_scanSafe_of_empty nothing before)
      · left
        refine ⟨ordered, ?_⟩
        by_contra mixed
        exact @not_scanSafe_of_mixed { port with rings := fun _ => smallRing 0 } (fun _ => rfl)
          before (Nat.not_lt.mp mixed) (safe _ [] _ rfl)
    · rcases UInt16.lt_or_le port.lastRxRing port.firstRxRing with nothing | ordered
      · exact Or.inr ⟨nothing, past⟩
      · exact absurd (safe _ [] _ rfl) (not_scanSafe_of_host ordered past)
  · intro bound rings actions trace performed
    rcases bound with ⟨ordered, present⟩ | ⟨nothing, past⟩
    · have onNic := run_invariant_of_step (OnNic port)
        (fun onNic => step_onNic onNic ordered present)
        ⟨⟨rings, rfl⟩, @new_at { port with rings := rings } ordered present⟩ performed
      exact onNic.scanSafe ordered present
    · have idle := run_invariant_of_step (Idle port) (fun idle => step_idle idle past)
        ⟨⟨rings, rfl⟩, if_pos past⟩ performed
      exact idle.scanSafe nothing

/-- A NIC with two receive rings and one host ring, all empty, in a port that is bound to all
three. -/
def hostPort : Port := { fullPort with lastRxRing := 2, rings := fun _ => smallRing 0 }

theorem hostPort_next_null :
    hostPort.lastRxRing.toNat < hostPort.niRxRings + hostPort.niHostRxRings ∧
      (2, none) ∈ (new hostPort).rx.derefs hostPort ∧
      (new hostPort).rx.next hostPort = none ∧ ¬(new hostPort).ScanSafe := by
  have null : (2, none) ∈ (Receiver.new hostPort).derefs hostPort :=
    next_of_mixed (fun _ => rfl) (by decide) (by decide)
  refine ⟨by decide, null, (Receiver.next_eq_none_iff _ _).mpr ⟨2, null⟩, ?_⟩
  exact not_scanSafe_of_mixed (fun _ => rfl) (by decide) (by decide)

end RxTrace

end Nethuns.Netmap
