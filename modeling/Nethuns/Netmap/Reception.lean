import Nethuns.Netmap.Buffers
import Nethuns.Netmap.Rings

/-!
# The scan of the netmap receiver

`ReceiverIterMut::next` takes the first slot of the ring it points at and moves on when this ring
is empty, up to the end of the bound interval. There it drops its ring pointer and finds nothing
until it is reset. This file shows that the slots it yields are, ring by ring, those that the
kernel published, in order, for a port that is bound to rings of the NIC.

The slots that the kernel published and those that were yielded are kept beside the receiver. The
kernel works on the rings during `NIOCRXSYNC`: it moves the tail of a ring over the slots that it
has filled, but not past the head.
-/

namespace Nethuns.Netmap

open Nethuns.Lib

namespace Port

/-- The ring that `NETMAP_RXRING` gives for an index. -/
def rxRing (port : Port) (index : ℕ) : NetmapRing := port.rings (port.rxBase + index)

/-- The index is in the bound interval of receive rings. -/
def RxOwns (port : Port) (index : ℕ) : Prop :=
  port.firstRxRing.toNat ≤ index ∧ index ≤ port.lastRxRing.toNat

theorem rawRxRingAt_of_lt {port : Port} {index : ℕ} (present : index < port.niRxRings) :
    port.rawRxRingAt index = some (port.rxBase + index) := by
  simp [rawRxRingAt, rxBase, Nat.not_le.mpr present]

theorem setRing_rxRing (port : Port) (index other : ℕ) (ring : NetmapRing) :
    (port.setRing (port.rxBase + index) ring).rxRing other =
      if other = index then ring else port.rxRing other := by
  simp [setRing, rxRing, rxBase, Function.update_apply]

end Port

namespace Receiver

variable {rx : Receiver} {port : Port}

/-- The receiver after it has found a slot in a ring, and the port without this slot. -/
def foundAt (rx : Receiver) (port : Port) (index : ℕ) : Option RxBuf × Receiver × Port :=
  (some ⟨port.rxBase + index, (port.rxRing index).head.toNat, .ofNat index⟩,
    { rx with ringIdx := index, curRing := some (port.rxBase + index) },
    port.setRing (port.rxBase + index) (port.rxRing index).advance)

def exhausted (rx : Receiver) : Receiver :=
  { rx with ringIdx := rx.lastRxRing + 1, curRing := none }

theorem scan_of_ne (valid : (port.rxRing rx.ringIdx).Valid)
    (some_left : (port.rxRing rx.ringIdx).head ≠ (port.rxRing rx.ringIdx).tail)
    (current : rx.curRing = some (port.rxBase + rx.ringIdx)) :
    rx.scan port = some (rx.foundAt port rx.ringIdx) := by
  have advanced := (valid.next_of_ne some_left).1
  simp only [Port.rxRing] at advanced
  rw [scan, current]
  simp only [advanced, foundAt, Port.rxRing, ← current]

theorem scan_of_eq (empty : (port.rxRing rx.ringIdx).head = (port.rxRing rx.ringIdx).tail)
    (current : rx.curRing = some (port.rxBase + rx.ringIdx)) :
    rx.scan port =
      if rx.ringIdx + 1 > rx.lastRxRing then
        some (none, { rx with ringIdx := rx.ringIdx + 1, curRing := none }, port)
      else
        { rx with
          ringIdx := rx.ringIdx + 1
          curRing := port.rawRxRingAt (rx.ringIdx + 1) }.scan port := by
  have advanced := NetmapRing.next_of_eq empty
  simp only [Port.rxRing] at advanced
  rw [scan, current]
  simp only [advanced, Port.setRing_self]

/-- What a scan comes to: it finds the first slot of the first ring of the NIC that is not empty,
or else there is no such ring up to the end of the interval. In this case it accesses the null
pointer if the interval goes on past the rings of the NIC. -/
theorem scan_search (rx : Receiver) (current : rx.curRing = some (port.rxBase + rx.ringIdx))
    (present : rx.ringIdx < port.niRxRings)
    (valid : ∀ index < port.niRxRings, rx.ringIdx ≤ index →
      index ≤ rx.lastRxRing ∨ index = rx.ringIdx → (port.rxRing index).Valid) :
    (∃ index, NetmapRing.FirstReady port.rxRing port.niRxRings rx.ringIdx rx.lastRxRing index ∧
        rx.scan port = some (rx.foundAt port index)) ∨
      ((∀ index < port.niRxRings, rx.ringIdx ≤ index → index ≤ rx.lastRxRing ∨ index = rx.ringIdx →
          (port.rxRing index).head = (port.rxRing index).tail) ∧
        (port.niRxRings ≤ rx.lastRxRing ∧ rx.scan port = none ∨
          rx.scan port = some (none,
            { rx with ringIdx := max rx.ringIdx rx.lastRxRing + 1, curRing := none }, port))) := by
  generalize left : rx.lastRxRing - rx.ringIdx = count
  induction count using Nat.strong_induction_on generalizing rx with
  | _ count ih =>
  by_cases empty : (port.rxRing rx.ringIdx).head = (port.rxRing rx.ringIdx).tail
  · have passed := scan_of_eq empty current
    by_cases past : rx.ringIdx + 1 > rx.lastRxRing
    · right
      refine ⟨?_, Or.inr ?_⟩
      · intro index _ lower upper
        obtain rfl : index = rx.ringIdx := by omega
        exact empty
      · rw [passed, if_pos past, Nat.max_eq_left (by omega)]
    · rw [passed, if_neg past]
      by_cases more : rx.ringIdx + 1 < port.niRxRings
      · rw [Port.rawRxRingAt_of_lt more]
        have searched := ih (rx.lastRxRing - (rx.ringIdx + 1)) (by omega) { rx with
            ringIdx := rx.ringIdx + 1
            curRing := some (port.rxBase + (rx.ringIdx + 1)) } rfl more
          (fun index inside lower upper => valid index inside (by simp only at lower; omega)
            (by simp only at upper; omega)) rfl
        rcases searched with ⟨index, first, found⟩ | ⟨empties, rest⟩
        · exact Or.inl ⟨index, (NetmapRing.firstReady_succ empty (by omega)).mpr first, found⟩
        · right
          refine ⟨?_, ?_⟩
          · intro index inside lower upper
            rcases Nat.eq_or_lt_of_le lower with rfl | later
            · exact empty
            · exact empties index inside later (Or.inl (by simp only; omega))
          · have last : max rx.ringIdx rx.lastRxRing = max (rx.ringIdx + 1) rx.lastRxRing := by
              omega
            rw [last]
            exact rest
      · -- The next ring of the interval is one that the NIC does not have.
        have null : port.rawRxRingAt (rx.ringIdx + 1) = none := by
          simpa [Port.rawRxRingAt] using more
        right
        refine ⟨?_, Or.inl ⟨by omega, ?_⟩⟩
        · intro index inside lower _
          obtain rfl : index = rx.ringIdx := by omega
          exact empty
        · rw [null, scan]
  · left
    refine ⟨rx.ringIdx, ⟨le_refl _, Or.inr rfl, present, empty, fun before lower upper => by omega⟩,
      scan_of_ne (valid _ present (le_refl _) (Or.inr rfl)) empty current⟩

/-- A scan finds the first slot of the first ring that is not empty, or nothing when the rings up
to the end of the interval are all empty. -/
theorem scan_cases (present : rx.lastRxRing < port.niRxRings)
    (valid : ∀ index, rx.ringIdx ≤ index → index ≤ rx.lastRxRing → (port.rxRing index).Valid)
    (inside : rx.ringIdx ≤ rx.lastRxRing)
    (current : rx.curRing = some (port.rxBase + rx.ringIdx)) :
    (∃ index, rx.ringIdx ≤ index ∧ index ≤ rx.lastRxRing ∧
        (∀ before, rx.ringIdx ≤ before → before < index →
          (port.rxRing before).head = (port.rxRing before).tail) ∧
        (port.rxRing index).head ≠ (port.rxRing index).tail ∧
        rx.scan port = some (rx.foundAt port index)) ∨
      ((∀ index, rx.ringIdx ≤ index → index ≤ rx.lastRxRing →
          (port.rxRing index).head = (port.rxRing index).tail) ∧
        rx.scan port = some (none, rx.exhausted, port)) := by
  have upto : ∀ {index}, index ≤ rx.lastRxRing ∨ index = rx.ringIdx → index ≤ rx.lastRxRing :=
    fun upper => upper.elim id fun same => same ▸ inside
  rcases rx.scan_search current (inside.trans_lt present)
    (fun index _ lower upper => valid index lower (upto upper)) with
    ⟨index, first, found⟩ | ⟨empties, ⟨beyond, -⟩ | nothing⟩
  · exact Or.inl ⟨index, first.start_le, upto first.le_last, first.passed, first.ready, found⟩
  · omega
  · right
    refine ⟨?_, ?_⟩
    · exact fun index lower upper => empties index (upper.trans_lt present) lower (Or.inl upper)
    · rw [nothing, Nat.max_eq_right inside, exhausted]

/-- The receiver is at a ring of the bound interval, or past it without a ring pointer. -/
structure At (rx : Receiver) (port : Port) : Prop where
  last_eq : rx.lastRxRing = port.lastRxRing.toNat
  first_le : port.firstRxRing.toNat ≤ rx.ringIdx
  aimed : (rx.ringIdx ≤ rx.lastRxRing ∧ rx.curRing = some (port.rxBase + rx.ringIdx)) ∨
    (rx.ringIdx = rx.lastRxRing + 1 ∧ rx.curRing = none)

theorem At.next_cases (here : rx.At port) (present : port.lastRxRing.toNat < port.niRxRings)
    (valid : ∀ index, port.RxOwns index → (port.rxRing index).Valid) :
    (∃ index, rx.ringIdx ≤ index ∧ port.RxOwns index ∧
        (∀ before, rx.ringIdx ≤ before → before < index →
          (port.rxRing before).head = (port.rxRing before).tail) ∧
        (port.rxRing index).head ≠ (port.rxRing index).tail ∧
        rx.next port = some (rx.foundAt port index)) ∨
      ((∀ index, rx.ringIdx ≤ index → index ≤ port.lastRxRing.toNat →
          (port.rxRing index).head = (port.rxRing index).tail) ∧
        rx.next port = some (none, rx.exhausted, port)) := by
  rcases here.aimed with ⟨inside, current⟩ | ⟨past, null⟩
  · have scanned : rx.next port = rx.scan port := by simp [next, current]
    rw [scanned, ← here.last_eq]
    rcases scan_cases (here.last_eq ▸ present) (fun index lower upper =>
        valid index ⟨here.first_le.trans lower, here.last_eq ▸ upper⟩) inside current with
      ⟨index, lower, upper, empties, some_left, found⟩ | nothing
    · exact Or.inl ⟨index, lower, ⟨here.first_le.trans lower, here.last_eq ▸ upper⟩, empties,
        some_left, found⟩
    · exact Or.inr nothing
  · right
    refine ⟨?_, ?_⟩
    · intro index lower upper
      have := here.last_eq
      omega
    · have same : rx = rx.exhausted := by
        rw [exhausted, ← past, ← null]
      rw [next, if_pos null, ← same]

theorem next_exhausted (rx : Receiver) (port : Port) :
    rx.exhausted.next port = some (none, rx.exhausted, port) := by
  simp [next, exhausted]

theorem At.foundAt {index : ℕ} (here : rx.At port) (owned : port.RxOwns index)
    (at_least : rx.ringIdx ≤ index) :
    (rx.foundAt port index).2.1.At (rx.foundAt port index).2.2 := by
  refine ⟨here.last_eq, here.first_le.trans at_least, Or.inl ⟨?_, rfl⟩⟩
  exact owned.2.trans here.last_eq.ge

theorem At.rings {after : Port} {rings : ℕ → NetmapRing} (here : rx.At port)
    (shape : after = { port with rings := rings }) : rx.At after := by
  subst after
  exact ⟨here.last_eq, here.first_le, here.aimed⟩

end Receiver

/-! ## Runs of the receiver -/

/-- What is done with a receiver: its two calls, and the exchange of the buffer of a slot. -/
inductive RxAction
  | next
  | reset (ioctl : Ioctl)
  | update (pointer position : ℕ) (f : Slot → Slot)

/-- A receiver on its port, with the positions that the kernel has published on each ring, and
the slots that the receiver has yielded. -/
structure RxTrace where
  rx : Receiver
  port : Port
  published : ℕ → List ℕ
  yielded : List RxBuf

namespace RxTrace

/-- `Receiver::new` on a port that is synchronized. -/
def new (port : Port) : RxTrace where
  rx := .new port
  port := port
  published index := (port.rxRing index).userSlots
  yielded := []

/-- Performs one action; `none` when it panics. -/
def step (trace : RxTrace) : RxAction → Option RxTrace
  | .next => (trace.rx.next trace.port).map fun (found, rx, port) =>
      { trace with rx := rx, port := port, yielded := trace.yielded ++ found.toList }
  | .reset ioctl => (trace.rx.reset trace.port ioctl).map fun (rx, port) =>
      { trace with
        rx := rx
        port := port
        published := fun index => trace.published index ++
          (trace.port.rxRing index).freshSlots (port.rxRing index) }
  | .update pointer position f =>
      some { trace with port := trace.port.updateSlot pointer position f }

/-- The positions that were yielded for a ring. -/
def yieldedAt (trace : RxTrace) (index : ℕ) : List ℕ :=
  (trace.yielded.filter (·.pointer = trace.port.rxBase + index)).map RxBuf.slot

/-- The trace after a call that has found a slot in a ring. -/
def took (trace : RxTrace) (index : ℕ) : RxTrace :=
  { trace with
    rx := (trace.rx.foundAt trace.port index).2.1
    port := (trace.rx.foundAt trace.port index).2.2
    yielded := trace.yielded ++ (trace.rx.foundAt trace.port index).1.toList }

theorem step_took {trace : RxTrace} {index : ℕ}
    (found : trace.rx.next trace.port = some (trace.rx.foundAt trace.port index)) :
    trace.step .next = some (trace.took index) := by
  simp only [step, found, Option.map_some, took]

theorem took_rxRing (trace : RxTrace) (index other : ℕ) :
    (trace.took index).port.rxRing other =
      if other = index then (trace.port.rxRing index).advance else trace.port.rxRing other := by
  simp only [took, Receiver.foundAt, Port.setRing_rxRing]

/-- At `NIOCRXSYNC` the kernel only moves the tails of the bound rings on. -/
def KernelPublishes (trace : RxTrace) : RxAction → Prop
  | .reset ioctl => ∃ kernel, ioctl = some kernel ∧ ∀ index, trace.port.RxOwns index →
      (trace.port.rxRing index).Grows (kernel trace.port.rings (trace.port.rxBase + index))
  | _ => True

instance (trace : RxTrace) : DecidablePred trace.KernelPublishes
  | .next => .isTrue trivial
  | .reset none => .isFalse (by simp [KernelPublishes])
  | .reset (some kernel) =>
      decidable_of_iff (∀ index < trace.port.lastRxRing.toNat + 1,
          trace.port.firstRxRing.toNat ≤ index →
            (trace.port.rxRing index).Grows (kernel trace.port.rings (trace.port.rxBase + index)))
        ⟨fun all => ⟨kernel, rfl, fun index owned =>
            all index (Nat.lt_succ_of_le owned.2) owned.1⟩,
          fun ⟨_, same, all⟩ index upper lower =>
            Option.some.inj same ▸ all index ⟨lower, Nat.le_of_lt_succ upper⟩⟩
  | .update _ _ _ => .isTrue trivial

/-- What holds in every run that starts on a port. -/
structure Sound (start : Port) (trace : RxTrace) : Prop where
  shape : ∃ rings, trace.port = { start with rings := rings }
  here : trace.rx.At trace.port
  valid : ∀ index, start.RxOwns index → (trace.port.rxRing index).Valid
  numSlots_eq : ∀ index, start.RxOwns index →
    (trace.port.rxRing index).numSlots = (start.rxRing index).numSlots
  published_eq : ∀ index, start.RxOwns index →
    trace.published index = trace.yieldedAt index ++ (trace.port.rxRing index).userSlots
  circular : ∀ index, start.RxOwns index →
    trace.published index = window id (start.rxRing index).numSlots.toNat
        (start.rxRing index).head.toNat (trace.published index).length ∧
      (trace.port.rxRing index).tail.toNat % (start.rxRing index).numSlots.toNat =
        ((start.rxRing index).head.toNat + (trace.published index).length) %
          (start.rxRing index).numSlots.toNat
  inside : ∀ buf ∈ trace.yielded, start.RxOwns buf.ringIdx.toNat ∧
    buf.pointer = start.rxBase + buf.ringIdx.toNat

section Invariant

variable {start : Port} {trace next : RxTrace}

theorem new_sound (ordered : start.firstRxRing ≤ start.lastRxRing)
    (present : start.lastRxRing.toNat < start.niRxRings)
    (valid : ∀ index, start.RxOwns index → (start.rxRing index).Valid) :
    (new start).Sound start := by
  have ordered : start.firstRxRing.toNat ≤ start.lastRxRing.toNat :=
    UInt16.le_iff_toNat_le.mp ordered
  refine ⟨⟨start.rings, rfl⟩, ⟨rfl, le_refl _, Or.inl ⟨ordered, ?_⟩⟩, valid, fun _ _ => rfl, ?_, ?_,
    ?_⟩
  · exact Port.rawRxRingAt_of_lt (ordered.trans_lt present)
  · intro index owned
    simp [new, yieldedAt]
  · intro index owned
    refine ⟨?_, ?_⟩
    · simp only [new, NetmapRing.userSlots, length_window]
    · simp only [new, NetmapRing.userSlots, length_window]
      exact (add_distance_mod (valid index owned).head_toNat_lt).symm
  · intro buf yielded
    simp [new] at yielded

theorem Sound.owns (sound : trace.Sound start) (index : ℕ) :
    trace.port.RxOwns index ↔ start.RxOwns index := by
  rcases sound.shape with ⟨rings, same⟩
  rw [same]
  rfl

theorem Sound.rxBase (sound : trace.Sound start) : trace.port.rxBase = start.rxBase := by
  rcases sound.shape with ⟨rings, same⟩
  rw [same]
  rfl

theorem Sound.next_cases (sound : trace.Sound start)
    (present : start.lastRxRing.toNat < start.niRxRings) :
    (∃ index, trace.rx.ringIdx ≤ index ∧ start.RxOwns index ∧
        (∀ before, trace.rx.ringIdx ≤ before → before < index →
          (trace.port.rxRing before).head = (trace.port.rxRing before).tail) ∧
        (trace.port.rxRing index).head ≠ (trace.port.rxRing index).tail ∧
        trace.rx.next trace.port = some (trace.rx.foundAt trace.port index)) ∨
      ((∀ index, trace.rx.ringIdx ≤ index → index ≤ start.lastRxRing.toNat →
          (trace.port.rxRing index).head = (trace.port.rxRing index).tail) ∧
        trace.rx.next trace.port = some (none, trace.rx.exhausted, trace.port)) := by
  have found := sound.here.next_cases
  rcases sound.shape with ⟨rings, same⟩
  have last : trace.port.lastRxRing = start.lastRxRing := by rw [same]
  have count : trace.port.niRxRings = start.niRxRings := by rw [same]
  simp only [last, count, sound.owns] at found
  exact found present sound.valid

/-- A slot that is found is the first that was pending on its ring, and the last that was
yielded. -/
theorem Sound.took (sound : trace.Sound start) {index : ℕ} (owned : start.RxOwns index)
    (at_least : trace.rx.ringIdx ≤ index)
    (some_left : (trace.port.rxRing index).head ≠ (trace.port.rxRing index).tail) :
    (trace.took index).Sound start := by
  rcases (sound.valid index owned).next_of_ne some_left with ⟨-, valid, slots⟩
  have small : (UInt16.ofNat index).toNat = index := by
    have := start.lastRxRing.toNat_lt
    have := owned.2
    simpa using Nat.mod_eq_of_lt (show index < 2 ^ 16 by omega)
  constructor
  · rcases sound.shape with ⟨old, same⟩
    exact ⟨_, by rw [RxTrace.took, Receiver.foundAt, Port.setRing, same]⟩
  · exact sound.here.foundAt ((sound.owns index).mpr owned) at_least
  · intro other other_owned
    rw [took_rxRing]
    split
    · exact valid
    · exact sound.valid other other_owned
  · intro other other_owned
    rw [took_rxRing]
    split
    · rename_i here
      exact here ▸ sound.numSlots_eq index owned
    · exact sound.numSlots_eq other other_owned
  · intro other other_owned
    have before := sound.published_eq other other_owned
    have same_base : (trace.took index).port.rxBase = trace.port.rxBase := rfl
    have same_published : (trace.took index).published = trace.published := rfl
    have appended : (trace.took index).yielded = trace.yielded ++
      [⟨trace.port.rxBase + index, (trace.port.rxRing index).head.toNat, .ofNat index⟩] := rfl
    simp only [yieldedAt, took_rxRing, same_base, same_published, appended, List.filter_append,
      List.map_append]
    by_cases here : other = index
    · subst other
      rw [before, slots]
      simp [yieldedAt]
    · rw [before, if_neg here]
      simp [yieldedAt, Ne.symm here]
  · intro other other_owned
    rw [took_rxRing]
    split
    · rename_i here
      exact here ▸ sound.circular index owned
    · exact sound.circular other other_owned
  · intro buf yielded
    simp only [RxTrace.took, Receiver.foundAt, Option.toList_some, List.mem_append,
      List.mem_singleton] at yielded
    rcases yielded with earlier | rfl
    · exact sound.inside buf earlier
    · simp only [small, sound.rxBase, and_true]
      exact owned

theorem step_next (sound : trace.Sound start)
    (present : start.lastRxRing.toNat < start.niRxRings) :
    ∃ next, trace.step .next = some next ∧ next.Sound start := by
  rcases sound.next_cases present with ⟨index, at_least, owned, -, some_left, found⟩ | ⟨-, nothing⟩
  · exact ⟨_, step_took found, sound.took owned at_least some_left⟩
  · refine ⟨{ trace with rx := trace.rx.exhausted }, ?_, ?_⟩
    · simp only [step, nothing, Option.map_some, Option.toList_none, List.append_nil]
    · have here : trace.rx.exhausted.At trace.port := by
        have inside := sound.here.first_le
        refine ⟨sound.here.last_eq, ?_, Or.inr ⟨rfl, rfl⟩⟩
        rcases sound.here.aimed with ⟨upper, -⟩ | ⟨past, -⟩
        · exact inside.trans (upper.trans (Nat.le_succ _))
        · exact inside.trans past.le
      exact { sound with here := here }

/-- The kernel, or the user between two calls, leaves the rings so that what is pending on each
still is. -/
theorem Sound.rings (sound : trace.Sound start) {rings : ℕ → NetmapRing} {rx : Receiver}
    (here : rx.At { trace.port with rings := rings })
    (grows : ∀ index, start.RxOwns index →
      (trace.port.rxRing index).Grows (rings (trace.port.rxBase + index))) :
    Sound start { trace with
      rx := rx
      port := { trace.port with rings := rings }
      published := fun index => trace.published index ++
        (trace.port.rxRing index).freshSlots (rings (trace.port.rxBase + index)) } := by
  constructor
  · rcases sound.shape with ⟨old, same⟩
    exact ⟨rings, by rw [same]⟩
  · exact here
  · intro index owned
    exact (grows index owned).valid (sound.valid index owned)
  · intro index owned
    exact (grows index owned).numSlots_eq.trans (sound.numSlots_eq index owned)
  · intro index owned
    have split := ((grows index owned).freshSlots_eq (sound.valid index owned)).1
    change trace.published index ++ _ =
      trace.yieldedAt index ++ (rings (trace.port.rxBase + index)).userSlots
    rw [sound.published_eq index owned, split, List.append_assoc]
  · intro index owned
    rcases (grows index owned).freshSlots_eq (sound.valid index owned) with ⟨-, fresh, new_tail⟩
    rcases sound.circular index owned with ⟨old, old_tail⟩
    rw [sound.numSlots_eq index owned] at fresh new_tail
    refine ⟨?_, ?_⟩
    · rw [List.length_append, window_append, ← old]
      refine congrArg (trace.published index ++ ·) (fresh.trans (window_congr old_tail))
    · apply new_tail.trans
      rw [List.length_append, ← Nat.add_assoc, Nat.add_mod, old_tail, ← Nat.add_mod]
  · exact sound.inside

theorem step_reset {ioctl : Ioctl} (sound : trace.Sound start)
    (ordered : start.firstRxRing ≤ start.lastRxRing)
    (present : start.lastRxRing.toNat < start.niRxRings)
    (publishes : trace.KernelPublishes (.reset ioctl)) :
    ∃ next, trace.step (.reset ioctl) = some next ∧ next.Sound start := by
  rcases publishes with ⟨kernel, rfl, grows⟩
  simp only [sound.owns] at grows
  refine ⟨_, rfl, sound.rings ⟨sound.here.last_eq, le_refl _, Or.inl ⟨?_, ?_⟩⟩ grows⟩
  all_goals
    rcases sound.shape with ⟨old, same⟩
    have ordered := UInt16.le_iff_toNat_le.mp ordered
  · simp only [sound.here.last_eq, same]
    exact ordered
  · simp only [same]
    exact Port.rawRxRingAt_of_lt (ordered.trans_lt present)

theorem step_update {pointer position : ℕ} {f : Slot → Slot} (sound : trace.Sound start) :
    ∃ next, trace.step (.update pointer position f) = some next ∧ next.Sound start := by
  refine ⟨_, rfl, ?_⟩
  have updated : ∀ index, (trace.port.updateSlot pointer position f).rings
        (trace.port.rxBase + index) = trace.port.rxRing index ∨
      (trace.port.updateSlot pointer position f).rings (trace.port.rxBase + index) =
        (trace.port.rxRing index).updateSlot position f := by
    intro index
    by_cases here : trace.port.rxBase + index = pointer
    · right
      simp [Port.updateSlot, Port.setRing, Port.rxRing, here]
    · left
      simp [Port.updateSlot, Port.setRing, Port.rxRing, Function.update_of_ne here]
  have kept := @Sound.rings start trace sound
    (trace.port.updateSlot pointer position f).rings trace.rx (sound.here.rings rfl) (by
      intro index owned
      rcases updated index with same | same
      · rw [same]
        exact NetmapRing.grows_self (sound.valid index owned)
      · rw [same]
        exact NetmapRing.grows_updateSlot (sound.valid index owned) position f)
  have nothing : (fun index => trace.published index ++ (trace.port.rxRing index).freshSlots
      ((trace.port.updateSlot pointer position f).rings (trace.port.rxBase + index))) =
      trace.published := by
    funext index
    rcases updated index with same | same <;> simp [same]
  rw [nothing] at kept
  exact kept

theorem step_sound {action : RxAction} (sound : trace.Sound start)
    (ordered : start.firstRxRing ≤ start.lastRxRing)
    (present : start.lastRxRing.toNat < start.niRxRings)
    (publishes : trace.KernelPublishes action) :
    ∃ next, trace.step action = some next ∧ next.Sound start := by
  cases action with
  | next => exact step_next sound present
  | reset ioctl => exact step_reset sound ordered present publishes
  | update pointer position f => exact step_update sound

end Invariant

/-- In every run of the receiver the positions published on a bound ring are consecutive; the
yielded ones are the first of them, in order, and the others are still pending. A call finds
nothing only if nothing is pending from its ring to the end of the interval, and then keeps
finding nothing until a reset. -/
theorem receiver_complete_fifo (start : Port) (ordered : start.firstRxRing ≤ start.lastRxRing)
    (present : start.lastRxRing.toNat < start.niRxRings)
    (valid : ∀ index, start.RxOwns index → (start.rxRing index).Valid)
    (actions : List RxAction)
    (publishes : RunMeets step KernelPublishes (new start) actions) :
    ∃ final, run step (new start) actions = some final ∧
      (∀ index, start.RxOwns index →
        final.published index = final.yieldedAt index ++ (final.port.rxRing index).userSlots ∧
        final.published index = window id (start.rxRing index).numSlots.toNat
          (start.rxRing index).head.toNat (final.published index).length) ∧
      (∀ buf ∈ final.yielded, start.RxOwns buf.ringIdx.toNat ∧
        buf.pointer = start.rxBase + buf.ringIdx.toNat) ∧
      ∃ found rx port, final.rx.next final.port = some (found, rx, port) ∧
        (found = none →
          (∀ index, final.rx.ringIdx ≤ index → index ≤ start.lastRxRing.toNat →
            (final.port.rxRing index).head = (final.port.rxRing index).tail) ∧
          ∀ later, rx.next later = some (none, rx, later)) := by
  rcases run_of_step (Sound start) (fun sound => step_sound sound ordered present)
    (new_sound ordered present valid) publishes with ⟨final, performed, sound⟩
  refine ⟨final, performed, ?_, sound.inside, ?_⟩
  · intro index owned
    exact ⟨sound.published_eq index owned, (sound.circular index owned).1⟩
  · rcases sound.next_cases present with ⟨index, -, -, -, -, found⟩ | ⟨empty, nothing⟩
    · exact ⟨_, _, _, found, by simp⟩
    · exact ⟨_, _, _, nothing, fun _ => ⟨empty, final.rx.next_exhausted⟩⟩

/-- A port with two receive rings of three slots. The first ring has two packets, in its last slot
and its first one; the second is empty. -/
def wrappedPort : Port where
  niTxRings := 1
  niHostTxRings := 0
  niRxRings := 2
  niHostRxRings := 0
  firstTxRing := 0
  lastTxRing := 0
  firstRxRing := 0
  lastRxRing := 1
  niBufsHead := 0
  nrBufSize := 2048
  rings := fun pointer =>
    ⟨3, 2, 2, if pointer = 1 then 1 else 2, List.replicate 3 ⟨0, 0, 0, 0⟩, rfl⟩
  bufs := fun _ => []

def publishSecond : Ioctl :=
  some fun rings => Function.update rings 2 { rings 2 with tail := 0 }

theorem receiver_complete_fifo_wrappedPort :
    ∃ final, run step (new wrappedPort) [.next, .reset publishSecond, .next, .next, .next] =
        some final ∧
      final.published 0 = final.yieldedAt 0 ++ (final.port.rxRing 0).userSlots ∧
      final.yieldedAt 0 = [2, 0] ∧ final.yieldedAt 1 = [2] := by
  have yields : ((run step (new wrappedPort) [.next, .reset publishSecond, .next, .next, .next]).map
      fun final => (final.yieldedAt 0, final.yieldedAt 1)) = some ([2, 0], [2]) := by
    decide +kernel
  rcases receiver_complete_fifo wrappedPort (by decide) (by decide)
    (by
      intro index owned
      have both : ∀ index < 2, (wrappedPort.rxRing index).Valid := by decide
      exact both index (Nat.lt_succ_of_le owned.2))
    [.next, .reset publishSecond, .next, .next, .next] (by decide +kernel) with
    ⟨final, performed, published, -, -⟩
  rw [performed, Option.map_some, Option.some.injEq, Prod.mk.injEq] at yields
  exact ⟨final, performed, (published 0 ⟨by decide, by decide⟩).1, yields⟩

end RxTrace

end Nethuns.Netmap
