import Nethuns.Lib.RingWindow
import Nethuns.Netmap.Port

/-!
# The slots between head and tail

The slots from `head` to `tail`, going round the ring, belong to the user: in a receive ring they
contain the received packets, in a transmit ring they are free. `RingIterMut::next` takes the
first of them. What the development proves about the order of slots rests on this.
-/

namespace Nethuns.Netmap.NetmapRing

open Nethuns.Lib

/-- The cursors point at slots of the ring. -/
structure Valid (ring : NetmapRing) : Prop where
  head_lt : ring.head < ring.numSlots
  tail_lt : ring.tail < ring.numSlots

/-- The number of slots that belong to the user. -/
def userCount (ring : NetmapRing) : ℕ :=
  distance ring.numSlots.toNat ring.head.toNat ring.tail.toNat

/-- The positions of the slots that belong to the user, in order. -/
def userSlots (ring : NetmapRing) : List ℕ :=
  window id ring.numSlots.toNat ring.head.toNat ring.userCount

variable {ring after : NetmapRing}

instance (ring : NetmapRing) : Decidable ring.Valid :=
  decidable_of_iff (ring.head < ring.numSlots ∧ ring.tail < ring.numSlots)
    ⟨fun both => ⟨both.1, both.2⟩, fun valid => ⟨valid.head_lt, valid.tail_lt⟩⟩

theorem Valid.head_toNat_lt (valid : ring.Valid) : ring.head.toNat < ring.numSlots.toNat :=
  UInt32.lt_iff_toNat_lt.mp valid.head_lt

theorem Valid.tail_toNat_lt (valid : ring.Valid) : ring.tail.toNat < ring.numSlots.toNat :=
  UInt32.lt_iff_toNat_lt.mp valid.tail_lt

theorem Valid.userSlots_eq_nil (valid : ring.Valid) :
    ring.userSlots = [] ↔ ring.head = ring.tail := by
  rw [← List.length_eq_zero_iff, userSlots, length_window, userCount,
    distance_eq_zero valid.head_toNat_lt, UInt32.toNat_inj]

theorem Valid.userCount_lt (valid : ring.Valid) : ring.userCount < ring.numSlots.toNat :=
  distance_lt valid.head_toNat_lt valid.tail_toNat_lt

/-- The cursor that follows `head`. -/
def nextHead (ring : NetmapRing) : UInt32 :=
  if ring.head + 1 = ring.numSlots then 0 else ring.head + 1

/-- The ring after its first slot is taken. -/
def advance (ring : NetmapRing) : NetmapRing :=
  { ring with head := ring.nextHead, cur := ring.nextHead }

theorem Valid.nextHead_toNat (valid : ring.Valid) :
    ring.nextHead.toNat =
      if ring.head.toNat + 1 = ring.numSlots.toNat then 0 else ring.head.toNat + 1 := by
  have head_lt := valid.head_toNat_lt
  have small := ring.numSlots.toNat_lt
  have succ : (ring.head + 1).toNat = ring.head.toNat + 1 := by
    rw [UInt32.toNat_add]
    exact Nat.mod_eq_of_lt (by simp only [UInt32.toNat_one]; omega)
  rw [nextHead, apply_ite UInt32.toNat, succ]
  simp only [← UInt32.toNat_inj, succ]
  rfl

theorem next_of_eq (empty : ring.head = ring.tail) : ring.next = (none, ring) := by
  simp [next, empty]

theorem Valid.next_of_ne (valid : ring.Valid) (some_left : ring.head ≠ ring.tail) :
    ring.next = (some ring.head.toNat, ring.advance) ∧ ring.advance.Valid ∧
      ring.userSlots = ring.head.toNat :: ring.advance.userSlots := by
  have head_lt := valid.head_toNat_lt
  have tail_lt := valid.tail_toNat_lt
  have next_toNat := valid.nextHead_toNat
  have inside : ring.head.toNat < ring.slots.length := ring.length_slots ▸ head_lt
  refine ⟨?_, ⟨?_, valid.tail_lt⟩, ?_⟩
  · simp only [next, if_neg some_left, if_pos inside, advance, nextHead]
  · rw [UInt32.lt_iff_toNat_lt]
    simp only [advance, next_toNat]
    split <;> omega
  · have apart : ring.head.toNat ≠ ring.tail.toNat := fun same =>
      some_left (UInt32.toNat_inj.mp same)
    have shorter := distance_next head_lt tail_lt apart
    rw [← next_toNat] at shorter
    simp only [userSlots, userCount, advance]
    rw [← shorter, window_succ, Nat.mod_eq_of_lt head_lt]
    refine congrArg (ring.head.toNat :: ·) (window_congr ?_)
    rw [next_toNat, next_mod]

theorem Valid.userCount_advance (valid : ring.Valid) (some_left : ring.head ≠ ring.tail) :
    ring.advance.userCount + 1 = ring.userCount := by
  have shorter := congrArg List.length (valid.next_of_ne some_left).2.2
  simpa [userSlots] using shorter.symm

theorem Valid.nextHead_ne (valid : ring.Valid) (some_left : ring.head ≠ ring.tail) :
    ring.nextHead ≠ ring.head := by
  have head_lt := valid.head_toNat_lt
  have tail_lt := valid.tail_toNat_lt
  have next_toNat := valid.nextHead_toNat
  rw [ne_eq, ← UInt32.toNat_inj] at some_left ⊢
  split at next_toNat <;> omega

/-- The loops over the rings start at a ring and go on to the last one of their interval, but not
past the rings there are. They stop at the first that has a slot for the user. -/
structure FirstReady (rings : ℕ → NetmapRing) (count start last index : ℕ) : Prop where
  start_le : start ≤ index
  le_last : index ≤ last ∨ index = start
  present : index < count
  ready : (rings index).head ≠ (rings index).tail
  passed : ∀ before, start ≤ before → before < index →
    (rings before).head = (rings before).tail

theorem FirstReady.unique {rings : ℕ → NetmapRing} {count start last index other : ℕ}
    (first : FirstReady rings count start last index)
    (second : FirstReady rings count start last other) : index = other := by
  rcases Nat.lt_trichotomy index other with earlier | same | later
  · exact absurd (second.passed index first.start_le earlier) first.ready
  · exact same
  · exact absurd (first.passed other second.start_le later) second.ready

/-- Past a ring without a slot for the user, the search is that of the rest of the interval. -/
theorem firstReady_succ {rings : ℕ → NetmapRing} {count start last index : ℕ}
    (empty : (rings start).head = (rings start).tail) (more : start + 1 ≤ last) :
    FirstReady rings count start last index ↔ FirstReady rings count (start + 1) last index := by
  constructor
  · intro first
    have apart : start ≠ index := by
      rintro rfl
      exact first.ready empty
    have start_lt : start < index := lt_of_le_of_ne first.start_le apart
    refine ⟨start_lt, ?_, first.present, first.ready,
      fun before lower => first.passed before (by omega)⟩
    rcases first.le_last with upper | same
    · exact Or.inl upper
    · omega
  · intro first
    refine ⟨Nat.le_of_succ_le first.start_le, ?_, first.present, first.ready, ?_⟩
    · rcases first.le_last with upper | same
      · exact Or.inl upper
      · exact Or.inl (same ▸ more)
    · intro before lower upper
      rcases Nat.eq_or_lt_of_le lower with rfl | later
      · exact empty
      · exact first.passed before later upper

/-- The kernel has moved the tail on, not past the head. -/
structure Grows (ring after : NetmapRing) : Prop where
  numSlots_eq : after.numSlots = ring.numSlots
  head_eq : after.head = ring.head
  tail_lt : after.tail < after.numSlots
  userCount_le : ring.userCount ≤ after.userCount

instance (ring after : NetmapRing) : Decidable (ring.Grows after) :=
  decidable_of_iff (after.numSlots = ring.numSlots ∧ after.head = ring.head ∧
      after.tail < after.numSlots ∧ ring.userCount ≤ after.userCount)
    ⟨fun all => ⟨all.1, all.2.1, all.2.2.1, all.2.2.2⟩,
      fun grows => ⟨grows.numSlots_eq, grows.head_eq, grows.tail_lt, grows.userCount_le⟩⟩

/-- The slots that the user has got when the tail has moved on. -/
def freshSlots (ring after : NetmapRing) : List ℕ := after.userSlots.drop ring.userCount

theorem grows_updateSlot (valid : ring.Valid) (position : ℕ) (f : Slot → Slot) :
    ring.Grows (ring.updateSlot position f) :=
  ⟨rfl, rfl, valid.tail_lt, le_refl _⟩

@[simp]
theorem freshSlots_updateSlot (ring : NetmapRing) (position : ℕ) (f : Slot → Slot) :
    ring.freshSlots (ring.updateSlot position f) = [] := by
  apply List.drop_of_length_le
  simp [userSlots, userCount, updateSlot]

theorem grows_self (valid : ring.Valid) : ring.Grows ring := ⟨rfl, rfl, valid.tail_lt, le_refl _⟩

/-- The ring when the kernel has done what it can: all slots but one belong to the user. -/
def giveAll (ring : NetmapRing) : NetmapRing :=
  { ring with tail := if ring.head = 0 then ring.numSlots - 1 else ring.head - 1 }

theorem Valid.giveAll_tail (valid : ring.Valid) :
    ring.giveAll.tail.toNat =
      if ring.head.toNat = 0 then ring.numSlots.toNat - 1 else ring.head.toNat - 1 := by
  have head_lt := valid.head_toNat_lt
  have one_le : (1 : UInt32) ≤ ring.numSlots := by
    rw [UInt32.le_iff_toNat_le, UInt32.toNat_one]
    omega
  have zero : ring.head = 0 ↔ ring.head.toNat = 0 := UInt32.toNat_inj.symm
  simp only [giveAll, zero]
  split
  · rw [UInt32.toNat_sub_of_le _ _ one_le, UInt32.toNat_one]
  · rename_i head_ne
    have one_le_head : (1 : UInt32) ≤ ring.head := by
      rw [UInt32.le_iff_toNat_le, UInt32.toNat_one]
      exact Nat.pos_of_ne_zero head_ne
    rw [UInt32.toNat_sub_of_le _ _ one_le_head, UInt32.toNat_one]

theorem Valid.giveAll_tail_lt (valid : ring.Valid) : ring.giveAll.tail < ring.numSlots := by
  have head_lt := valid.head_toNat_lt
  rw [UInt32.lt_iff_toNat_lt, valid.giveAll_tail]
  split <;> omega

theorem giveAll_grows (valid : ring.Valid) : ring.Grows ring.giveAll := by
  refine ⟨rfl, rfl, valid.giveAll_tail_lt, ?_⟩
  have head_lt := valid.head_toNat_lt
  have bound := valid.userCount_lt
  have all : ring.giveAll.userCount = ring.numSlots.toNat - 1 := by
    rw [userCount, valid.giveAll_tail, distance]
    simp only [giveAll]
    split <;> split <;> omega
  omega

@[simp]
theorem freshSlots_self (ring : NetmapRing) : ring.freshSlots ring = [] := by
  apply List.drop_of_length_le
  simp [userSlots]

theorem Grows.valid (grows : ring.Grows after) (valid : ring.Valid) : after.Valid := by
  refine ⟨?_, grows.tail_lt⟩
  rw [grows.head_eq, grows.numSlots_eq]
  exact valid.head_lt

/-- The fresh slots follow the old tail, and the new tail follows the fresh slots. -/
theorem Grows.freshSlots_eq (grows : ring.Grows after) (valid : ring.Valid) :
    after.userSlots = ring.userSlots ++ ring.freshSlots after ∧
      ring.freshSlots after = window id ring.numSlots.toNat ring.tail.toNat
        (ring.freshSlots after).length ∧
      after.tail.toNat % ring.numSlots.toNat =
        (ring.tail.toNat + (ring.freshSlots after).length) % ring.numSlots.toNat := by
  rcases Nat.exists_eq_add_of_le grows.userCount_le with ⟨more, counted⟩
  have old_tail : (ring.head.toNat + ring.userCount) % ring.numSlots.toNat =
      ring.tail.toNat % ring.numSlots.toNat :=
    add_distance_mod valid.head_toNat_lt
  have new_tail : (ring.head.toNat + after.userCount) % ring.numSlots.toNat =
      after.tail.toNat % ring.numSlots.toNat := by
    have valid' := grows.valid valid
    rw [← grows.head_eq, ← grows.numSlots_eq]
    exact add_distance_mod valid'.head_toNat_lt
  have fresh : ring.freshSlots after =
      window id ring.numSlots.toNat ring.tail.toNat more := by
    rw [freshSlots, userSlots, counted, window_append, grows.head_eq, grows.numSlots_eq,
      List.drop_left' length_window]
    exact window_congr old_tail
  have length_fresh : (ring.freshSlots after).length = more := by rw [fresh, length_window]
  refine ⟨?_, ?_, ?_⟩
  · have taken : after.userSlots.take ring.userCount = ring.userSlots := by
      rw [userSlots, counted, window_append, grows.head_eq, grows.numSlots_eq]
      exact List.take_left' length_window
    rw [freshSlots, ← taken, List.take_append_drop]
  · rw [length_fresh]
    exact fresh
  · rw [length_fresh, ← new_tail, counted, ← Nat.add_assoc, Nat.add_mod, old_tail, ← Nat.add_mod]

end Nethuns.Netmap.NetmapRing

theorem Nethuns.Netmap.Port.setRing_self (port : Port) (pointer : ℕ) :
    port.setRing pointer (port.rings pointer) = port := by
  simp [setRing]
