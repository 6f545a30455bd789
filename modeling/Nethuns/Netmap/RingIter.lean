import Mathlib.Logic.Function.Iterate
import Nethuns.Lib.Run
import Nethuns.Netmap.Rings

/-!
# Iterating over the slots of the user

`RingIterMut` has its own version of the cursor arithmetic of `netmap_user.h`. It advances like
`nm_ring_next`, and stops where `nm_ring_space` says that no slot is left. Between two calls the
user writes to the slots it was given; the tail stays where it is, since the kernel moves it during
an `ioctl` only.

`nm_ring_space` takes the difference of the cursors as an `int`. So on a ring of more than `2 ^ 31`
slots it can be off, and the iterator is the one that counts right.
-/

namespace Nethuns.Netmap

open Nethuns.Lib

namespace NetmapRing

/-- `nm_ring_next`. -/
def nmRingNext (ring : NetmapRing) (i : UInt32) : UInt32 :=
  if i + 1 = ring.numSlots then 0 else i + 1

/-- `nm_ring_space`. The sum is taken without sign, and stored in the `int` again. -/
def nmRingSpace (ring : NetmapRing) : UInt32 :=
  let ret : Int32 := (ring.tail - ring.head).toInt32
  let ret := if ret < 0 then (ret.toUInt32 + ring.numSlots).toInt32 else ret
  ret.toUInt32

/-- The difference of the cursors fits an `int`. -/
def CloseCursors (ring : NetmapRing) : Prop :=
  if ring.head ≤ ring.tail then
    ring.tail.toNat - ring.head.toNat < 2 ^ 31
  else
    ring.head.toNat - ring.tail.toNat ≤ 2 ^ 31

/-- The position is in `[head, tail)`, going round the ring. -/
def Between (ring : NetmapRing) (position : ℕ) : Prop :=
  if ring.head ≤ ring.tail then
    ring.head.toNat ≤ position ∧ position < ring.tail.toNat
  else
    (ring.head.toNat ≤ position ∧ position < ring.numSlots.toNat) ∨ position < ring.tail.toNat

end NetmapRing

/-- A ring, and what the calls of `RingIterMut::next` have returned so far. -/
structure RingIter where
  ring : NetmapRing
  results : List (Option ℕ)
deriving DecidableEq

inductive IterAction
  | next
  /-- The user writes to a slot that it was given. -/
  | update (position : ℕ) (f : Slot → Slot)

namespace RingIter

/-- Performs one action; `none` when the user does not have the slot. -/
def step (iter : RingIter) : IterAction → Option RingIter
  | .next => some ⟨iter.ring.next.2, iter.results ++ [iter.ring.next.1]⟩
  | .update position f =>
      if some position ∈ iter.results then
        some { iter with ring := iter.ring.updateSlot position f }
      else
        none

/-- How many slots an iteration over the ring has taken. -/
def taken (ring : NetmapRing) (iter : RingIter) : ℕ := min iter.results.length ring.userCount

/-- Where an iteration over the ring has come. -/
structure Iterated (ring : NetmapRing) (iter : RingIter) : Prop where
  /-- The slots of the user in order, and after them nothing. -/
  results : iter.results = (List.range iter.results.length).map fun call =>
    if call < ring.userCount then
      some ((ring.head.toNat + call) % ring.numSlots.toNat)
    else
      none
  numSlots : iter.ring.numSlots = ring.numSlots
  tail : iter.ring.tail = ring.tail
  head_lt : iter.ring.head < ring.numSlots
  head : iter.ring.head = ring.nmRingNext^[iter.taken ring] ring.head
  /-- The head has not passed the tail: what it has passed is missing from what was left. -/
  left : iter.ring.userCount + iter.taken ring = ring.userCount
  cur : iter.ring.cur = if 0 < iter.taken ring then iter.ring.head else ring.cur
  /-- A call that returns nothing has found no slot left: the lookup never fails. -/
  lookup : iter.ring.next.1 = none → iter.ring.head = iter.ring.tail
  outside : ∀ position, ¬ring.Between position →
    some position ∉ iter.results ∧ iter.ring.slots[position]? = ring.slots[position]?

end RingIter

/-! ## The arithmetic of netmap -/

theorem toInt32_neg_iff (n : UInt32) : n.toInt32 < 0 ↔ 2 ^ 31 ≤ n.toNat := by
  have value : n.toInt32.toInt = if 2 * n.toNat < 2 ^ 32 then (n.toNat : ℤ) else n.toNat - 2 ^ 32 :=
    BitVec.toInt_eq_toNat_cond n.toBitVec
  have small := n.toNat_lt
  rw [Int32.lt_iff_toInt_lt, value, Int32.toInt_zero]
  split <;> omega

namespace NetmapRing

variable {ring : NetmapRing}

theorem nmRingSpace_eq (ring : NetmapRing) :
    ring.nmRingSpace = if 2 ^ 31 ≤ (ring.tail - ring.head).toNat then
      ring.tail - ring.head + ring.numSlots else ring.tail - ring.head := by
  simp only [nmRingSpace, toInt32_neg_iff]
  split
  · rw [UInt32.toUInt32_toInt32, UInt32.toUInt32_toInt32]
  · rw [UInt32.toUInt32_toInt32]

/-- `nm_ring_space` counts right exactly when the difference of the cursors fits an `int`. -/
theorem Valid.nmRingSpace_eq_iff (valid : ring.Valid) :
    ring.nmRingSpace.toNat = ring.userCount ↔ ring.CloseCursors := by
  have head_lt := valid.head_toNat_lt
  have tail_lt := valid.tail_toNat_lt
  have small := ring.numSlots.toNat_lt
  have difference := UInt32.toNat_sub ring.tail ring.head
  have whole := UInt32.toNat_add (ring.tail - ring.head) ring.numSlots
  rw [nmRingSpace_eq, apply_ite UInt32.toNat, whole, userCount, distance, CloseCursors]
  simp only [UInt32.le_iff_toNat_le]
  by_cases ordered : ring.head.toNat ≤ ring.tail.toNat
  · simp only [ordered, if_true]
    split <;> omega
  · simp only [ordered, if_false]
    split <;> omega

theorem closeCursors_of_le (valid : ring.Valid) (small : ring.numSlots.toNat ≤ 2 ^ 31) :
    ring.CloseCursors := by
  have head_lt := valid.head_toNat_lt
  have tail_lt := valid.tail_toNat_lt
  rw [CloseCursors]
  split <;> omega

theorem Valid.between_iff (valid : ring.Valid) {position : ℕ} :
    ring.Between position ↔
      ∃ call < ring.userCount, position = (ring.head.toNat + call) % ring.numSlots.toNat := by
  rw [userCount, exists_mod_iff valid.head_toNat_lt valid.tail_toNat_lt, Between]
  simp only [UInt32.le_iff_toNat_le]

end NetmapRing

/-! ## The iteration -/

namespace RingIter

variable {ring : NetmapRing} {iter after : RingIter} {action : IterAction}

/-- What each step preserves. -/
structure Going (ring : NetmapRing) (iter : RingIter) : Prop where
  results : iter.results = (List.range iter.results.length).map fun call =>
    if call < ring.userCount then
      some ((ring.head.toNat + call) % ring.numSlots.toNat)
    else
      none
  numSlots : iter.ring.numSlots = ring.numSlots
  tail : iter.ring.tail = ring.tail
  valid : iter.ring.Valid
  head : iter.ring.head = ring.nmRingNext^[iter.taken ring] ring.head
  head_toNat : iter.ring.head.toNat =
    (ring.head.toNat + iter.taken ring) % ring.numSlots.toNat
  left : iter.ring.userCount + iter.taken ring = ring.userCount
  cur : iter.ring.cur = if 0 < iter.taken ring then iter.ring.head else ring.cur
  kept : ∀ position, some position ∉ iter.results →
    iter.ring.slots[position]? = ring.slots[position]?

theorem start_going (valid : ring.Valid) : Going ring ⟨ring, []⟩ := by
  have none_taken : taken ring ⟨ring, []⟩ = 0 := by simp [taken]
  refine ⟨rfl, rfl, rfl, valid, ?_, ?_, ?_, ?_, fun _ _ => rfl⟩
  · rw [none_taken, Function.iterate_zero, id]
  · rw [none_taken, Nat.add_zero, Nat.mod_eq_of_lt valid.head_toNat_lt]
  · rw [none_taken, Nat.add_zero]
  · rw [none_taken, if_neg (Nat.lt_irrefl 0)]

theorem results_snoc {results : List (Option ℕ)} {result : Option ℕ} {nth : ℕ → Option ℕ}
    (sofar : results = (List.range results.length).map nth) (last : result = nth results.length) :
    results ++ [result] = (List.range (results ++ [result]).length).map nth := by
  rw [List.length_append, List.length_singleton, List.range_succ, List.map_append, ← sofar, last]
  rfl

theorem step_next_of_ne {results : List (Option ℕ)} (valid : ring.Valid)
    (some_left : ring.head ≠ ring.tail) :
    step ⟨ring, results⟩ .next = some ⟨ring.advance, results ++ [some ring.head.toNat]⟩ := by
  simp only [step, (valid.next_of_ne some_left).1]

theorem step_next_of_eq {results : List (Option ℕ)} (empty : ring.head = ring.tail) :
    step ⟨ring, results⟩ .next = some ⟨ring, results ++ [none]⟩ := by
  simp only [step, NetmapRing.next_of_eq empty]

/-- A call that finds no slot left. -/
theorem Going.of_eq (going : Going ring iter) (empty : iter.ring.head = iter.ring.tail) :
    Going ring ⟨iter.ring, iter.results ++ [none]⟩ := by
  have left := going.left
  have all_taken : iter.taken ring = ring.userCount := by
    have nothing := (distance_eq_zero going.valid.head_toNat_lt).mpr
      (congrArg UInt32.toNat empty)
    have counted : iter.ring.userCount = 0 := nothing
    omega
  have same : taken ring ⟨iter.ring, iter.results ++ [none]⟩ = iter.taken ring := by
    simp only [taken, List.length_append, List.length_singleton] at all_taken ⊢
    omega
  refine ⟨?_, going.numSlots, going.tail, going.valid, ?_, ?_, ?_, ?_, ?_⟩
  · apply results_snoc going.results
    rw [if_neg]
    simp only [taken] at all_taken
    omega
  · rw [same]
    exact going.head
  · rw [same]
    exact going.head_toNat
  · rw [same]
    exact left
  · rw [same]
    exact going.cur
  · intro position absent
    apply going.kept
    simpa using absent

/-- A call that yields a slot. -/
theorem Going.of_ne (going : Going ring iter) (some_left : iter.ring.head ≠ iter.ring.tail) :
    Going ring ⟨iter.ring.advance, iter.results ++ [some iter.ring.head.toNat]⟩ := by
  have left := going.left
  have valid := (going.valid.next_of_ne some_left).2.1
  have shorter := going.valid.userCount_advance some_left
  -- As long as slots are left, every call so far has yielded one.
  have all_yielded : iter.taken ring = iter.results.length := by
    simp only [taken] at left ⊢
    omega
  have one_more : taken ring ⟨iter.ring.advance, iter.results ++ [some iter.ring.head.toNat]⟩ =
      iter.taken ring + 1 := by
    simp only [taken, List.length_append, List.length_singleton] at left ⊢
    omega
  refine ⟨?_, going.numSlots, going.tail, valid, ?_, ?_, ?_, ?_, ?_⟩
  · apply results_snoc going.results
    have inside : iter.results.length < ring.userCount := by omega
    rw [if_pos inside, going.head_toNat, all_yielded]
  · rw [one_more, Function.iterate_succ_apply', ← going.head]
    simp only [NetmapRing.advance, NetmapRing.nextHead, NetmapRing.nmRingNext, going.numSlots]
  · rw [one_more, ← Nat.add_assoc, ← Nat.mod_add_mod, ← going.head_toNat, ← going.numSlots]
    calc iter.ring.nextHead.toNat
        = iter.ring.nextHead.toNat % iter.ring.numSlots.toNat :=
          (Nat.mod_eq_of_lt valid.head_toNat_lt).symm
      _ = (iter.ring.head.toNat + 1) % iter.ring.numSlots.toNat := by
          rw [going.valid.nextHead_toNat, next_mod]
  · rw [one_more]
    change iter.ring.advance.userCount + _ = _
    omega
  · rw [one_more, if_pos (Nat.succ_pos _)]
    rfl
  · intro position absent
    apply going.kept
    simp only [List.mem_append, not_or] at absent
    exact absent.1

theorem Going.next (going : Going ring iter) (stepped : iter.step .next = some after) :
    Going ring after := by
  by_cases empty : iter.ring.head = iter.ring.tail
  · rw [step_next_of_eq empty, Option.some.injEq] at stepped
    exact stepped ▸ going.of_eq empty
  · rw [step_next_of_ne going.valid empty, Option.some.injEq] at stepped
    exact stepped ▸ going.of_ne empty

theorem Going.update {position : ℕ} {f : Slot → Slot} (going : Going ring iter)
    (stepped : iter.step (.update position f) = some after) : Going ring after := by
  simp only [step] at stepped
  split at stepped
  · rename_i yielded
    simp only [Option.some.injEq] at stepped
    subst after
    refine ⟨going.results, going.numSlots, going.tail, ⟨going.valid.1, going.valid.2⟩, going.head,
      going.head_toNat, going.left, going.cur, ?_⟩
    intro other absent
    have apart : position ≠ other := by
      rintro rfl
      exact absent yielded
    simp only [NetmapRing.updateSlot, List.getElem?_modify, if_neg apart]
    simpa using going.kept other absent
  · simp at stepped

theorem Going.step (going : Going ring iter) (stepped : iter.step action = some after) :
    Going ring after := by
  cases action with
  | next => exact going.next stepped
  | update position f => exact going.update stepped

theorem Going.between (going : Going ring iter) (valid : ring.Valid) {position : ℕ}
    (yielded : some position ∈ iter.results) : ring.Between position := by
  rw [going.results, List.mem_map] at yielded
  rcases yielded with ⟨call, -, same⟩
  split at same
  · rename_i some_left
    exact valid.between_iff.mpr ⟨call, some_left, (Option.some.inj same).symm⟩
  · simp at same

theorem Going.iterated (going : Going ring iter) (valid : ring.Valid) : Iterated ring iter := by
  refine ⟨going.results, going.numSlots, going.tail, going.numSlots ▸ going.valid.head_lt,
    going.head, going.left, going.cur, ?_, ?_⟩
  · intro nothing
    by_contra some_left
    rw [(going.valid.next_of_ne some_left).1] at nothing
    simp at nothing
  · intro position outside
    have absent : some position ∉ iter.results := fun yielded =>
      outside (going.between valid yielded)
    exact ⟨absent, going.kept position absent⟩

/-- The iterator yields the slots of `[head, tail)` in order and then nothing, whatever the user
writes to them. Their number is the difference of the cursors modulo the size of the ring, and what
`nm_ring_space` says exactly when this difference fits an `int`. -/
theorem ring_iter_refines {ring : NetmapRing} {actions : List IterAction} {iter : RingIter}
    (valid : ring.Valid) (performed : run RingIter.step ⟨ring, []⟩ actions = some iter) :
    Iterated ring iter ∧
      (ring.userCount : ℤ) = ((ring.tail.toNat : ℤ) - ring.head.toNat) % ring.numSlots.toNat ∧
      (ring.nmRingSpace.toNat = ring.userCount ↔ ring.CloseCursors) ∧
      (ring.numSlots.toNat ≤ 2 ^ 31 → ring.CloseCursors) := by
  have going : Going ring iter :=
    run_invariant_of_step (Going ring) Going.step (start_going valid) performed
  refine ⟨going.iterated valid, ?_, valid.nmRingSpace_eq_iff, NetmapRing.closeCursors_of_le valid⟩
  exact distance_eq_emod valid.head_toNat_lt valid.tail_toNat_lt

/-- Two slots at the end of the ring and one at its start. -/
def wrappedRing : NetmapRing := ⟨4, 2, 2, 1, List.replicate 4 ⟨0, 0, 0, 0⟩, rfl⟩

theorem ring_iter_refines_wrappedRing :
    Iterated wrappedRing ⟨{ wrappedRing with head := 1, cur := 1 },
      [some 2, some 3, some 0, none, none]⟩ := by
  have valid : wrappedRing.Valid := by decide
  have performed : run step ⟨wrappedRing, []⟩ (List.replicate 5 .next) =
      some ⟨{ wrappedRing with head := 1, cur := 1 }, [some 2, some 3, some 0, none, none]⟩ := by
    rfl
  exact (ring_iter_refines valid performed).1

/-- A ring with more slots than an `int` can count. -/
def hugeRing : NetmapRing :=
  ⟨2147483649, 0, 0, 2147483648, List.replicate 2147483649 ⟨0, 0, 0, 0⟩, List.length_replicate⟩

/-- An empty ring whose `cur` is not at the head. -/
def strayRing : NetmapRing := ⟨2, 0, 1, 0, List.replicate 2 ⟨0, 0, 0, 0⟩, rfl⟩

/-- The iterator yields two slots where `nm_ring_space` counts one, and a call that returns nothing
does not bring `cur` to the head. -/
theorem ring_iter_strays :
    (hugeRing.Valid ∧ hugeRing.nmRingSpace = 1 ∧
      ∃ iter, run step ⟨hugeRing, []⟩ [.next, .next] = some iter ∧
        iter.results = [some 0, some 1]) ∧
      strayRing.Valid ∧
        ∃ iter, run step ⟨strayRing, []⟩ [.next] = some iter ∧ iter.ring.cur ≠ iter.ring.head := by
  have valid : hugeRing.Valid := by decide
  have first_left : hugeRing.head ≠ hugeRing.tail := by decide
  have second_left : hugeRing.advance.head ≠ hugeRing.advance.tail := by decide
  have valid' := (valid.next_of_ne first_left).2.1
  have positions : hugeRing.head.toNat = 0 ∧ hugeRing.advance.head.toNat = 1 := by decide
  refine ⟨⟨valid, by decide, ?_⟩, by decide, _, rfl, by decide⟩
  refine ⟨⟨hugeRing.advance.advance, [some hugeRing.head.toNat,
    some hugeRing.advance.head.toNat]⟩, ?_, by simp only [positions.1, positions.2]⟩
  apply run_cons_eq_some.mpr
  refine ⟨_, step_next_of_ne valid first_left, ?_⟩
  apply run_cons_eq_some.mpr
  exact ⟨_, step_next_of_ne valid' second_left, rfl⟩

end RingIter

end Nethuns.Netmap
