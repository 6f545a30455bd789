import Mathlib.Data.List.Basic
import Mathlib.Data.Multiset.AddSub

/-!
# Fixed-capacity vectors

The `ArrayVec` of the `arrayvec` crate: a vector stored inline, which never holds more than
its capacity. The bound is a field, so that no operation can build an overfull vector; the
operations that would exceed it return `none` where the crate returns `Err` or panics.
-/

namespace Nethuns

universe u

/-- `ArrayVec<T, CAP>`: the initialized elements, in storage order. -/
structure ArrayVec (α : Type u) (cap : ℕ) where
  /-- The first `len` elements of the storage. -/
  elems : List α
  length_le : elems.length ≤ cap
deriving DecidableEq

namespace ArrayVec

variable {α : Type u} {cap : ℕ}

def new : ArrayVec α cap := ⟨[], by simp⟩

def len (vec : ArrayVec α cap) : ℕ := vec.elems.length

def isEmpty (vec : ArrayVec α cap) : Bool := vec.len == 0

def isFull (vec : ArrayVec α cap) : Bool := vec.len == cap

/-- `ArrayVec::try_push`: `none` is the `CapacityError` that hands the element back. -/
def tryPush (vec : ArrayVec α cap) (element : α) : Option (ArrayVec α cap) :=
  if room : vec.elems.length < cap then
    some ⟨vec.elems ++ [element], by
      simp only [List.length_append, List.length_singleton]
      omega⟩
  else
    none

/-- `ArrayVec::pop`: takes the last element. -/
def pop (vec : ArrayVec α cap) : Option α × ArrayVec α cap :=
  (vec.elems.getLast?, ⟨vec.elems.dropLast, by
    have := vec.length_le
    simp only [List.length_dropLast]
    omega⟩)

/-- `ArrayVec::drain(..count)`: removes the first `count` elements. -/
def drain (vec : ArrayVec α cap) (count : ℕ) : ArrayVec α cap :=
  ⟨vec.elems.drop count, by
    have := vec.length_le
    simp only [List.length_drop]
    omega⟩

@[ext]
theorem ext {left right : ArrayVec α cap} (same : left.elems = right.elems) : left = right := by
  cases left
  cases right
  simp_all

@[simp]
theorem new_elems : (new : ArrayVec α cap).elems = [] := rfl

@[simp]
theorem isEmpty_iff (vec : ArrayVec α cap) : vec.isEmpty = true ↔ vec.elems = [] := by
  simp [isEmpty, len]

@[simp]
theorem isFull_iff (vec : ArrayVec α cap) : vec.isFull = true ↔ vec.elems.length = cap := by
  simp [isFull, len]

theorem tryPush_eq_some {vec pushed : ArrayVec α cap} {element : α} :
    vec.tryPush element = some pushed ↔
      vec.elems.length < cap ∧ pushed.elems = vec.elems ++ [element] := by
  unfold tryPush
  split
  · rename_i room
    simp only [Option.some.injEq, room, true_and]
    constructor
    · rintro rfl
      rfl
    · intro same
      exact ext same.symm
  · rename_i full
    simp [full]

theorem tryPush_eq_none {vec : ArrayVec α cap} {element : α} :
    vec.tryPush element = none ↔ vec.elems.length = cap := by
  have := vec.length_le
  unfold tryPush
  split <;> simp <;> omega

theorem pop_eq_none {vec rest : ArrayVec α cap} (popped : vec.pop = (none, rest)) :
    vec.elems = [] := by
  simp only [pop, Prod.mk.injEq, List.getLast?_eq_none_iff] at popped
  exact popped.1

theorem pop_eq_some {vec rest : ArrayVec α cap} {element : α}
    (popped : vec.pop = (some element, rest)) : vec.elems = rest.elems ++ [element] := by
  simp only [pop, Prod.mk.injEq] at popped
  rcases popped with ⟨last, rfl⟩
  exact (List.dropLast_append_getLast? element last).symm

theorem pop_of_elems_append {vec rest : ArrayVec α cap} {element : α}
    (same : vec.elems = rest.elems ++ [element]) : vec.pop = (some element, rest) := by
  simp only [pop, same, List.getLast?_append, List.getLast?_singleton, Option.some_or,
    List.dropLast_concat]

end ArrayVec

end Nethuns
