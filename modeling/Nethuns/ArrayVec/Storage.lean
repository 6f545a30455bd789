import Nethuns.ArrayVec
import Nethuns.Lib.Cells

/-!
# The storage of a fixed-capacity vector

An `ArrayVec` is an array of cells of which the first `len` are initialized. Its operations are
raw reads, writes and copies on the array, around which they move the length. Here they run on the
cells. An operation is `none` where it reads an uninitialized cell, leaves the array, or fails the
debug assertion on the length; a panic that the crate documents is an outcome like any other.

A value whose destructor panics can unwind out of an operation in the middle, and a second one
that panics meanwhile aborts the process. Which values do is a parameter.

The values are of a type that is not zero-sized. For a zero-sized one `extend_from_iter` counts the
elements without writing them, and drops each of them on the way; that branch is not modelled here,
and nothing is said of such vectors.
-/

namespace Nethuns.ArrayVec

open Nethuns.Lib

universe u

/-- The fields of `ArrayVec<T, CAP>`. -/
structure Storage (α : Type u) (cap : ℕ) where
  xs : Cells α
  len : ℕ

/-- How a call ends. -/
inductive Exit
  | returns
  | unwinds
  | aborts
deriving DecidableEq

section

variable {α : Type u}

/-- What is dropped of a list of values, up to the first one whose destructor panics, and the
values behind it. -/
def dropUntilPanic (panics : α → Bool) : List α → List α × List α
  | [] => ([], [])
  | value :: values =>
      if panics value then
        ([value], values)
      else
        let (dropped, rest) := dropUntilPanic panics values
        (value :: dropped, rest)

theorem dropUntilPanic_append (panics : α → Bool) (values : List α) :
    (dropUntilPanic panics values).1 ++ (dropUntilPanic panics values).2 = values := by
  induction values with
  | nil => rfl
  | cons value values ih =>
      simp only [dropUntilPanic]
      split
      · rfl
      · exact congrArg (value :: ·) ih

theorem dropUntilPanic_of_none {panics : α → Bool} {values : List α}
    (none_panics : values.any panics = false) : dropUntilPanic panics values = (values, []) := by
  induction values with
  | nil => rfl
  | cons value values ih =>
      simp only [List.any_cons, Bool.or_eq_false_iff] at none_panics
      rw [dropUntilPanic, if_neg (by simp [none_panics.1]), ih none_panics.2]

/-- `ptr::drop_in_place` of a slice: a panic does not keep the other values from being dropped,
but a second one does. -/
def dropInPlace (panics : α → Bool) (values : List α) : List α × Exit :=
  if values.any panics then
    let (first, rest) := dropUntilPanic panics values
    if rest.any panics then (first ++ (dropUntilPanic panics rest).1, .aborts)
    else (values, .unwinds)
  else
    (values, .returns)

end

namespace Storage

variable {α : Type u} {cap : ℕ}

def new : Storage α cap := ⟨fun _ => none, 0⟩

def ptrRead (storage : Storage α cap) (index : ℕ) : Option α :=
  if index < cap then storage.xs index else none

def ptrWrite (storage : Storage α cap) (index : ℕ) (element : α) : Option (Storage α cap) :=
  if index < cap then some { storage with xs := storage.xs.write index element } else none

def ptrCopy (storage : Storage α cap) (source target count : ℕ) : Option (Storage α cap) :=
  if source + count ≤ cap ∧ target + count ≤ cap then
    some { storage with xs := storage.xs.copy source target count }
  else
    none

/-- The values of a slice of the array, as `ptr::drop_in_place` finds them. -/
def slice (storage : Storage α cap) (start count : ℕ) : Option (List α) :=
  if start + count ≤ cap then storage.xs.readAll start count else none

/-- `ArrayVec::set_len`, with its debug assertion. -/
def setLen (storage : Storage α cap) (length : ℕ) : Option (Storage α cap) :=
  if length ≤ cap then some { storage with len := length } else none

def pushUnchecked (storage : Storage α cap) (element : α) : Option (Storage α cap) :=
  (storage.ptrWrite storage.len element).bind fun written => written.setLen (storage.len + 1)

/-- `ArrayVec::try_push`: an error hands the element back. -/
def tryPush (storage : Storage α cap) (element : α) : Option (Except α (Storage α cap)) :=
  if storage.len < cap then (storage.pushUnchecked element).map .ok
  else some (.error element)

def pop (storage : Storage α cap) : Option (Option α × Storage α cap) :=
  if storage.len = 0 then
    some (none, storage)
  else
    (storage.setLen (storage.len - 1)).bind fun shortened =>
      (shortened.ptrRead (storage.len - 1)).map fun element => (some element, shortened)

/-- `ArrayVec::truncate`, with the values that it drops. -/
def truncate (storage : Storage α cap) (newLen : ℕ) : Option (List α × Storage α cap) :=
  if newLen < storage.len then
    (storage.setLen newLen).bind fun shortened =>
      (shortened.slice newLen (storage.len - newLen)).map fun dropped => (dropped, shortened)
  else
    some ([], storage)

inductive InsertError
  /-- The panic on an index that is out of bounds. -/
  | outOfBounds
  /-- The `CapacityError`. -/
  | full
deriving DecidableEq

/-- `ArrayVec::try_insert`. The element comes back with an error, or is dropped with a panic. -/
def tryInsert (storage : Storage α cap) (index : ℕ) (element : α) :
    Option (Except InsertError (Storage α cap)) :=
  if storage.len < index then
    some (.error .outOfBounds)
  else if storage.len = cap then
    some (.error .full)
  else
    (storage.ptrCopy index (index + 1) (storage.len - index)).bind fun shifted =>
      (shifted.ptrWrite index element).bind fun written =>
        (written.setLen (storage.len + 1)).map .ok

/-- `ArrayVec::swap_pop`. -/
def swapPop (storage : Storage α cap) (index : ℕ) : Option (Option α × Storage α cap) :=
  if storage.len ≤ index then
    some (none, storage)
  else
    (storage.ptrRead index).bind fun element =>
      (storage.ptrRead (storage.len - 1)).bind fun last =>
        (storage.ptrWrite index last).bind fun written =>
          (written.ptrWrite (storage.len - 1) element).bind pop

/-- The loop of `extend_from_iter` over what the iterator yields, from a position on, for a type
with `size_of::<T>() != 0`. It stops at the capacity, with an element in hand that has no place. -/
def extendLoop (storage : Storage α cap) (position : ℕ) :
    List α → Option (Storage α cap × ℕ × List α)
  | [] => some (storage, position, [])
  | element :: rest =>
      if position = cap then
        some (storage, position, element :: rest)
      else
        (storage.ptrWrite position element).bind fun written =>
          written.extendLoop (position + 1) rest

/-- `ArrayVec::extend`: the guard stores the length however the loop ends. The elements that are
left over come with the result. -/
def extend (storage : Storage α cap) (elements : List α) : Option (Storage α cap × List α) :=
  (storage.extendLoop storage.len elements).map fun (written, position, rest) =>
    ({ written with len := position }, rest)

/-- The invariant of the type: the first `len` cells are initialized, here with these values. -/
structure Represents (storage : Storage α cap) (elems : List α) : Prop where
  len_eq : storage.len = elems.length
  holds : storage.xs.Holds 0 elems
  fits : elems.length ≤ cap

variable {storage : Storage α cap} {elems : List α}

theorem new_represents : (new : Storage α cap).Represents [] :=
  ⟨rfl, Cells.holds_nil, Nat.zero_le cap⟩

theorem ptrRead_eq {index : ℕ} {element : α} (inside : index < cap)
    (cell : storage.xs index = some element) : storage.ptrRead index = some element := by
  rw [ptrRead, if_pos inside, cell]

namespace Represents

theorem read {index : ℕ} {element : α} (represents : storage.Represents elems)
    (at_index : elems[index]? = some element) : storage.ptrRead index = some element := by
  have short : index < elems.length := (List.getElem?_eq_some_iff.mp at_index).1
  apply ptrRead_eq (short.trans_le represents.fits)
  simpa using represents.holds.cell at_index

/-- Forgetting the elements from some place on, without touching the cells. -/
theorem take (represents : storage.Represents elems) {count : ℕ} (short : count ≤ elems.length) :
    ({ storage with len := count } : Storage α cap).Represents (elems.take count) := by
  have holds := represents.holds
  rw [← List.take_append_drop count elems, Cells.holds_append] at holds
  have length := List.length_take_of_le short
  exact ⟨length.symm, holds.1, length.trans_le (short.trans represents.fits)⟩

theorem slice_drop (represents : storage.Represents elems) {count : ℕ}
    (short : count ≤ elems.length) :
    storage.slice count (elems.length - count) = some (elems.drop count) := by
  have holds := represents.holds
  rw [← List.take_append_drop count elems, Cells.holds_append, List.length_take_of_le short,
    Nat.zero_add] at holds
  have inside : count + (elems.length - count) ≤ cap := by
    have := represents.fits
    omega
  have length : (elems.drop count).length = elems.length - count := List.length_drop
  rw [slice, if_pos inside, ← length]
  exact holds.2.readAll

/-- A value written behind the last one, and the length raised. -/
theorem snoc (represents : storage.Represents elems) (element : α) (room : elems.length < cap) :
    ({ xs := storage.xs.write elems.length element, len := elems.length + 1 } :
      Storage α cap).Represents (elems ++ [element]) := by
  refine ⟨by simp, ?_, by simpa using Nat.succ_le_of_lt room⟩
  rw [Cells.holds_append, Nat.zero_add]
  refine ⟨represents.holds.write element (Or.inr (by omega)), ?_⟩
  exact ⟨Cells.write_self element, Cells.holds_nil⟩

theorem set (represents : storage.Represents elems) {index : ℕ} (element : α)
    (inside : index < elems.length) :
    ∃ written, storage.ptrWrite index element = some written ∧
      written.Represents (elems.set index element) := by
  refine ⟨_, if_pos (inside.trans_le represents.fits), ?_, ?_, ?_⟩
  · simpa using represents.len_eq
  · have written := represents.holds.write_set element inside
    rwa [Nat.zero_add] at written
  · simpa using represents.fits

end Represents

theorem tryPush_spec (represents : storage.Represents elems) (element : α) :
    if elems.length < cap then
      ∃ pushed : Storage α cap,
        storage.tryPush element = some (.ok pushed) ∧ pushed.Represents (elems ++ [element])
    else
      storage.tryPush element = some (.error element) := by
  split
  · rename_i room
    refine ⟨_, ?_, represents.snoc element room⟩
    simp only [tryPush, pushUnchecked, ptrWrite, setLen, represents.len_eq, room, if_true,
      Option.bind_some, Nat.succ_le_of_lt room, Option.map_some]
  · rename_i full
    simp only [tryPush, represents.len_eq, full, if_false]

theorem pop_spec (represents : storage.Represents elems) :
    ∃ popped, storage.pop = some (elems.getLast?, popped) ∧ popped.Represents elems.dropLast := by
  by_cases empty : elems = []
  · subst empty
    refine ⟨storage, ?_, represents⟩
    have none_left : storage.len = 0 := represents.len_eq
    rw [pop, if_pos none_left]
    rfl
  · have length : 0 < elems.length := List.length_pos_iff.mpr empty
    have some_left : ¬elems.length = 0 := by omega
    have in_bounds : elems.length - 1 ≤ cap := by
      have := represents.fits
      omega
    refine ⟨{ storage with len := elems.length - 1 }, ?_, ?_⟩
    · have last : elems[elems.length - 1]? = elems.getLast? := List.getLast?_eq_getElem?.symm
      rw [List.getLast?_eq_some_getLast empty] at last ⊢
      have cell := represents.read last
      simp only [ptrRead] at cell
      simp only [pop, represents.len_eq, some_left, if_false, setLen, in_bounds, if_true,
        Option.bind_some, ptrRead, cell, Option.map_some]
    · rw [List.dropLast_eq_take]
      exact represents.take (Nat.sub_le _ _)

theorem truncate_spec (represents : storage.Represents elems) (newLen : ℕ) :
    ∃ truncated, storage.truncate newLen = some (elems.drop newLen, truncated) ∧
      truncated.Represents (elems.take newLen) := by
  by_cases shorter : newLen < elems.length
  · have in_bounds : newLen ≤ cap := shorter.le.trans represents.fits
    have dropped := represents.slice_drop shorter.le
    refine ⟨{ storage with len := newLen }, ?_, represents.take shorter.le⟩
    simp only [slice] at dropped
    simp only [truncate, represents.len_eq, shorter, if_true, setLen, in_bounds, Option.bind_some,
      slice, dropped, Option.map_some]
  · have all : elems.length ≤ newLen := Nat.le_of_not_lt shorter
    refine ⟨storage, ?_, ?_⟩
    · rw [truncate, represents.len_eq, if_neg shorter, List.drop_eq_nil_of_le all]
    · rwa [List.take_of_length_le all]

/-- The hole is made before the element is written into it. -/
theorem tryInsert_spec (represents : storage.Represents elems) (index : ℕ) (element : α) :
    if elems.length < index then
      storage.tryInsert index element = some (.error .outOfBounds)
    else if elems.length = cap then
      storage.tryInsert index element = some (.error .full)
    else
      ∃ inserted : Storage α cap, storage.tryInsert index element = some (.ok inserted) ∧
        inserted.Represents (elems.take index ++ element :: elems.drop index) := by
  have fits := represents.fits
  split
  · rename_i outside
    rw [tryInsert, represents.len_eq, if_pos outside]
  · rename_i inside
    split
    · rename_i full
      rw [tryInsert, represents.len_eq, if_neg inside, if_pos full]
    · rename_i room
      have copied : index + (elems.length - index) ≤ cap ∧
          index + 1 + (elems.length - index) ≤ cap := by omega
      have in_bounds : index < cap := by omega
      have longer : elems.length + 1 ≤ cap := by omega
      have prefix_length : (elems.take index).length = index :=
        List.length_take_of_le (by omega)
      have suffix_length : (elems.drop index).length = elems.length - index := List.length_drop
      refine ⟨{ xs := (storage.xs.copy index (index + 1) (elems.length - index)).write index element
                len := elems.length + 1 }, ?_, ?_, ?_, ?_⟩
      · simp only [tryInsert, represents.len_eq, inside, if_false, room, ptrCopy, copied,
          and_self, if_true, Option.bind_some, ptrWrite, in_bounds, setLen, longer,
          Option.map_some]
      · simp only [List.length_append, List.length_cons, prefix_length, suffix_length]
        omega
      · have holds := represents.holds
        rw [← List.take_append_drop index elems, Cells.holds_append, prefix_length,
          Nat.zero_add] at holds
        rw [Cells.holds_append, prefix_length, Nat.zero_add, ← suffix_length]
        refine ⟨?_, Cells.write_self element, ?_⟩
        · apply Cells.Holds.write _ element (Or.inr (by omega))
          exact holds.1.copy_outside (Or.inl (by omega))
        · apply Cells.Holds.write _ element (Or.inl (by omega))
          exact holds.2.copy_target
      · simp only [List.length_append, List.length_cons, prefix_length, suffix_length]
        omega

/-- What `swap_pop` leaves: the last element in the place of the one it takes. -/
def swapRemoved (elems : List α) (index : ℕ) : List α :=
  match elems.getLast? with
  | some last => if index < elems.length then (elems.set index last).dropLast else elems
  | none => elems

theorem swapPop_spec (represents : storage.Represents elems) (index : ℕ) :
    ∃ popped, storage.swapPop index = some (elems[index]?, popped) ∧
      popped.Represents (swapRemoved elems index) := by
  by_cases inside : index < elems.length
  · have nonempty : elems ≠ [] := List.length_pos_iff.mp (by omega)
    have last_inside : elems.length - 1 < elems.length := by omega
    have some_last := List.getLast?_eq_some_getLast nonempty
    have last_cell : elems[elems.length - 1]? = some (elems.getLast nonempty) := by
      rw [← List.getLast?_eq_getElem?, some_last]
    have element_cell : elems[index]? = some elems[index] := List.getElem?_eq_getElem inside
    rcases represents.set (elems.getLast nonempty) inside with
      ⟨middle, write_last, represents_last⟩
    have second_inside :
        elems.length - 1 < (elems.set index (elems.getLast nonempty)).length := by
      rwa [List.length_set]
    rcases represents_last.set elems[index] second_inside with
      ⟨swapped, write_element, represents_both⟩
    rcases pop_spec represents_both with ⟨popped, pop_eq, after⟩
    have in_place : ¬elems.length ≤ index := by omega
    refine ⟨popped, ?_, ?_⟩
    · have taken : ((elems.set index (elems.getLast nonempty)).set (elems.length - 1)
          elems[index]).getLast? = some elems[index] := by
        rw [List.getLast?_eq_getElem?, List.length_set, List.length_set]
        apply List.getElem?_set_self
        rwa [List.length_set]
      rw [taken] at pop_eq
      simp only [swapPop, represents.len_eq, in_place, if_false, represents.read element_cell,
        represents.read last_cell, write_last, write_element, Option.bind_some, pop_eq,
        element_cell]
    · have same : swapRemoved elems index =
          ((elems.set index (elems.getLast nonempty)).set (elems.length - 1)
            elems[index]).dropLast := by
        simp only [swapRemoved, some_last, inside, if_true, List.dropLast_eq_take,
          List.length_set]
        rw [List.take_set_of_le (Nat.le_refl _)]
      rwa [same]
  · have outside : elems.length ≤ index := Nat.le_of_not_lt inside
    refine ⟨storage, ?_, ?_⟩
    · rw [swapPop, represents.len_eq, if_pos outside, List.getElem?_eq_none outside]
    · have same : swapRemoved elems index = elems := by
        unfold swapRemoved
        split <;> simp [inside]
      rwa [same]

theorem extendLoop_spec (holds : storage.xs.Holds 0 elems) (fits : elems.length ≤ cap)
    (items : List α) :
    ∃ written : Storage α cap,
      storage.extendLoop elems.length items =
          some (written, (elems ++ items.take (cap - elems.length)).length,
            items.drop (cap - elems.length)) ∧
        written.xs.Holds 0 (elems ++ items.take (cap - elems.length)) := by
  induction items generalizing storage elems with
  | nil => exact ⟨storage, by simp [extendLoop], by simpa using holds⟩
  | cons element items ih =>
      by_cases full : elems.length = cap
      · refine ⟨storage, ?_, ?_⟩
        · simp [extendLoop, full]
        · simpa [full] using holds
      · have room : elems.length < cap := by omega
        have one_less : cap - elems.length = (cap - (elems.length + 1)) + 1 := by omega
        have length : (elems ++ [element]).length = elems.length + 1 := List.length_append
        have extended : (storage.xs.write elems.length element).Holds 0 (elems ++ [element]) := by
          rw [Cells.holds_append, Nat.zero_add]
          refine ⟨holds.write element (Or.inr (by omega)), ?_⟩
          exact ⟨Cells.write_self element, Cells.holds_nil⟩
        rcases @ih { storage with xs := storage.xs.write elems.length element } _ extended
          (by omega) with ⟨written, looped, held⟩
        rw [length, List.append_assoc] at looped held
        rw [one_less]
        refine ⟨written, ?_, held⟩
        simp only [extendLoop, full, if_false, ptrWrite, room, if_true, Option.bind_some]
        exact looped

/-- The guard keeps what was written, also when the iterator has more than fits. -/
theorem extend_spec (represents : storage.Represents elems) (items : List α) :
    ∃ extended, storage.extend items = some (extended, items.drop (cap - elems.length)) ∧
      extended.Represents (elems ++ items.take (cap - elems.length)) := by
  have fits := represents.fits
  rcases extendLoop_spec represents.holds fits items with ⟨written, looped, held⟩
  refine ⟨{ written with
    len := (elems ++ items.take (cap - elems.length)).length }, ?_, rfl, held, ?_⟩
  · rw [extend, represents.len_eq, looped]
    rfl
  · simp only [List.length_append, List.length_take]
    omega

end Storage

end Nethuns.ArrayVec
