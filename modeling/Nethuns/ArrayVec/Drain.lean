import Nethuns.ArrayVec.Storage

/-!
# Iterators that take elements out of a vector

`Drain` borrows the vector and reads the elements of a range out of it, from both ends. The length
is lowered to the start of the range first, and the tail behind the range moves down when the
iterator is dropped; if that never happens the tail is lost. `IntoIter` owns the vector.
-/

namespace Nethuns.ArrayVec

open Nethuns.Lib

universe u

/-- The fields of `Drain`. Its slice iterator is the range from `front` to `back`. -/
structure Drain where
  tailStart : ℕ
  tailLen : ℕ
  front : ℕ
  back : ℕ
deriving DecidableEq

/-- The fields of `IntoIter`. -/
structure IntoIter (α : Type u) (cap : ℕ) where
  index : ℕ
  v : Storage α cap

variable {α : Type u} {cap : ℕ}

namespace Storage

/-- `ArrayVec::drain_range`. It is `none` when the slice of the range panics. -/
def drainRange (storage : Storage α cap) (start stop : ℕ) : Option (Drain × Storage α cap) :=
  if start ≤ stop ∧ stop ≤ storage.len then
    some (⟨stop, storage.len - stop, start, stop⟩, { storage with len := start })
  else
    none

end Storage

namespace Drain

/-- `Iterator::next`. -/
def next (drain : Drain) (storage : Storage α cap) : Option (Option α × Drain) :=
  if drain.front = drain.back then
    some (none, drain)
  else
    (storage.ptrRead drain.front).map fun element =>
      (some element, { drain with front := drain.front + 1 })

/-- `DoubleEndedIterator::next_back`. -/
def nextBack (drain : Drain) (storage : Storage α cap) : Option (Option α × Drain) :=
  if drain.front = drain.back then
    some (none, drain)
  else
    (storage.ptrRead (drain.back - 1)).map fun element =>
      (some element, { drain with back := drain.back - 1 })

/-- The loop of `Drain::drop`, which drops each element as it comes, and ends early when that
panics. The bound is the number of elements that are left. -/
def exhaust (panics : α → Bool) (storage : Storage α cap) : ℕ → Drain → Option (List α × Bool)
  | 0, _ => some ([], false)
  | bound + 1, drain =>
      (drain.next storage).bind fun
        | (none, _) => some ([], false)
        | (some element, drain) =>
            if panics element then some ([element], true)
            else
              (exhaust panics storage bound drain).map fun (dropped, unwinds) =>
                (element :: dropped, unwinds)

/-- `Drain::drop`: the tail is moved back only if the loop comes to its end. -/
def drop (panics : α → Bool) (drain : Drain) (storage : Storage α cap) :
    Option (Storage α cap × List α × Exit) :=
  (drain.exhaust panics storage (drain.back - drain.front)).bind fun (dropped, unwinds) =>
    if unwinds then
      some (storage, dropped, .unwinds)
    else if 0 < drain.tailLen then
      (storage.ptrCopy drain.tailStart storage.len drain.tailLen).bind fun moved =>
        (moved.setLen (storage.len + drain.tailLen)).map fun restored =>
          (restored, dropped, .returns)
    else
      some (storage, dropped, .returns)

end Drain

/-- `ArrayVec::pop_at`: the element between is taken with a `Drain` that is dropped at once. -/
def Storage.popAt (panics : α → Bool) (storage : Storage α cap) (index : ℕ) :
    Option (Option α × Storage α cap) :=
  if storage.len ≤ index then
    some (none, storage)
  else
    (storage.drainRange index (index + 1)).bind fun (drain, storage) =>
      (drain.next storage).bind fun (element, drain) =>
        (drain.drop panics storage).map fun (storage, _, _) => (element, storage)

namespace IntoIter

/-- `Iterator::next`. -/
def next (iter : IntoIter α cap) : Option (Option α × IntoIter α cap) :=
  if iter.index = iter.v.len then
    some (none, iter)
  else
    (iter.v.ptrRead iter.index).map fun element =>
      (some element, { iter with index := iter.index + 1 })

/-- `DoubleEndedIterator::next_back`. -/
def nextBack (iter : IntoIter α cap) : Option (Option α × IntoIter α cap) :=
  if iter.index = iter.v.len then
    some (none, iter)
  else
    (iter.v.setLen (iter.v.len - 1)).bind fun shortened =>
      (shortened.ptrRead (iter.v.len - 1)).map fun element =>
        (some element, { iter with v := shortened })

/-- `IntoIter::drop`, with the values that it drops. The vector is dropped after it, and has
none left. -/
def drop (iter : IntoIter α cap) : Option (List α) :=
  (iter.v.setLen 0).bind fun emptied =>
    (emptied.slice iter.index (iter.v.len - iter.index)).bind fun dropped =>
      (emptied.truncate 0).map fun (rest, _) => dropped ++ rest

end IntoIter

/-- What a live `Drain` relies on: the elements before the range, the rest of the range and the
tail are in their places. The cells between them have been read out. -/
structure Drain.Represents (drain : Drain) (storage : Storage α cap)
    (before range tail : List α) : Prop where
  len_eq : storage.len = before.length
  holds_before : storage.xs.Holds 0 before
  holds_range : storage.xs.Holds drain.front range
  back_eq : drain.back = drain.front + range.length
  start_le : before.length ≤ drain.front
  back_le : drain.back ≤ drain.tailStart
  holds_tail : storage.xs.Holds drain.tailStart tail
  tailLen_eq : drain.tailLen = tail.length
  fits : drain.tailStart + tail.length ≤ cap

/-- The elements that an `IntoIter` has not yielded are in their places. -/
structure IntoIter.Represents (iter : IntoIter α cap) (rest : List α) : Prop where
  len_eq : iter.v.len = iter.index + rest.length
  holds : iter.v.xs.Holds iter.index rest
  fits : iter.v.len ≤ cap

theorem drainRange_spec {storage : Storage α cap} {elems : List α}
    (represents : storage.Represents elems) (start stop : ℕ) :
    if start ≤ stop ∧ stop ≤ elems.length then
      ∃ drain shortened, storage.drainRange start stop = some (drain, shortened) ∧
        drain.Represents shortened (elems.take start) ((elems.take stop).drop start)
          (elems.drop stop)
    else
      storage.drainRange start stop = none := by
  rw [Storage.drainRange, represents.len_eq]
  split
  · rename_i inside
    rcases inside with ⟨ordered, short⟩
    have fits := represents.fits
    have take_start : (elems.take start).length = start :=
      List.length_take_of_le (ordered.trans short)
    have take_stop : (elems.take stop).length = stop := List.length_take_of_le short
    have range_length : ((elems.take stop).drop start).length = stop - start := by
      rw [List.length_drop, take_stop]
    have tail_length : (elems.drop stop).length = elems.length - stop := List.length_drop
    have holds := represents.holds
    rw [← List.take_append_drop stop elems, Cells.holds_append, take_stop, Nat.zero_add] at holds
    rcases holds with ⟨front_part, tail⟩
    rw [← List.take_append_drop start (elems.take stop), List.take_take,
      Nat.min_eq_left ordered, Cells.holds_append, take_start, Nat.zero_add] at front_part
    refine ⟨_, _, rfl, ?_⟩
    constructor
    · exact take_start.symm
    · exact front_part.1
    · exact front_part.2
    · simp only [range_length]
      omega
    · exact take_start.le
    · exact Nat.le_refl stop
    · exact tail
    · exact tail_length.symm
    · simp only [tail_length]
      omega
  · rfl

namespace Drain

variable {drain : Drain} {storage : Storage α cap} {before range tail : List α}

theorem next_spec (represents : drain.Represents storage before range tail) :
    ∃ rest : Drain, drain.next storage = some (range.head?, rest) ∧
      rest.Represents storage before range.tail tail := by
  have back_eq := represents.back_eq
  cases range with
  | nil =>
      refine ⟨drain, ?_, represents⟩
      rw [next, if_pos (by simpa using back_eq.symm)]
      rfl
  | cons element range =>
      rcases represents.holds_range with ⟨here, later⟩
      simp only [List.length_cons] at back_eq
      have some_left : drain.front ≠ drain.back := by omega
      have inside : drain.front < cap := by
        have := represents.back_le
        have := represents.fits
        omega
      refine ⟨{ drain with front := drain.front + 1 }, ?_, ?_⟩
      · rw [next, if_neg some_left, Storage.ptrRead_eq inside here]
        rfl
      · refine { represents with holds_range := later, back_eq := ?_, start_le := ?_ }
        · simp only [List.tail_cons]
          omega
        · exact represents.start_le.trans (Nat.le_succ _)

theorem nextBack_spec (represents : drain.Represents storage before range tail) :
    ∃ rest : Drain, drain.nextBack storage = some (range.getLast?, rest) ∧
      rest.Represents storage before range.dropLast tail := by
  have back_eq := represents.back_eq
  rcases List.eq_nil_or_concat range with rfl | ⟨init, last, rfl⟩
  · refine ⟨drain, ?_, represents⟩
    rw [nextBack, if_pos (by simpa using back_eq.symm)]
    rfl
  · have holds := represents.holds_range
    simp only [List.concat_eq_append] at back_eq holds ⊢
    rw [Cells.holds_append] at holds
    simp only [List.length_append, List.length_singleton] at back_eq
    have low := represents.back_le
    have fits := represents.fits
    have some_left : drain.front ≠ drain.back := by omega
    have at_back : drain.back - 1 = drain.front + init.length := by omega
    have inside : drain.front + init.length < cap := by omega
    refine ⟨{ drain with back := drain.back - 1 }, ?_, ?_⟩
    · rw [nextBack, if_neg some_left, at_back, Storage.ptrRead_eq inside holds.2.1,
        List.getLast?_concat]
      rfl
    · rw [List.dropLast_concat]
      refine { represents with holds_range := holds.1, back_eq := at_back, back_le := ?_ }
      exact (Nat.sub_le _ _).trans low

theorem exhaust_spec (panics : α → Bool) (represents : drain.Represents storage before range tail) :
    drain.exhaust panics storage range.length =
      some ((dropUntilPanic panics range).1, range.any panics) := by
  induction range generalizing drain with
  | nil => rfl
  | cons element range ih =>
      rcases next_spec represents with ⟨rest, next_eq, represents_rest⟩
      simp only [List.length_cons, exhaust, next_eq, List.head?_cons, Option.bind_some,
        dropUntilPanic, List.any_cons]
      cases panics element with
      | true => rfl
      | false =>
          simp only [List.tail_cons] at represents_rest
          rw [ih represents_rest]
          rfl

/-- While the iterator lives, the vector is what was before the range. -/
theorem Represents.shortened (represents : drain.Represents storage before range tail) :
    storage.Represents before := by
  have back_eq := represents.back_eq
  have start_le := represents.start_le
  have back_le := represents.back_le
  have fits := represents.fits
  exact ⟨represents.len_eq, represents.holds_before, by omega⟩

/-- The tail follows what was before the range, unless a destructor panics. Then it stays away,
with the elements that were not dropped. -/
theorem drop_spec (panics : α → Bool) (represents : drain.Represents storage before range tail) :
    if range.any panics then
      drain.drop panics storage = some (storage, (dropUntilPanic panics range).1, .unwinds)
    else
      ∃ restored, drain.drop panics storage = some (restored, range, .returns) ∧
        restored.Represents (before ++ tail) := by
  have back_eq := represents.back_eq
  have start_le := represents.start_le
  have back_le := represents.back_le
  have fits := represents.fits
  have left : drain.back - drain.front = range.length := by omega
  rw [drop, left, exhaust_spec panics represents, represents.tailLen_eq, represents.len_eq]
  split
  · rename_i unwinds
    rw [Option.bind_some]
    exact if_pos unwinds
  · rename_i returns
    have quiet : range.any panics = false := Bool.eq_false_iff.mpr returns
    rw [dropUntilPanic_of_none quiet, Option.bind_some, quiet]
    by_cases some_tail : 0 < tail.length
    · have copied : drain.tailStart + tail.length ≤ cap ∧
          before.length + tail.length ≤ cap := by omega
      refine ⟨⟨storage.xs.copy drain.tailStart before.length tail.length,
        (before ++ tail).length⟩, ?_, rfl, ?_, ?_⟩
      · simp only [Bool.false_eq_true, if_false, some_tail, if_true, Storage.ptrCopy, copied,
          and_self, Option.bind_some, Storage.setLen, Option.map_some, List.length_append]
      · rw [Cells.holds_append, Nat.zero_add]
        constructor
        · exact represents.holds_before.copy_outside (Or.inl (by omega))
        · exact represents.holds_tail.copy_target
      · rw [List.length_append]
        omega
    · have no_tail : tail = [] := List.length_eq_zero_iff.mp (by omega)
      refine ⟨storage, ?_, ?_⟩
      · simp only [Bool.false_eq_true, if_false, some_tail]
      · rw [no_tail, List.append_nil]
        exact represents.shortened

end Drain

theorem popAt_spec (panics : α → Bool) {storage : Storage α cap} {elems : List α}
    (represents : storage.Represents elems) (index : ℕ) :
    ∃ popped, storage.popAt panics index = some (elems[index]?, popped) ∧
      popped.Represents (elems.eraseIdx index) := by
  by_cases inside : index < elems.length
  · have bounds : index ≤ index + 1 ∧ index + 1 ≤ elems.length := ⟨Nat.le_succ _, inside⟩
    have drained := drainRange_spec represents index (index + 1)
    rw [if_pos bounds] at drained
    rcases drained with ⟨drain, shortened, drained, borrowed⟩
    have one : (elems.take (index + 1)).drop index = [elems[index]] := by
      rw [List.drop_take, Nat.add_sub_cancel_left, List.drop_eq_getElem_cons inside]
      rfl
    rw [one] at borrowed
    rcases Drain.next_spec borrowed with ⟨rest, next_eq, exhausted⟩
    have dropped := Drain.drop_spec panics exhausted
    rw [List.tail_cons, List.any_nil, if_neg Bool.false_ne_true] at dropped
    rcases dropped with ⟨restored, dropped, represents_restored⟩
    have in_place : ¬storage.len ≤ index := by
      rw [represents.len_eq]
      omega
    refine ⟨restored, ?_, ?_⟩
    · simp only [Storage.popAt, if_neg in_place, drained, Option.bind_some, next_eq, dropped,
        Option.map_some, List.head?_cons, List.getElem?_eq_getElem inside]
    · rwa [List.eraseIdx_eq_take_drop_succ]
  · have outside : elems.length ≤ index := Nat.le_of_not_lt inside
    refine ⟨storage, ?_, ?_⟩
    · rw [Storage.popAt, represents.len_eq, if_pos outside, List.getElem?_eq_none outside]
    · rwa [List.eraseIdx_of_length_le outside]

namespace IntoIter

variable {iter : IntoIter α cap} {rest : List α}

/-- `IntoIterator::into_iter`. -/
def of (storage : Storage α cap) : IntoIter α cap := ⟨0, storage⟩

theorem of_represents {storage : Storage α cap} (represents : storage.Represents rest) :
    (of storage).Represents rest := by
  refine ⟨?_, represents.holds, ?_⟩
  · simpa [of] using represents.len_eq
  · simpa [of, represents.len_eq] using represents.fits

theorem next_spec (represents : iter.Represents rest) :
    ∃ later, iter.next = some (rest.head?, later) ∧ later.Represents rest.tail := by
  have len_eq := represents.len_eq
  have fits := represents.fits
  cases rest with
  | nil =>
      refine ⟨iter, ?_, represents⟩
      rw [next, if_pos (by simpa using len_eq.symm)]
      rfl
  | cons element rest =>
      rcases represents.holds with ⟨here, later⟩
      simp only [List.length_cons] at len_eq
      have some_left : iter.index ≠ iter.v.len := by omega
      refine ⟨{ iter with index := iter.index + 1 }, ?_, ?_, later, fits⟩
      · rw [next, if_neg some_left, Storage.ptrRead_eq (by omega) here]
        rfl
      · simp only [List.tail_cons]
        omega

theorem nextBack_spec (represents : iter.Represents rest) :
    ∃ earlier, iter.nextBack = some (rest.getLast?, earlier) ∧
      earlier.Represents rest.dropLast := by
  have len_eq := represents.len_eq
  have fits := represents.fits
  rcases List.eq_nil_or_concat rest with rfl | ⟨init, last, rfl⟩
  · refine ⟨iter, ?_, represents⟩
    rw [nextBack, if_pos (by simpa using len_eq.symm)]
    rfl
  · have holds := represents.holds
    simp only [List.concat_eq_append] at len_eq holds ⊢
    rw [Cells.holds_append] at holds
    simp only [List.length_append, List.length_singleton] at len_eq
    have some_left : iter.index ≠ iter.v.len := by omega
    have at_back : iter.v.len - 1 = iter.index + init.length := by omega
    have in_bounds : iter.v.len - 1 ≤ cap := by omega
    refine ⟨{ iter with v := { iter.v with len := iter.v.len - 1 } }, ?_, ?_⟩
    · have cell : ({ iter.v with len := iter.v.len - 1 } : Storage α cap).ptrRead
          (iter.v.len - 1) = some last := by
        apply Storage.ptrRead_eq (by omega)
        rw [at_back]
        exact holds.2.1
      rw [nextBack, if_neg some_left, Storage.setLen, if_pos in_bounds, Option.bind_some, cell,
        List.getLast?_concat]
      rfl
    · rw [List.dropLast_concat]
      exact ⟨at_back, holds.1, in_bounds⟩

theorem drop_spec (represents : iter.Represents rest) : iter.drop = some rest := by
  have len_eq := represents.len_eq
  have fits := represents.fits
  have left : iter.v.len - iter.index = rest.length := by omega
  have inside : iter.index + rest.length ≤ cap := by omega
  rw [drop, Storage.setLen, if_pos (Nat.zero_le cap), Option.bind_some, left, Storage.slice,
    if_pos inside, represents.holds.readAll, Option.bind_some]
  simp [Storage.truncate]

end IntoIter

end Nethuns.ArrayVec
