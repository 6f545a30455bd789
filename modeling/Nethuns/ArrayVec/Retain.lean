import Nethuns.ArrayVec.Storage

/-!
# Removing elements in place

`retain` visits the elements in order and closes the holes as it goes. Both the closure and the
destructor of an element that it deletes may panic. So the length is zero in the meantime, and a
guard moves the elements that were not visited behind the kept ones, however the loops end.
-/

namespace Nethuns.ArrayVec

open Nethuns.Lib

universe u v

/-- How the closure of `retain` answers. -/
inductive Verdict
  | keep
  | delete
  | panic
deriving DecidableEq

/-- `BackshiftOnDrop`. -/
structure Backshift (α : Type u) (cap : ℕ) where
  v : Storage α cap
  processedLen : ℕ
  deletedCnt : ℕ
  originalLen : ℕ

/-- Where the loops of `retain` end: the state of the closure, the guard and the elements that
were dropped. -/
structure Sweep (σ : Type v) (α : Type u) (cap : ℕ) where
  state : σ
  guard : Backshift α cap
  dropped : List α
  unwinds : Bool

variable {α : Type u} {σ : Type v} {cap : ℕ} {state : σ}

/-- `ptr::copy_nonoverlapping` within the array. -/
def Storage.copyNonoverlapping (storage : Storage α cap) (source target count : ℕ) :
    Option (Storage α cap) :=
  if source + count ≤ target ∨ target + count ≤ source then
    storage.ptrCopy source target count
  else
    none

namespace Backshift

/-- `process_one`. The closure may change the element that it looks at. The answer is `none` when
it panics, or the destructor does. -/
def processOne (panics : α → Bool) (f : σ → α → σ × α × Verdict) (deleted : Bool) (state : σ)
    (guard : Backshift α cap) : Option (σ × Backshift α cap × List α × Option Bool) :=
  (guard.v.ptrRead guard.processedLen).bind fun element =>
    let (state, element, verdict) := f state element
    (guard.v.ptrWrite guard.processedLen element).bind fun v =>
      match verdict with
      | .panic => some (state, { guard with v := v }, [], none)
      | .delete =>
          some (state,
            { guard with
              v := v
              processedLen := guard.processedLen + 1
              deletedCnt := guard.deletedCnt + 1 },
            [element], if panics element then none else some false)
      | .keep =>
          (if deleted then
            v.copyNonoverlapping guard.processedLen (guard.processedLen - guard.deletedCnt) 1
          else
            some v).map fun v =>
            (state, { guard with v := v, processedLen := guard.processedLen + 1 }, [], some true)

/-- The second loop of `retain`, where an element has been deleted. The bound is the number of
elements that are left. -/
def stageTwo (panics : α → Bool) (f : σ → α → σ × α × Verdict) :
    ℕ → σ → Backshift α cap → Option (Sweep σ α cap)
  | 0, state, guard => some ⟨state, guard, [], false⟩
  | bound + 1, state, guard =>
      (guard.processOne panics f true state).bind fun (state, guard, dropped, answer) =>
        match answer with
        | none => some ⟨state, guard, dropped, true⟩
        | some _ =>
            (stageTwo panics f bound state guard).map fun sweep =>
              { sweep with dropped := dropped ++ sweep.dropped }

/-- The first loop, up to the first element that is deleted, and the second one. -/
def stageOne (panics : α → Bool) (f : σ → α → σ × α × Verdict) :
    ℕ → σ → Backshift α cap → Option (Sweep σ α cap)
  | 0, state, guard => some ⟨state, guard, [], false⟩
  | bound + 1, state, guard =>
      (guard.processOne panics f false state).bind fun (state, guard, dropped, answer) =>
        match answer with
        | none => some ⟨state, guard, dropped, true⟩
        | some true => stageOne panics f bound state guard
        | some false =>
            (stageTwo panics f bound state guard).map fun sweep =>
              { sweep with dropped := dropped ++ sweep.dropped }

/-- `BackshiftOnDrop::drop`. -/
def drop (guard : Backshift α cap) : Option (Storage α cap) :=
  (if 0 < guard.deletedCnt then
    guard.v.ptrCopy guard.processedLen (guard.processedLen - guard.deletedCnt)
      (guard.originalLen - guard.processedLen)
  else
    some guard.v).bind fun v => v.setLen (guard.originalLen - guard.deletedCnt)

end Backshift

/-- `ArrayVec::retain`, with the state of the closure after it and the elements that it drops. -/
def Storage.retain (panics : α → Bool) (f : σ → α → σ × α × Verdict) (state : σ)
    (storage : Storage α cap) : Option (Storage α cap × σ × List α × Exit) :=
  (storage.setLen 0).bind fun emptied =>
    (Backshift.stageOne panics f storage.len state ⟨emptied, 0, 0, storage.len⟩).bind fun sweep =>
      sweep.guard.drop.map fun retained =>
        (retained, sweep.state, sweep.dropped, if sweep.unwinds then .unwinds else .returns)

/-- What becomes of the elements: those that are kept, those that are dropped, and those that are
not visited because of a panic. -/
structure Sifted (σ : Type v) (α : Type u) where
  state : σ
  kept : List α
  dropped : List α
  rest : List α
  unwinds : Bool

/-- The purpose of `retain`, on the list of the elements. -/
def sift (panics : α → Bool) (f : σ → α → σ × α × Verdict) : σ → List α → Sifted σ α
  | state, [] => ⟨state, [], [], [], false⟩
  | state, element :: elems =>
      let (state, element, verdict) := f state element
      match verdict with
      | .panic => ⟨state, [], [], element :: elems, true⟩
      | .delete =>
          if panics element then
            ⟨state, [], [element], elems, true⟩
          else
            let sifted := sift panics f state elems
            { sifted with dropped := element :: sifted.dropped }
      | .keep =>
          let sifted := sift panics f state elems
          { sifted with kept := element :: sifted.kept }

/-- The invariant of the loops: the kept elements stand at the front, the others behind the hole
that the deleted ones left. -/
structure Backshift.Represents (guard : Backshift α cap) (kept rest : List α) : Prop where
  processed_eq : guard.processedLen = kept.length + guard.deletedCnt
  original_eq : guard.originalLen = guard.processedLen + rest.length
  holds_kept : guard.v.xs.Holds 0 kept
  holds_rest : guard.v.xs.Holds guard.processedLen rest
  fits : guard.originalLen ≤ cap

namespace Backshift

variable {f : σ → α → σ × α × Verdict} {after : σ} {guard : Backshift α cap}
  {element changed : α} {kept rest : List α} {deleted : Bool}

/-- The element at hand, read and written back as the closure leaves it. -/
theorem Represents.visited (represents : guard.Represents kept (element :: rest)) (changed : α) :
    guard.v.ptrRead guard.processedLen = some element ∧
      ∃ v : Storage α cap, guard.v.ptrWrite guard.processedLen changed = some v ∧
        Represents { guard with v := v } kept (changed :: rest) := by
  have original_eq := represents.original_eq
  have processed_eq := represents.processed_eq
  have fits := represents.fits
  simp only [List.length_cons] at original_eq
  rcases represents.holds_rest with ⟨here, later⟩
  have inside : guard.processedLen < cap := by omega
  refine ⟨Storage.ptrRead_eq inside here, _, if_pos inside, ?_⟩
  constructor
  · exact processed_eq
  · simpa using original_eq
  · exact represents.holds_kept.write changed (Or.inr (by omega))
  · exact ⟨Cells.write_self changed, later.write changed (Or.inl (by omega))⟩
  · exact fits

theorem processOne_panic (panics : α → Bool) (deleted : Bool)
    (represents : guard.Represents kept (element :: rest))
    (answer : f state element = (after, changed, .panic)) :
    ∃ stopped, guard.processOne panics f deleted state = some (after, stopped, [], none) ∧
      stopped.Represents kept (changed :: rest) := by
  rcases represents.visited changed with ⟨read, v, write, visited⟩
  refine ⟨_, ?_, visited⟩
  simp only [processOne, read, Option.bind_some, answer, write]

theorem processOne_delete (panics : α → Bool) (deleted : Bool)
    (represents : guard.Represents kept (element :: rest))
    (answer : f state element = (after, changed, .delete)) :
    ∃ shortened, guard.processOne panics f deleted state =
        some (after, shortened, [changed], if panics changed then none else some false) ∧
      shortened.Represents kept rest ∧ 0 < shortened.deletedCnt := by
  rcases represents.visited changed with ⟨read, v, write, visited⟩
  have original_eq := visited.original_eq
  have processed_eq := visited.processed_eq
  simp only [List.length_cons] at original_eq processed_eq
  refine ⟨{ guard with
      v := v
      processedLen := guard.processedLen + 1
      deletedCnt := guard.deletedCnt + 1 }, ?_, ?_, Nat.succ_pos _⟩
  · simp only [processOne, read, Option.bind_some, answer, write]
  · constructor
    · simp only
      omega
    · simp only
      omega
    · exact visited.holds_kept
    · exact visited.holds_rest.2
    · exact visited.fits

/-- A kept element moves to the beginning of the hole, if there is one. -/
theorem processOne_keep (panics : α → Bool) (represents : guard.Represents kept (element :: rest))
    (hole : deleted = true ↔ 0 < guard.deletedCnt)
    (answer : f state element = (after, changed, .keep)) :
    ∃ longer, guard.processOne panics f deleted state = some (after, longer, [], some true) ∧
      longer.Represents (kept ++ [changed]) rest ∧ longer.deletedCnt = guard.deletedCnt := by
  rcases represents.visited changed with ⟨read, v, write, visited⟩
  have original_eq := visited.original_eq
  have processed_eq := visited.processed_eq
  have fits := visited.fits
  simp only [List.length_cons] at original_eq processed_eq fits
  rcases visited.holds_rest with ⟨here, later⟩
  cases deleted with
  | false =>
      have no_hole : guard.deletedCnt = 0 := by
        have := hole.not.mp Bool.false_ne_true
        omega
      refine ⟨{ guard with v := v, processedLen := guard.processedLen + 1 }, ?_, ?_, rfl⟩
      · simp only [processOne, read, Option.bind_some, answer, write, Bool.false_eq_true, if_false,
          Option.map_some]
      · constructor
        · simp only [List.length_append, List.length_singleton]
          omega
        · simp only
          omega
        · rw [Cells.holds_append, Nat.zero_add]
          refine ⟨visited.holds_kept, ?_, Cells.holds_nil⟩
          rwa [processed_eq, no_hole, Nat.add_zero] at here
        · exact later
        · exact fits
  | true =>
      have some_hole : 0 < guard.deletedCnt := hole.mp rfl
      have target : guard.processedLen - guard.deletedCnt = kept.length := by omega
      have apart : guard.processedLen + 1 ≤ kept.length ∨ kept.length + 1 ≤ guard.processedLen := by
        omega
      have in_bounds : guard.processedLen + 1 ≤ cap ∧ kept.length + 1 ≤ cap := by omega
      have one : v.xs.Holds guard.processedLen [changed] := ⟨here, Cells.holds_nil⟩
      refine ⟨{ guard with
          v := { v with xs := v.xs.copy guard.processedLen kept.length 1 }
          processedLen := guard.processedLen + 1 }, ?_, ?_, rfl⟩
      · simp only [processOne, read, Option.bind_some, answer, write, if_true, target,
          Storage.copyNonoverlapping, apart, Storage.ptrCopy, in_bounds, and_self,
          Option.map_some]
      · constructor
        · simp only [List.length_append, List.length_singleton]
          omega
        · simp only
          omega
        · rw [Cells.holds_append, Nat.zero_add]
          refine ⟨visited.holds_kept.copy_outside (Or.inl (by omega)), ?_⟩
          exact one.copy_target
        · exact later.copy_outside (Or.inr (by simp only; omega))
        · exact fits

/-- What the loops are to leave when they go on with these elements: the outcome of `sift`, with
the guard in place. -/
structure Sifts (sweep : Sweep σ α cap) (kept : List α) (sifted : Sifted σ α) : Prop where
  state_eq : sweep.state = sifted.state
  guard : sweep.guard.Represents (kept ++ sifted.kept) sifted.rest
  dropped_eq : sweep.dropped = sifted.dropped
  unwinds_eq : sweep.unwinds = sifted.unwinds

theorem stageTwo_spec (panics : α → Bool) (f : σ → α → σ × α × Verdict) (state : σ)
    (represents : guard.Represents kept rest) (hole : 0 < guard.deletedCnt) :
    ∃ sweep, stageTwo panics f rest.length state guard = some sweep ∧
      Sifts sweep kept (sift panics f state rest) := by
  induction rest generalizing state guard kept with
  | nil => exact ⟨_, rfl, rfl, by simpa [sift] using represents, rfl, rfl⟩
  | cons element rest ih =>
      rcases answer : f state element with ⟨after, changed, verdict⟩
      cases verdict with
      | panic =>
          rcases processOne_panic panics true represents answer with
            ⟨stopped, processed, kept_back⟩
          simp only [List.length_cons, stageTwo, processed, Option.bind_some, sift, answer]
          exact ⟨_, rfl, rfl, by simpa using kept_back, rfl, rfl⟩
      | delete =>
          rcases processOne_delete panics true represents answer with
            ⟨shortened, processed, shorter, more⟩
          simp only [List.length_cons, stageTwo, processed, Option.bind_some, sift, answer]
          cases destroyed : panics changed with
          | true => exact ⟨_, rfl, rfl, by simpa using shorter, rfl, rfl⟩
          | false =>
              rcases ih after shorter more with ⟨sweep, swept, sifts⟩
              simp only [Bool.false_eq_true, if_false, swept, Option.map_some]
              refine ⟨_, rfl, sifts.state_eq, sifts.guard, ?_, sifts.unwinds_eq⟩
              exact congrArg (changed :: ·) sifts.dropped_eq
      | keep =>
          have filled : true = true ↔ 0 < guard.deletedCnt := by simp [hole]
          rcases processOne_keep panics represents filled answer with
            ⟨longer, processed, grown, same⟩
          rcases ih after grown (hole.trans_eq same.symm) with ⟨sweep, swept, sifts⟩
          simp only [List.length_cons, stageTwo, processed, Option.bind_some, swept,
            Option.map_some, sift, answer]
          refine ⟨_, rfl, sifts.state_eq, ?_, sifts.dropped_eq, sifts.unwinds_eq⟩
          simpa using sifts.guard

theorem stageOne_spec (panics : α → Bool) (f : σ → α → σ × α × Verdict) (state : σ)
    (represents : guard.Represents kept rest) (no_hole : guard.deletedCnt = 0) :
    ∃ sweep, stageOne panics f rest.length state guard = some sweep ∧
      Sifts sweep kept (sift panics f state rest) := by
  induction rest generalizing state guard kept with
  | nil => exact ⟨_, rfl, rfl, by simpa [sift] using represents, rfl, rfl⟩
  | cons element rest ih =>
      rcases answer : f state element with ⟨after, changed, verdict⟩
      cases verdict with
      | panic =>
          rcases processOne_panic panics false represents answer with
            ⟨stopped, processed, kept_back⟩
          simp only [List.length_cons, stageOne, processed, Option.bind_some, sift, answer]
          exact ⟨_, rfl, rfl, by simpa using kept_back, rfl, rfl⟩
      | delete =>
          rcases processOne_delete panics false represents answer with
            ⟨shortened, processed, shorter, more⟩
          simp only [List.length_cons, stageOne, processed, Option.bind_some, sift, answer]
          cases destroyed : panics changed with
          | true => exact ⟨_, rfl, rfl, by simpa using shorter, rfl, rfl⟩
          | false =>
              rcases stageTwo_spec panics f after shorter more with ⟨sweep, swept, sifts⟩
              simp only [Bool.false_eq_true, if_false, swept, Option.map_some]
              refine ⟨_, rfl, sifts.state_eq, sifts.guard, ?_, sifts.unwinds_eq⟩
              exact congrArg (changed :: ·) sifts.dropped_eq
      | keep =>
          have closed : false = true ↔ 0 < guard.deletedCnt := by simp [no_hole]
          rcases processOne_keep panics represents closed answer with
            ⟨longer, processed, grown, same⟩
          rcases ih after grown (same.trans no_hole) with ⟨sweep, swept, sifts⟩
          simp only [List.length_cons, stageOne, processed, Option.bind_some, swept, sift, answer]
          refine ⟨_, rfl, sifts.state_eq, ?_, sifts.dropped_eq, sifts.unwinds_eq⟩
          simpa using sifts.guard

/-- The guard closes the hole. -/
theorem drop_spec (represents : guard.Represents kept rest) :
    ∃ restored, guard.drop = some restored ∧ restored.Represents (kept ++ rest) := by
  have processed_eq := represents.processed_eq
  have original_eq := represents.original_eq
  have fits := represents.fits
  have left : guard.originalLen - guard.processedLen = rest.length := by omega
  have target : guard.processedLen - guard.deletedCnt = kept.length := by omega
  have length : guard.originalLen - guard.deletedCnt = (kept ++ rest).length := by
    rw [List.length_append]
    omega
  have in_bounds : (kept ++ rest).length ≤ cap := by omega
  rw [drop, left, target, length]
  by_cases hole : 0 < guard.deletedCnt
  · have copied : guard.processedLen + rest.length ≤ cap ∧ kept.length + rest.length ≤ cap := by
      omega
    refine ⟨⟨guard.v.xs.copy guard.processedLen kept.length rest.length,
      (kept ++ rest).length⟩, ?_, rfl, ?_, in_bounds⟩
    · simp only [hole, if_true, Storage.ptrCopy, copied, and_self, Option.bind_some,
        Storage.setLen, in_bounds]
    · rw [Cells.holds_append, Nat.zero_add]
      constructor
      · exact represents.holds_kept.copy_outside (Or.inl (by omega))
      · exact represents.holds_rest.copy_target
  · refine ⟨⟨guard.v.xs, (kept ++ rest).length⟩, ?_, rfl, ?_, in_bounds⟩
    · simp only [hole, if_false, Option.bind_some, Storage.setLen, in_bounds, if_true]
    · have no_hole : guard.processedLen = 0 + kept.length := by omega
      rw [Cells.holds_append, ← no_hole]
      exact ⟨represents.holds_kept, represents.holds_rest⟩

end Backshift

/-- `retain` does to the storage what `sift` does to the list, whatever panics. -/
theorem retain_spec (panics : α → Bool) (f : σ → α → σ × α × Verdict) (state : σ)
    {storage : Storage α cap} {elems : List α} (represents : storage.Represents elems) :
    ∃ retained, storage.retain panics f state =
        some (retained, (sift panics f state elems).state, (sift panics f state elems).dropped,
          if (sift panics f state elems).unwinds then .unwinds else .returns) ∧
      retained.Represents
        ((sift panics f state elems).kept ++ (sift panics f state elems).rest) := by
  let guard : Backshift α cap := ⟨{ storage with len := 0 }, 0, 0, elems.length⟩
  have start : guard.Represents [] elems :=
    ⟨rfl, (Nat.zero_add _).symm, Cells.holds_nil, represents.holds, represents.fits⟩
  rcases Backshift.stageOne_spec panics f state start rfl with ⟨sweep, swept, sifts⟩
  rcases Backshift.drop_spec sifts.guard with ⟨retained, dropped, represents_retained⟩
  refine ⟨retained, ?_, represents_retained⟩
  simp only [Storage.retain, Storage.setLen, Nat.zero_le, if_true, Option.bind_some,
    represents.len_eq, guard, swept, dropped, Option.map_some, sifts.state_eq, sifts.dropped_eq,
    sifts.unwinds_eq]

/-- Where nothing panics, `retain` is a filter. -/
theorem sift_filter {panics : α → Bool} (wanted : α → Bool) {elems : List α}
    (quiet : ∀ element ∈ elems, wanted element = false → panics element = false) :
    sift panics (fun (state : σ) element =>
        (state, element, if wanted element then .keep else .delete)) state elems =
      ⟨state, elems.filter wanted, elems.filter fun element => !wanted element, [], false⟩ := by
  induction elems with
  | nil => rfl
  | cons element elems ih =>
      rw [List.forall_mem_cons] at quiet
      have later := ih quiet.2
      cases answer : wanted element with
      | true =>
          simp only [sift, answer, if_true, later, List.filter_cons, Bool.not_true,
            Bool.false_eq_true, if_false]
      | false =>
          simp only [sift, answer, Bool.false_eq_true, if_false, quiet.1 answer, later,
            List.filter_cons, Bool.not_false, if_true]

end Nethuns.ArrayVec
