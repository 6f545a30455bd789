import Nethuns.ArrayVec.Drain
import Nethuns.ArrayVec.Retain
import Nethuns.Lib.Bags
import Nethuns.Lib.Run

/-!
# A vector in the hands of its owner

The owner of a vector calls its methods in any order. A `Drain` borrows the vector until it is
dropped, or leaked with `mem::forget`; an `IntoIter` takes its place. The owner may catch a panic
and go on; after an abort there is nobody left. Every call reports the values that it takes in,
hands out and drops.

The same calls are described on lists, with the values that are lost beside them. The storage
machine refines the list machine: no call ever reads an uninitialized cell or leaves the array.
As everywhere in this part, the values are of a type that is not zero-sized.
-/

namespace Nethuns.ArrayVec

open Nethuns.Lib

universe u

variable {α : Type u} {cap : ℕ}

/-- What the owner can do next. The closure of `retain` answers from the elements that it has seen,
the present one last. An iterator given to `extend` yields its elements and then ends or panics. -/
inductive Action (α : Type u)
  | push (element : α)
  | pop
  | truncate (newLen : ℕ)
  | insert (index : ℕ) (element : α)
  | swapPop (index : ℕ)
  | popAt (index : ℕ)
  | extend (elements : List α) (fails : Bool)
  | retain (answer : List α → Verdict)
  | drain (start stop : ℕ)
  | intoIter
  | next
  | nextBack
  | finish
  | forget

/-- What a call does to the values, and how it ends. -/
structure Effect (α : Type u) where
  entered : List α := []
  returned : List α := []
  dropped : List α := []
  exit : Exit := .returns

/-- What the owner has. -/
inductive Owner (α : Type u) (cap : ℕ)
  | vec (storage : Storage α cap)
  | drain (storage : Storage α cap) (borrow : Drain)
  | iter (taken : IntoIter α cap)
  | gone

/-- The same on lists. -/
inductive Content (α : Type u)
  | vec (elems : List α)
  | drain (before range tail : List α)
  | iter (rest : List α)
  | gone

/-- A closure that does not change the elements. -/
def reading (answer : List α → Verdict) (seen : List α) (element : α) : List α × α × Verdict :=
  (seen ++ [element], element, answer (seen ++ [element]))

/-- The elements of an iterator up to the first one that has no room. -/
def pulled (elements rest : List α) : List α := elements.take (elements.length - rest.length)

namespace Owner

/-- A slice is dropped at the end of a call. -/
def dropping (panics : α → Bool) (values : List α) (owner : Owner α cap) :
    Owner α cap × Effect α :=
  let (dropped, exit) := dropInPlace panics values
  (if exit = .aborts then .gone else owner, { dropped := dropped, exit := exit })

/-- An argument is dropped while a panic unwinds. -/
def unwinding (panics : α → Bool) (entered : List α) (element : α) (owner : Owner α cap) :
    Owner α cap × Effect α :=
  if panics element then (.gone, { entered := entered, dropped := [element], exit := .aborts })
  else (owner, { entered := entered, dropped := [element], exit := .unwinds })

def vecStep (panics : α → Bool) (storage : Storage α cap) :
    Action α → Option (Owner α cap × Effect α)
  | .push element =>
      (storage.tryPush element).map fun
        | .ok pushed => (.vec pushed, { entered := [element] })
        | .error back => (.vec storage, { entered := [element], returned := [back] })
  | .pop => storage.pop.map fun (element, popped) =>
      (.vec popped, { returned := element.toList })
  | .truncate newLen => (storage.truncate newLen).map fun (values, truncated) =>
      dropping panics values (.vec truncated)
  | .insert index element =>
      (storage.tryInsert index element).map fun
        | .ok inserted => (.vec inserted, { entered := [element] })
        | .error .full => (.vec storage, { entered := [element], returned := [element] })
        | .error .outOfBounds => unwinding panics [element] element (.vec storage)
  | .swapPop index => (storage.swapPop index).map fun (element, popped) =>
      (.vec popped, { returned := element.toList })
  | .popAt index => (storage.popAt panics index).map fun (element, popped) =>
      (.vec popped, { returned := element.toList })
  | .extend elements fails =>
      (storage.extend elements).map fun
        | (extended, []) =>
            (.vec extended, { entered := elements, exit := if fails then .unwinds else .returns })
        | (extended, element :: rest) =>
            unwinding panics (pulled elements rest) element (.vec extended)
  | .retain answer =>
      (storage.retain panics (reading answer) []).map fun (retained, _, dropped, exit) =>
        (.vec retained, { dropped := dropped, exit := exit })
  | .drain start stop =>
      match storage.drainRange start stop with
      | some (borrow, shortened) => some (.drain shortened borrow, {})
      | none => some (.vec storage, { exit := .unwinds })
  | .intoIter => some (.iter (.of storage), {})
  | .finish => (storage.truncate 0).map fun (values, _) => dropping panics values .gone
  | .forget => some (.gone, {})
  | .next | .nextBack => none

def drainStep (panics : α → Bool) (storage : Storage α cap) (borrow : Drain) :
    Action α → Option (Owner α cap × Effect α)
  | .next => (borrow.next storage).map fun (element, borrow) =>
      (.drain storage borrow, { returned := element.toList })
  | .nextBack => (borrow.nextBack storage).map fun (element, borrow) =>
      (.drain storage borrow, { returned := element.toList })
  | .finish => (borrow.drop panics storage).map fun (restored, dropped, exit) =>
      (.vec restored, { dropped := dropped, exit := exit })
  | .forget => some (.vec storage, {})
  | _ => none

def iterStep (panics : α → Bool) (taken : IntoIter α cap) :
    Action α → Option (Owner α cap × Effect α)
  | .next => taken.next.map fun (element, taken) =>
      (.iter taken, { returned := element.toList })
  | .nextBack => taken.nextBack.map fun (element, taken) =>
      (.iter taken, { returned := element.toList })
  | .finish => taken.drop.map fun values => dropping panics values .gone
  | .forget => some (.gone, {})
  | _ => none

/-- One call. It is `none` where the owner has nothing of the kind, or the call goes wrong. -/
def step (panics : α → Bool) : Owner α cap → Action α → Option (Owner α cap × Effect α)
  | .vec storage, action => vecStep panics storage action
  | .drain storage borrow, action => drainStep panics storage borrow action
  | .iter taken, action => iterStep panics taken action
  | .gone, _ => none

def Represents : Owner α cap → Content α → Prop
  | .vec storage, .vec elems => storage.Represents elems
  | .drain storage borrow, .drain before range tail => borrow.Represents storage before range tail
  | .iter taken, .iter rest => taken.Represents rest
  | .gone, .gone => True
  | _, _ => False

end Owner

namespace Content

def all : Content α → List α
  | .vec elems => elems
  | .drain before range tail => before ++ range ++ tail
  | .iter rest => rest
  | .gone => []

/-- The values that are lost come last. An abort loses what was not dropped yet. -/
def dropping (panics : α → Bool) (values : List α) (content : Content α) :
    Content α × Effect α × List α :=
  let (dropped, exit) := dropInPlace panics values
  if exit = .aborts then
    (.gone, { dropped := dropped, exit := exit }, content.all ++ values.drop dropped.length)
  else
    (content, { dropped := dropped, exit := exit }, [])

def unwinding (panics : α → Bool) (entered : List α) (element : α) (content : Content α) :
    Content α × Effect α × List α :=
  if panics element then
    (.gone, { entered := entered, dropped := [element], exit := .aborts }, content.all)
  else
    (content, { entered := entered, dropped := [element], exit := .unwinds }, [])

def vecStep (panics : α → Bool) (cap : ℕ) (elems : List α) :
    Action α → Option (Content α × Effect α × List α)
  | .push element =>
      if elems.length < cap then
        some (.vec (elems ++ [element]), { entered := [element] }, [])
      else
        some (.vec elems, { entered := [element], returned := [element] }, [])
  | .pop => some (.vec elems.dropLast, { returned := elems.getLast?.toList }, [])
  | .truncate newLen =>
      some (dropping panics (elems.drop newLen) (.vec (elems.take newLen)))
  | .insert index element =>
      if elems.length < index then
        some (unwinding panics [element] element (.vec elems))
      else if elems.length = cap then
        some (.vec elems, { entered := [element], returned := [element] }, [])
      else
        some (.vec (elems.take index ++ element :: elems.drop index),
          { entered := [element] }, [])
  | .swapPop index =>
      some (.vec (Storage.swapRemoved elems index), { returned := elems[index]?.toList }, [])
  | .popAt index => some (.vec (elems.eraseIdx index), { returned := elems[index]?.toList }, [])
  | .extend elements fails =>
      let extended := elems ++ elements.take (cap - elems.length)
      match elements.drop (cap - elems.length) with
      | [] => some (.vec extended,
          { entered := elements, exit := if fails then .unwinds else .returns }, [])
      | element :: rest =>
          some (unwinding panics (pulled elements rest) element (.vec extended))
  | .retain answer =>
      let sifted := sift panics (reading answer) [] elems
      some (.vec (sifted.kept ++ sifted.rest),
        { dropped := sifted.dropped, exit := if sifted.unwinds then .unwinds else .returns }, [])
  | .drain start stop =>
      if start ≤ stop ∧ stop ≤ elems.length then
        some (.drain (elems.take start) ((elems.take stop).drop start) (elems.drop stop), {}, [])
      else
        some (.vec elems, { exit := .unwinds }, [])
  | .intoIter => some (.iter elems, {}, [])
  | .finish => some (dropping panics elems .gone)
  | .forget => some (.gone, {}, elems)
  | .next | .nextBack => none

/-- A panic in the destructor of a `Drain` loses the tail with the elements that are left. -/
def drainStep (panics : α → Bool) (before range tail : List α) :
    Action α → Option (Content α × Effect α × List α)
  | .next =>
      some (.drain before range.tail tail, { returned := range.head?.toList }, [])
  | .nextBack =>
      some (.drain before range.dropLast tail, { returned := range.getLast?.toList }, [])
  | .finish =>
      if range.any panics then
        let (dropped, left) := dropUntilPanic panics range
        some (.vec before, { dropped := dropped, exit := .unwinds }, left ++ tail)
      else
        some (.vec (before ++ tail), { dropped := range }, [])
  | .forget => some (.vec before, {}, range ++ tail)
  | _ => none

def iterStep (panics : α → Bool) (rest : List α) :
    Action α → Option (Content α × Effect α × List α)
  | .next => some (.iter rest.tail, { returned := rest.head?.toList }, [])
  | .nextBack => some (.iter rest.dropLast, { returned := rest.getLast?.toList }, [])
  | .finish => some (dropping panics rest .gone)
  | .forget => some (.gone, {}, rest)
  | _ => none

def step (panics : α → Bool) (cap : ℕ) :
    Content α → Action α → Option (Content α × Effect α × List α)
  | .vec elems, action => vecStep panics cap elems action
  | .drain before range tail, action => drainStep panics before range tail action
  | .iter rest, action => iterStep panics rest action
  | .gone, _ => none

end Content

/-- The storage machine performs the call just when the list machine does, with the same effect. -/
def Matches : Option (Owner α cap × Effect α) → Option (Content α × Effect α × List α) → Prop
  | none, none => True
  | some (owner, effect), some (content, expected, _) =>
      owner.Represents content ∧ effect = expected
  | _, _ => False

variable {panics : α → Bool}

theorem dropping_matches {owner : Owner α cap} {content : Content α} (values : List α)
    (represents : owner.Represents content) :
    Matches (some (owner.dropping panics values)) (some (content.dropping panics values)) := by
  simp only [Owner.dropping, Content.dropping]
  split
  · exact ⟨trivial, rfl⟩
  · exact ⟨represents, rfl⟩

theorem unwinding_matches {owner : Owner α cap} {content : Content α} (entered : List α)
    (element : α) (represents : owner.Represents content) :
    Matches (some (owner.unwinding panics entered element))
      (some (content.unwinding panics entered element)) := by
  simp only [Owner.unwinding, Content.unwinding]
  split
  · exact ⟨trivial, rfl⟩
  · exact ⟨represents, rfl⟩

theorem vecStep_matches {storage : Storage α cap} {elems : List α}
    (represents : storage.Represents elems) (action : Action α) :
    Matches (Owner.vecStep panics storage action) (Content.vecStep panics cap elems action) := by
  cases action with
  | push element =>
      have spec := Storage.tryPush_spec represents element
      simp only [Owner.vecStep, Content.vecStep]
      split at spec
      · rename_i room
        rcases spec with ⟨pushed, pushed_eq, after⟩
        rw [pushed_eq, if_pos room]
        exact ⟨after, rfl⟩
      · rename_i full
        rw [spec, if_neg full]
        exact ⟨represents, rfl⟩
  | pop =>
      rcases Storage.pop_spec represents with ⟨popped, popped_eq, after⟩
      simp only [Owner.vecStep, Content.vecStep, popped_eq]
      exact ⟨after, rfl⟩
  | truncate newLen =>
      rcases Storage.truncate_spec represents newLen with ⟨truncated, truncated_eq, after⟩
      simp only [Owner.vecStep, Content.vecStep, truncated_eq]
      apply dropping_matches
      exact after
  | insert index element =>
      have spec := Storage.tryInsert_spec represents index element
      simp only [Owner.vecStep, Content.vecStep]
      split at spec
      · rename_i outside
        rw [spec, if_pos outside]
        apply unwinding_matches
        exact represents
      · rename_i inside
        split at spec
        · rename_i full
          rw [spec, if_neg inside, if_pos full]
          exact ⟨represents, rfl⟩
        · rename_i room
          rcases spec with ⟨inserted, inserted_eq, after⟩
          rw [inserted_eq, if_neg inside, if_neg room]
          exact ⟨after, rfl⟩
  | swapPop index =>
      rcases Storage.swapPop_spec represents index with ⟨popped, popped_eq, after⟩
      simp only [Owner.vecStep, Content.vecStep, popped_eq]
      exact ⟨after, rfl⟩
  | popAt index =>
      rcases popAt_spec panics represents index with ⟨popped, popped_eq, after⟩
      simp only [Owner.vecStep, Content.vecStep, popped_eq]
      exact ⟨after, rfl⟩
  | extend elements fails =>
      rcases Storage.extend_spec represents elements with ⟨extended, extended_eq, after⟩
      simp only [Owner.vecStep, Content.vecStep, extended_eq]
      cases left : elements.drop (cap - elems.length) with
      | nil => exact ⟨after, rfl⟩
      | cons element rest =>
          apply unwinding_matches
          exact after
  | retain answer =>
      rcases retain_spec panics (reading answer) [] represents with ⟨retained, retained_eq, after⟩
      simp only [Owner.vecStep, Content.vecStep, retained_eq]
      exact ⟨after, rfl⟩
  | drain start stop =>
      have spec := drainRange_spec represents start stop
      simp only [Owner.vecStep, Content.vecStep]
      split at spec
      · rename_i inside
        rcases spec with ⟨borrow, shortened, drained, borrowed⟩
        rw [drained, if_pos inside]
        exact ⟨borrowed, rfl⟩
      · rename_i outside
        rw [spec, if_neg outside]
        exact ⟨represents, rfl⟩
  | intoIter => exact ⟨IntoIter.of_represents represents, rfl⟩
  | finish =>
      rcases Storage.truncate_spec represents 0 with ⟨truncated, truncated_eq, -⟩
      simp only [Owner.vecStep, Content.vecStep, truncated_eq]
      apply dropping_matches
      exact trivial
  | forget => exact ⟨trivial, rfl⟩
  | next => exact trivial
  | nextBack => exact trivial

theorem drainStep_matches {storage : Storage α cap} {borrow : Drain} {before range tail : List α}
    (represents : borrow.Represents storage before range tail) (action : Action α) :
    Matches (Owner.drainStep panics storage borrow action)
      (Content.drainStep panics before range tail action) := by
  cases action with
  | next =>
      rcases Drain.next_spec represents with ⟨rest, next_eq, after⟩
      simp only [Owner.drainStep, Content.drainStep, next_eq]
      exact ⟨after, rfl⟩
  | nextBack =>
      rcases Drain.nextBack_spec represents with ⟨rest, next_eq, after⟩
      simp only [Owner.drainStep, Content.drainStep, next_eq]
      exact ⟨after, rfl⟩
  | finish =>
      have spec := Drain.drop_spec panics represents
      simp only [Owner.drainStep, Content.drainStep]
      split at spec
      · rename_i destroyed
        rw [spec, if_pos destroyed]
        exact ⟨represents.shortened, rfl⟩
      · rename_i quiet
        rcases spec with ⟨restored, dropped, after⟩
        rw [dropped, if_neg quiet]
        exact ⟨after, rfl⟩
  | forget => exact ⟨represents.shortened, rfl⟩
  | _ => exact trivial

theorem iterStep_matches {taken : IntoIter α cap} {rest : List α}
    (represents : taken.Represents rest) (action : Action α) :
    Matches (Owner.iterStep panics taken action) (Content.iterStep panics rest action) := by
  cases action with
  | next =>
      rcases IntoIter.next_spec represents with ⟨later, next_eq, after⟩
      simp only [Owner.iterStep, Content.iterStep, next_eq]
      exact ⟨after, rfl⟩
  | nextBack =>
      rcases IntoIter.nextBack_spec represents with ⟨earlier, next_eq, after⟩
      simp only [Owner.iterStep, Content.iterStep, next_eq]
      exact ⟨after, rfl⟩
  | finish =>
      simp only [Owner.iterStep, Content.iterStep, IntoIter.drop_spec represents]
      apply dropping_matches
      exact trivial
  | forget => exact ⟨trivial, rfl⟩
  | _ => exact trivial

theorem step_matches {owner : Owner α cap} {content : Content α}
    (represents : owner.Represents content) (action : Action α) :
    Matches (owner.step panics action) (content.step panics cap action) := by
  cases owner with
  | vec storage =>
      cases content with
      | vec elems => exact vecStep_matches represents action
      | _ => exact represents.elim
  | drain storage borrow =>
      cases content with
      | drain before range tail => exact drainStep_matches represents action
      | _ => exact represents.elim
  | iter taken =>
      cases content with
      | iter rest => exact iterStep_matches represents action
      | _ => exact represents.elim
  | gone =>
      cases content with
      | gone => exact trivial
      | _ => exact represents.elim

end Nethuns.ArrayVec
