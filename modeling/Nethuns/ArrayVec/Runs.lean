import Nethuns.ArrayVec.Client

/-!
# What a vector does to its values, over whole runs

The calls of the owner are added up: the values that went in, that were handed out, and that were
dropped. The storage machine and the list machine agree on all of them, and no value is handed out
or dropped more often than it went in.
-/

namespace Nethuns.ArrayVec

open Nethuns.Lib

universe u

variable {α : Type u} {cap : ℕ}

/-- The vector and its books. -/
structure Session (α : Type u) (cap : ℕ) where
  owner : Owner α cap
  entered : List α := []
  returned : List α := []
  dropped : List α := []

/-- The books of the list machine know what was lost. -/
structure Books (α : Type u) where
  content : Content α
  entered : List α := []
  returned : List α := []
  dropped : List α := []
  lost : List α := []

namespace Session

def start : Session α cap := { owner := .vec .new }

def step (panics : α → Bool) (session : Session α cap) (action : Action α) :
    Option (Session α cap) :=
  (session.owner.step panics action).map fun (owner, effect) =>
    { owner := owner
      entered := session.entered ++ effect.entered
      returned := session.returned ++ effect.returned
      dropped := session.dropped ++ effect.dropped }

end Session

namespace Books

def start : Books α := { content := .vec [] }

def step (panics : α → Bool) (cap : ℕ) (books : Books α) (action : Action α) :
    Option (Books α) :=
  (books.content.step panics cap action).map fun (content, effect, lost) =>
    { content := content
      entered := books.entered ++ effect.entered
      returned := books.returned ++ effect.returned
      dropped := books.dropped ++ effect.dropped
      lost := books.lost ++ lost }

end Books

/-- The two machines are in the same state, and their books agree. -/
structure Session.Refines (session : Session α cap) (books : Books α) : Prop where
  represents : session.owner.Represents books.content
  entered_eq : session.entered = books.entered
  returned_eq : session.returned = books.returned
  dropped_eq : session.dropped = books.dropped

variable {panics : α → Bool}

theorem start_refines : (Session.start : Session α cap).Refines Books.start :=
  ⟨Storage.new_represents, rfl, rfl, rfl⟩

theorem step_refines {session : Session α cap} {books : Books α} (action : Action α)
    (refines : session.Refines books) :
    Option.Rel Session.Refines (session.step panics action) (books.step panics cap action) := by
  have matched := @step_matches α cap panics _ _ refines.represents action
  simp only [Session.step, Books.step]
  cases concrete : session.owner.step panics action with
  | none =>
      cases abstract : books.content.step panics cap action with
      | none => exact .none
      | some result => simp [concrete, abstract, Matches] at matched
  | some result =>
      rcases result with ⟨owner, effect⟩
      cases abstract : books.content.step panics cap action with
      | none => simp [concrete, abstract, Matches] at matched
      | some result =>
          rcases result with ⟨content, expected, lost⟩
          rw [concrete, abstract] at matched
          rcases matched with ⟨represents, rfl⟩
          refine .some ⟨represents, ?_, ?_, ?_⟩
          · exact congrArg (· ++ effect.entered) refines.entered_eq
          · exact congrArg (· ++ effect.returned) refines.returned_eq
          · exact congrArg (· ++ effect.dropped) refines.dropped_eq

theorem run_refines (panics : α → Bool) (actions : List (Action α)) :
    Option.Rel Session.Refines
      (run (Session.step panics) (Session.start : Session α cap) actions)
      (run (Books.step panics cap) Books.start actions) := by
  have meets : RunMeets (Session.step panics) (fun _ _ => True)
      (Session.start : Session α cap) actions := runMeets_of_forall fun _ _ _ => trivial
  apply run_related _ start_refines meets
  intro session books action refines _
  exact step_refines action refines

/-! ## Calls that are possible -/

/-- What the types let the owner call. -/
def Owner.offers : Owner α cap → Action α → Bool
  | .vec _, .next | .vec _, .nextBack => false
  | .vec _, _ => true
  | .drain _ _, .next | .drain _ _, .nextBack | .drain _ _, .finish | .drain _ _, .forget => true
  | .drain _ _, _ => false
  | .iter _, .next | .iter _, .nextBack | .iter _, .finish | .iter _, .forget => true
  | .iter _, _ => false
  | .gone, _ => false

theorem vecStep_isSome (storage : Storage α cap) (elems : List α) (action : Action α) :
    (Content.vecStep panics cap elems action).isSome = (Owner.vec storage).offers action := by
  cases action with
  | next | nextBack => rfl
  | _ =>
      simp only [Content.vecStep, Owner.offers]
      repeat' split
      all_goals rfl

theorem drainStep_isSome (storage : Storage α cap) (borrow : Drain) (before range tail : List α)
    (action : Action α) :
    (Content.drainStep panics before range tail action).isSome =
      (Owner.drain storage borrow).offers action := by
  cases action with
  | finish =>
      simp only [Content.drainStep, Owner.offers]
      split <;> rfl
  | _ => rfl

theorem content_step_isSome {owner : Owner α cap} {content : Content α}
    (represents : owner.Represents content) (action : Action α) :
    (content.step panics cap action).isSome = owner.offers action := by
  cases owner with
  | vec storage =>
      cases content with
      | vec elems => exact vecStep_isSome storage elems action
      | _ => exact represents.elim
  | drain storage borrow =>
      cases content with
      | drain before range tail => exact drainStep_isSome storage borrow before range tail action
      | _ => exact represents.elim
  | iter taken =>
      cases content with
      | iter rest => cases action <;> rfl
      | _ => exact represents.elim
  | gone =>
      cases content with
      | gone => rfl
      | _ => exact represents.elim

/-! ## Where the values are -/

theorem dropInPlace_initial (panics : α → Bool) (values : List α) :
    (dropInPlace panics values).1 <+: values := by
  simp only [dropInPlace]
  split
  · split
    · refine ⟨(dropUntilPanic panics (dropUntilPanic panics values).2).2, ?_⟩
      rw [List.append_assoc, dropUntilPanic_append, dropUntilPanic_append]
    · exact List.prefix_rfl
  · exact List.prefix_rfl

theorem dropInPlace_all {values : List α} (goes_on : (dropInPlace panics values).2 ≠ .aborts) :
    (dropInPlace panics values).1 = values := by
  simp only [dropInPlace] at goes_on ⊢
  split
  · rename_i some_panics
    split
    · rename_i more_panics
      simp [some_panics, more_panics] at goes_on
    · rfl
  · rfl

/-- Each element is kept, dropped or not visited, and those that stay are in order. -/
theorem sift_parts (answer : List α → Verdict) (seen elems : List α) :
    (((sift panics (reading answer) seen elems).kept ++
          (sift panics (reading answer) seen elems).rest : List α) : Multiset α) +
        ((sift panics (reading answer) seen elems).dropped : Multiset α) = (elems : Multiset α) ∧
      ((sift panics (reading answer) seen elems).kept ++
        (sift panics (reading answer) seen elems).rest).Sublist elems := by
  induction elems generalizing seen with
  | nil => simp [sift]
  | cons element elems ih =>
      rcases ih (seen ++ [element]) with ⟨parts, in_order⟩
      cases verdict : answer (seen ++ [element]) with
      | panic => simp [sift, reading, verdict]
      | delete =>
          cases destroyed : panics element with
          | true =>
              simp [sift, reading, verdict, destroyed, ← Multiset.cons_coe,
                ← Multiset.singleton_add, add_comm]
          | false =>
              simp only [sift, reading, verdict, destroyed, Bool.false_eq_true, if_false]
              refine ⟨?_, in_order.cons element⟩
              rw [← Multiset.cons_coe, ← Multiset.cons_coe, Multiset.add_cons]
              exact congrArg (element ::ₘ ·) parts
      | keep =>
          simp only [sift, reading, verdict, List.cons_append]
          refine ⟨?_, in_order.cons_cons element⟩
          rw [← Multiset.cons_coe, ← Multiset.cons_coe, Multiset.cons_add]
          exact congrArg (element ::ₘ ·) parts

/-- Every value of `before`, and every one that enters, is accounted for after the call. -/
def Balanced (before : List α) (outcome : Content α × Effect α × List α) : Prop :=
  (before : Multiset α) + (outcome.2.1.entered : Multiset α) =
    (outcome.1.all : Multiset α) + (outcome.2.1.returned : Multiset α) +
      (outcome.2.1.dropped : Multiset α) + (outcome.2.2 : Multiset α)

theorem dropping_balanced (values : List α) (content : Content α) :
    Balanced (content.all ++ values) (content.dropping panics values) := by
  have whole := List.prefix_iff_eq_append.mp (dropInPlace_initial panics values)
  have parts := congrArg (fun list : List α => (list : Multiset α)) whole
  simp only [← Multiset.coe_add] at parts
  simp only [Balanced, Content.dropping]
  split
  · simp only [Content.all, ← Multiset.coe_add, Multiset.coe_nil]
    rw [← parts]
    abel
  · rename_i goes_on
    rw [dropInPlace_all goes_on]
    simp only [← Multiset.coe_add, Multiset.coe_nil]
    abel

theorem unwinding_balanced {before entered : List α} {element : α} {content : Content α}
    (balance : (before : Multiset α) + (entered : Multiset α) =
      (content.all : Multiset α) + {element}) :
    Balanced before (content.unwinding panics entered element) := by
  simp only [Balanced, Content.unwinding]
  split
  · simp only [Content.all, balance, Multiset.coe_nil, Multiset.coe_singleton]
    abel
  · simp only [balance, Multiset.coe_nil, Multiset.coe_singleton]
    abel

theorem coe_head_tail (values : List α) :
    (values.tail : Multiset α) + (values.head?.toList : Multiset α) = (values : Multiset α) := by
  cases values <;> simp [← Multiset.cons_coe, ← Multiset.singleton_add, add_comm]

theorem coe_dropLast_getLast (values : List α) :
    (values.dropLast : Multiset α) + (values.getLast?.toList : Multiset α) =
      (values : Multiset α) := by
  rcases List.eq_nil_or_concat values with rfl | ⟨init, last, rfl⟩
  · rfl
  · simp [← Multiset.coe_add]

theorem coe_eraseIdx_getElem (values : List α) (index : ℕ) :
    (values.eraseIdx index : Multiset α) + (values[index]?.toList : Multiset α) =
      (values : Multiset α) := by
  cases held : values[index]? with
  | none =>
      rw [List.eraseIdx_of_length_le (List.getElem?_eq_none_iff.mp held)]
      simp
  | some value => simpa using coe_eraseIdx held

theorem coe_swapRemoved (values : List α) (index : ℕ) :
    (Storage.swapRemoved values index : Multiset α) + (values[index]?.toList : Multiset α) =
      (values : Multiset α) := by
  rcases List.eq_nil_or_concat values with rfl | ⟨init, last, rfl⟩
  · rfl
  · simp only [Storage.swapRemoved, List.concat_eq_append, List.getLast?_concat,
      List.length_append, List.length_singleton]
    split
    · rename_i inside
      by_cases at_end : index = init.length
      · subst at_end
        simp [← Multiset.coe_add]
      · have earlier : index < init.length := by omega
        have held : init[index]? = some init[index] := List.getElem?_eq_getElem earlier
        have exchanged := flatMap_set (fun value => [value]) last held
        simp only [List.flatMap_singleton'] at exchanged
        rw [List.set_append_left _ _ earlier, List.dropLast_concat,
          List.getElem?_append_left earlier, held]
        simpa [← Multiset.coe_add] using exchanged
    · rename_i outside
      have nothing : (init ++ [last])[index]? = none := by
        apply List.getElem?_eq_none
        simp only [List.length_append, List.length_singleton]
        omega
      simp [nothing]

/-- The elements that fit, and the one in hand when the room ran out. -/
theorem pulled_eq {elements rest : List α} {element : α} {room : ℕ}
    (left : elements.drop room = element :: rest) :
    pulled elements rest = elements.take room ++ [element] := by
  have short : room < elements.length := by
    by_contra long
    rw [List.drop_eq_nil_of_le (Nat.le_of_not_lt long)] at left
    exact List.cons_ne_nil _ _ left.symm
  have length := congrArg List.length left
  simp only [List.length_drop, List.length_cons] at length
  have next : elements[room]? = some element := by
    rw [← Nat.add_zero room, ← List.getElem?_drop, left]
    rfl
  have count : elements.length - rest.length = room + 1 := by omega
  rw [pulled, count, List.take_add_one, next]
  rfl

theorem vecStep_balanced {elems : List α} {action : Action α}
    {outcome : Content α × Effect α × List α}
    (stepped : Content.vecStep panics cap elems action = some outcome) :
    Balanced elems outcome := by
  cases action with
  | push element =>
      simp only [Content.vecStep] at stepped
      split at stepped
      · rcases stepped with ⟨rfl⟩
        simp [Balanced, Content.all, ← Multiset.coe_add]
      · rcases stepped with ⟨rfl⟩
        simp [Balanced, Content.all]
  | pop =>
      rcases stepped with ⟨rfl⟩
      simp only [Balanced, Content.all, Multiset.coe_nil, add_zero]
      exact (coe_dropLast_getLast elems).symm
  | truncate newLen =>
      rcases stepped with ⟨rfl⟩
      have balance := @dropping_balanced α panics (elems.drop newLen) (.vec (elems.take newLen))
      rwa [Content.all, List.take_append_drop] at balance
  | insert index element =>
      simp only [Content.vecStep] at stepped
      split at stepped
      · rcases stepped with ⟨rfl⟩
        exact unwinding_balanced rfl
      · split at stepped
        · rcases stepped with ⟨rfl⟩
          simp [Balanced, Content.all]
        · rcases stepped with ⟨rfl⟩
          have parts := congrArg (fun list : List α => (list : Multiset α))
            (List.take_append_drop index elems)
          simp only [← Multiset.coe_add] at parts
          simp only [Balanced, Content.all, ← parts, ← Multiset.coe_add, ← Multiset.cons_coe,
            ← Multiset.singleton_add, Multiset.coe_nil]
          abel
  | swapPop index =>
      rcases stepped with ⟨rfl⟩
      simp only [Balanced, Content.all, Multiset.coe_nil, add_zero]
      exact (coe_swapRemoved elems index).symm
  | popAt index =>
      rcases stepped with ⟨rfl⟩
      simp only [Balanced, Content.all, Multiset.coe_nil, add_zero]
      exact (coe_eraseIdx_getElem elems index).symm
  | extend elements fails =>
      simp only [Content.vecStep] at stepped
      cases left : elements.drop (cap - elems.length) with
      | nil =>
          rw [left] at stepped
          rcases stepped with ⟨rfl⟩
          have whole := List.take_append_drop (cap - elems.length) elements
          rw [left, List.append_nil] at whole
          simp [Balanced, Content.all, whole, ← Multiset.coe_add]
      | cons element rest =>
          rw [left] at stepped
          rcases stepped with ⟨rfl⟩
          apply unwinding_balanced
          rw [pulled_eq left]
          simp only [Content.all, ← Multiset.coe_add, Multiset.coe_singleton]
          abel
  | retain answer =>
      rcases stepped with ⟨rfl⟩
      have parts := (@sift_parts α panics answer [] elems).1
      simpa [Balanced, Content.all] using parts.symm
  | drain start stop =>
      simp only [Content.vecStep] at stepped
      split at stepped
      · rename_i inside
        rcases stepped with ⟨rfl⟩
        have before : elems.take start = (elems.take stop).take start := by
          rw [List.take_take, Nat.min_eq_left inside.1]
        simp [Balanced, Content.all, before]
      · rcases stepped with ⟨rfl⟩
        simp [Balanced, Content.all]
  | intoIter =>
      rcases stepped with ⟨rfl⟩
      simp [Balanced, Content.all]
  | finish =>
      rcases stepped with ⟨rfl⟩
      exact dropping_balanced elems .gone
  | forget =>
      rcases stepped with ⟨rfl⟩
      simp [Balanced, Content.all]
  | next => cases stepped
  | nextBack => cases stepped

theorem drainStep_balanced {before range tail : List α} {action : Action α}
    {outcome : Content α × Effect α × List α}
    (stepped : Content.drainStep panics before range tail action = some outcome) :
    Balanced (before ++ range ++ tail) outcome := by
  cases action with
  | next =>
      rcases stepped with ⟨rfl⟩
      have parts := coe_head_tail range
      simp only [Balanced, Content.all, ← Multiset.coe_add, ← parts, Multiset.coe_nil]
      abel
  | nextBack =>
      rcases stepped with ⟨rfl⟩
      have parts := coe_dropLast_getLast range
      simp only [Balanced, Content.all, ← Multiset.coe_add, ← parts, Multiset.coe_nil]
      abel
  | finish =>
      simp only [Content.drainStep] at stepped
      split at stepped
      · rcases stepped with ⟨rfl⟩
        have parts := congrArg (fun list : List α => (list : Multiset α))
          (dropUntilPanic_append panics range)
        simp only [← Multiset.coe_add] at parts
        simp only [Balanced, Content.all, ← Multiset.coe_add, ← parts, Multiset.coe_nil]
        abel
      · rcases stepped with ⟨rfl⟩
        simp only [Balanced, Content.all, ← Multiset.coe_add, Multiset.coe_nil]
        abel
  | forget =>
      rcases stepped with ⟨rfl⟩
      simp only [Balanced, Content.all, ← Multiset.coe_add, Multiset.coe_nil]
      abel
  | _ => cases stepped

theorem iterStep_balanced {rest : List α} {action : Action α}
    {outcome : Content α × Effect α × List α}
    (stepped : Content.iterStep panics rest action = some outcome) : Balanced rest outcome := by
  cases action with
  | next =>
      rcases stepped with ⟨rfl⟩
      simp only [Balanced, Content.all, Multiset.coe_nil, add_zero]
      exact (coe_head_tail rest).symm
  | nextBack =>
      rcases stepped with ⟨rfl⟩
      simp only [Balanced, Content.all, Multiset.coe_nil, add_zero]
      exact (coe_dropLast_getLast rest).symm
  | finish =>
      rcases stepped with ⟨rfl⟩
      exact dropping_balanced rest .gone
  | forget =>
      rcases stepped with ⟨rfl⟩
      simp [Balanced, Content.all]
  | _ => cases stepped

theorem step_balanced {content : Content α} {action : Action α}
    {outcome : Content α × Effect α × List α}
    (stepped : content.step panics cap action = some outcome) : Balanced content.all outcome := by
  cases content with
  | vec elems => exact vecStep_balanced stepped
  | drain before range tail => exact drainStep_balanced stepped
  | iter rest => exact iterStep_balanced stepped
  | gone => cases stepped

/-- A call after which some values can be neither reached nor dropped: an iterator or a vector that
is leaked, a `Drain` whose destructor unwinds, and whatever aborts. -/
def Owner.loses (panics : α → Bool) (owner : Owner α cap) (action : Action α) : Bool :=
  match owner, action, owner.step panics action with
  | _, .forget, _ => true
  | .drain _ _, _, some (_, effect) => effect.exit != .returns
  | _, _, some (_, effect) => effect.exit == .aborts
  | _, _, none => false

theorem dropping_lost {values : List α} {content : Content α} :
    (content.dropping panics values).2.2 = [] ∨
      (content.dropping panics values).2.1.exit = .aborts := by
  simp only [Content.dropping]
  split
  · rename_i aborts
    exact Or.inr aborts
  · exact Or.inl rfl

theorem unwinding_lost {entered : List α} {element : α} {content : Content α} :
    (content.unwinding panics entered element).2.2 = [] ∨
      (content.unwinding panics entered element).2.1.exit = .aborts := by
  simp only [Content.unwinding]
  split
  · exact Or.inr rfl
  · exact Or.inl rfl

theorem vecStep_lost {elems : List α} {action : Action α}
    {outcome : Content α × Effect α × List α}
    (stepped : Content.vecStep panics cap elems action = some outcome) :
    outcome.2.2 = [] ∨ action = .forget ∨ outcome.2.1.exit = .aborts := by
  cases action with
  | truncate newLen =>
      rcases stepped with ⟨rfl⟩
      exact dropping_lost.imp_right Or.inr
  | finish =>
      rcases stepped with ⟨rfl⟩
      exact dropping_lost.imp_right Or.inr
  | insert index element =>
      simp only [Content.vecStep] at stepped
      split at stepped
      · rcases stepped with ⟨rfl⟩
        exact unwinding_lost.imp_right Or.inr
      · split at stepped <;> exact Or.inl (by rcases stepped with ⟨rfl⟩; rfl)
  | extend elements fails =>
      simp only [Content.vecStep] at stepped
      split at stepped
      · rcases stepped with ⟨rfl⟩
        exact Or.inl rfl
      · rcases stepped with ⟨rfl⟩
        exact unwinding_lost.imp_right Or.inr
  | push element =>
      simp only [Content.vecStep] at stepped
      split at stepped <;> exact Or.inl (by rcases stepped with ⟨rfl⟩; rfl)
  | drain start stop =>
      simp only [Content.vecStep] at stepped
      split at stepped <;> exact Or.inl (by rcases stepped with ⟨rfl⟩; rfl)
  | forget => exact Or.inr (Or.inl rfl)
  | next => cases stepped
  | nextBack => cases stepped
  | _ =>
      rcases stepped with ⟨rfl⟩
      exact Or.inl rfl

theorem drainStep_lost {before range tail : List α} {action : Action α}
    {outcome : Content α × Effect α × List α}
    (stepped : Content.drainStep panics before range tail action = some outcome) :
    outcome.2.2 = [] ∨ action = .forget ∨ outcome.2.1.exit = .unwinds := by
  cases action with
  | finish =>
      simp only [Content.drainStep] at stepped
      split at stepped
      · rcases stepped with ⟨rfl⟩
        exact Or.inr (Or.inr rfl)
      · rcases stepped with ⟨rfl⟩
        exact Or.inl rfl
  | forget => exact Or.inr (Or.inl rfl)
  | next | nextBack =>
      rcases stepped with ⟨rfl⟩
      exact Or.inl rfl
  | _ => cases stepped

theorem iterStep_lost {rest : List α} {action : Action α}
    {outcome : Content α × Effect α × List α}
    (stepped : Content.iterStep panics rest action = some outcome) :
    outcome.2.2 = [] ∨ action = .forget ∨ outcome.2.1.exit = .aborts := by
  cases action with
  | finish =>
      rcases stepped with ⟨rfl⟩
      exact dropping_lost.imp_right Or.inr
  | forget => exact Or.inr (Or.inl rfl)
  | next | nextBack =>
      rcases stepped with ⟨rfl⟩
      exact Or.inl rfl
  | _ => cases stepped

/-- How a call that loses nothing ends. -/
theorem Owner.exit_of_careful {owner next : Owner α cap} {action : Action α} {effect : Effect α}
    (performed : owner.step panics action = some (next, effect))
    (careful : owner.loses panics action = false) :
    action ≠ .forget ∧ effect.exit ≠ .aborts ∧
      ∀ storage borrow, owner = .drain storage borrow → effect.exit ≠ .unwinds := by
  refine ⟨?_, ?_, ?_⟩
  · rintro rfl
    simp [Owner.loses] at careful
  · intro aborts
    cases owner <;> cases action <;> simp_all [Owner.loses]
  · rintro storage borrow rfl unwinds
    cases action <;> simp_all [Owner.loses]

theorem step_lost {owner next : Owner α cap} {content after : Content α} {action : Action α}
    {effect : Effect α} {lost : List α} (represents : owner.Represents content)
    (performed : owner.step panics action = some (next, effect))
    (stepped : content.step panics cap action = some (after, effect, lost))
    (careful : owner.loses panics action = false) : lost = [] := by
  rcases Owner.exit_of_careful performed careful with ⟨no_forget, goes_on, returns⟩
  cases owner with
  | vec storage =>
      cases content with
      | vec elems =>
          exact (vecStep_lost stepped).resolve_right fun bad => bad.elim no_forget goes_on
      | _ => exact represents.elim
  | drain storage borrow =>
      cases content with
      | drain before range tail =>
          exact (drainStep_lost stepped).resolve_right fun bad =>
            bad.elim no_forget (returns storage borrow rfl)
      | _ => exact represents.elim
  | iter taken =>
      cases content with
      | iter rest =>
          exact (iterStep_lost stepped).resolve_right fun bad => bad.elim no_forget goes_on
      | _ => exact represents.elim
  | gone => cases performed

/-- The books close: what went in is still there, was handed out, was dropped, or is lost. -/
def Books.Closed (books : Books α) : Prop :=
  (books.entered : Multiset α) =
    (books.content.all : Multiset α) + (books.returned : Multiset α) +
      (books.dropped : Multiset α) + (books.lost : Multiset α)

theorem step_closed {books next : Books α} {action : Action α} (closed : books.Closed)
    (stepped : books.step panics cap action = some next) : next.Closed := by
  simp only [Books.step, Option.map_eq_some_iff] at stepped
  rcases stepped with ⟨outcome, stepped, rfl⟩
  have balance := step_balanced stepped
  simp only [Books.Closed, Balanced, ← Multiset.coe_add] at closed balance ⊢
  rw [closed]
  calc (books.content.all : Multiset α) + books.returned + books.dropped + books.lost +
        outcome.2.1.entered
      = (books.content.all + outcome.2.1.entered : Multiset α) + books.returned +
          books.dropped + books.lost := by abel
    _ = _ := by
      rw [balance]
      abel

/-- Nothing has been lost yet. -/
theorem step_complete {session : Session α cap} {books : Books α} (action : Action α)
    (related : session.Refines books ∧ books.lost = [])
    (careful : session.owner.loses panics action = false) :
    Option.Rel (fun (session : Session α cap) (books : Books α) =>
        session.Refines books ∧ books.lost = [])
      (session.step panics action) (books.step panics cap action) := by
  rcases related with ⟨refines, nothing_lost⟩
  apply rel_imp (step_refines action refines)
  intro next after concrete abstract stepped
  refine ⟨stepped, ?_⟩
  simp only [Session.step, Books.step, Option.map_eq_some_iff] at concrete abstract
  rcases concrete with ⟨⟨owner, effect⟩, performed, rfl⟩
  rcases abstract with ⟨⟨content, expected, lost⟩, described, rfl⟩
  have matched := @step_matches α cap panics _ _ refines.represents action
  rw [performed, described] at matched
  rcases matched with ⟨-, rfl⟩
  have none_lost := step_lost refines.represents performed described careful
  simp only [nothing_lost, none_lost, List.append_nil]

/-- The raw storage of values that are not zero-sized computes what the lists say, in every run: the
same calls go through, with the same results and the same values dropped. Whatever panics, a call
that the types allow never reads an uninitialized cell or leaves the array. -/
theorem vector_refines (panics : α → Bool) (actions : List (Action α)) :
    Option.Rel Session.Refines
        (run (Session.step panics) (Session.start : Session α cap) actions)
        (run (Books.step panics cap) Books.start actions) ∧
      ∀ final, run (Session.step panics) (Session.start : Session α cap) actions = some final →
        ∀ action, (final.step panics action).isSome = final.owner.offers action := by
  have refines := @run_refines α cap panics actions
  refine ⟨refines, ?_⟩
  intro final performed action
  rw [performed] at refines
  rcases rel_some refines with ⟨books, -, refined⟩
  have same := rel_isSome (@step_refines α cap panics _ _ action refined)
  rw [same, Books.step, Option.isSome_map]
  exact content_step_isSome refined.represents action

/-- Every value, of a type that is not zero-sized, that goes in is still in the vector, was handed
out, was dropped or is lost, just once. Values are lost only by a leak, by a panic in the destructor
of a `Drain`, or with the whole process. -/
theorem values_conserved {actions : List (Action α)} {final : Session α cap}
    (performed : run (Session.step panics) Session.start actions = some final) :
    ∃ (content : Content α) (lost : List α), final.owner.Represents content ∧
      (final.entered : Multiset α) =
        (content.all : Multiset α) + (final.returned : Multiset α) +
          (final.dropped : Multiset α) + (lost : Multiset α) ∧
      (RunMeets (Session.step panics)
        (fun session action => session.owner.loses panics action = false)
        (Session.start : Session α cap) actions → lost = []) := by
  have refines := @run_refines α cap panics actions
  rw [performed] at refines
  rcases rel_some refines with ⟨books, described, refined⟩
  have closed : books.Closed := by
    apply run_invariant_of_step Books.Closed step_closed _ described
    simp [Books.Closed, Books.start, Content.all]
  refine ⟨books.content, books.lost, refined.represents, ?_, ?_⟩
  · rw [refined.entered_eq, refined.returned_eq, refined.dropped_eq]
    exact closed
  · intro careful
    have complete := run_related step_complete ⟨start_refines, rfl⟩ careful
    rw [performed] at complete
    rcases rel_some complete with ⟨model, described', -, nothing_lost⟩
    rw [described, Option.some.injEq] at described'
    exact described' ▸ nothing_lost

/-- A destructor panics in the middle of `retain`, and the rest goes on. -/
theorem values_conserved_retain :
    ∃ (final : Session ℕ 4) (content : Content ℕ),
      run (Session.step fun value => value == 7) Session.start
          [.push 7, .push 2, .push 3, .retain fun _ => .delete, .drain 0 1, .nextBack,
            .finish] = some final ∧
        final.dropped = [7] ∧ final.returned = [2] ∧
        (final.entered : Multiset ℕ) = (content.all : Multiset ℕ) + (final.returned : Multiset ℕ) +
          (final.dropped : Multiset ℕ) := by
  have outcome : (run (Session.step fun value => value == 7) (Session.start : Session ℕ 4)
      [.push 7, .push 2, .push 3, .retain fun _ => .delete, .drain 0 1, .nextBack, .finish]).map
        (fun session => (session.dropped, session.returned)) = some ([7], [2]) := by
    decide +kernel
  rcases Option.map_eq_some_iff.mp outcome with ⟨final, performed, books⟩
  rcases values_conserved performed with ⟨content, lost, -, closed, complete⟩
  have nothing_lost := complete (by decide +kernel)
  rw [nothing_lost, Multiset.coe_nil, add_zero] at closed
  exact ⟨final, content, performed, congrArg Prod.fst books, congrArg Prod.snd books, closed⟩

end Nethuns.ArrayVec
