import Mathlib.Data.Option.Basic

/-!
# Runs of a partial step function

A component is a state together with a partial step function: `step state action` is `none`
when the action cannot be performed in that state, or when performing it aborts the program.
A run is a list of actions performed one after the other. This file gives the two rules by
which every safety statement of the development is proved: an invariant preserved by each
step holds after every run, and two conditions that agree on the states of an invariant hold
at every step of the same runs.
-/

namespace Nethuns.Lib

universe u v w

variable {State : Type u} {Action : Type v}

/-- The state after performing all the actions in turn, when none of them aborts. -/
def run (step : State → Action → Option State) (state : State) : List Action → Option State
  | [] => some state
  | action :: actions => (step state action).bind fun next => run step next actions

/-- Every action of the run meets `condition` in the state in which it is performed. -/
def RunMeets (step : State → Action → Option State) (condition : State → Action → Prop)
    (state : State) : List Action → Prop
  | [] => True
  | action :: actions =>
      condition state action ∧
        ∀ next, step state action = some next → RunMeets step condition next actions

section

variable {step : State → Action → Option State} {condition : State → Action → Prop}

@[simp]
theorem run_nil (state : State) : run step state [] = some state := rfl

theorem run_cons_eq_some {state final : State} {action : Action} {actions : List Action} :
    run step state (action :: actions) = some final ↔
      ∃ next, step state action = some next ∧ run step next actions = some final := by
  simp [run, Option.bind_eq_some_iff]

theorem run_append (state : State) (first second : List Action) :
    run step state (first ++ second) =
      (run step state first).bind fun middle => run step middle second := by
  induction first generalizing state with
  | nil => rfl
  | cons action first ih => simp only [List.cons_append, run, ih, Option.bind_assoc]

/-- Some run leads from the one state to the other. -/
def Reaches (step : State → Action → Option State) (state final : State) : Prop :=
  ∃ actions, run step state actions = some final

theorem Reaches.refl (state : State) : Reaches step state state := ⟨[], rfl⟩

theorem Reaches.trans {state middle final : State} (first : Reaches step state middle)
    (second : Reaches step middle final) : Reaches step state final := by
  rcases first with ⟨actions, performed⟩
  rcases second with ⟨more, performed'⟩
  exact ⟨actions ++ more, by rw [run_append, performed, Option.bind_some, performed']⟩

theorem Reaches.of_step {state next : State} (action : Action)
    (stepped : step state action = some next) : Reaches step state next :=
  ⟨[action], run_cons_eq_some.mpr ⟨next, stepped, rfl⟩⟩

/-- The simulation rule: where each step of one machine is matched by some run of another, so is
each run. -/
theorem Reaches.of_run {Fine : Type*} {Move : Type*} {fine : Fine → Move → Option Fine}
    (image : State → Fine) (invariant : State → Prop)
    (matched : ∀ {state next action}, invariant state → step state action = some next →
      invariant next ∧ Reaches fine (image state) (image next))
    {state final : State} {actions : List Action} (initial : invariant state)
    (performed : run step state actions = some final) :
    Reaches fine (image state) (image final) := by
  induction actions generalizing state with
  | nil =>
      simp only [run_nil, Option.some.injEq] at performed
      exact performed ▸ .refl (image state)
  | cons action actions ih =>
      rcases run_cons_eq_some.mp performed with ⟨next, stepped, rest⟩
      rcases matched initial stepped with ⟨kept, reached⟩
      exact reached.trans (ih kept rest)

instance RunMeets.decidable [∀ state action, Decidable (condition state action)]
    (state : State) (actions : List Action) : Decidable (RunMeets step condition state actions) :=
  match actions with
  | [] => .isTrue trivial
  | action :: actions =>
      match performed : step state action with
      | none =>
          decidable_of_iff (condition state action) (by simp [RunMeets, performed])
      | some next =>
          have := RunMeets.decidable next actions
          decidable_of_iff (condition state action ∧ RunMeets step condition next actions)
            (by simp [RunMeets, performed])

theorem runMeets_of_forall {state : State} {actions : List Action}
    (all : ∀ action ∈ actions, ∀ state, condition state action) :
    RunMeets step condition state actions := by
  induction actions generalizing state with
  | nil => trivial
  | cons action actions ih =>
      simp only [List.forall_mem_cons] at all
      exact ⟨all.1 state, fun _ _ => ih all.2⟩

/-- Along a run that is performed, a condition on the actions alone is met by all of them. -/
theorem runMeets_iff_forall {allowed : Action → Prop} {state final : State}
    {actions : List Action} (performed : run step state actions = some final) :
    RunMeets step (fun _ action => allowed action) state actions ↔
      ∀ action ∈ actions, allowed action := by
  induction actions generalizing state with
  | nil => simp [RunMeets]
  | cons action actions ih =>
      rcases run_cons_eq_some.mp performed with ⟨next, stepped, rest⟩
      simp only [RunMeets, stepped, Option.some.injEq, forall_eq', ih rest, List.forall_mem_cons]

theorem runMeets_isSome {state final : State} {actions : List Action}
    (performed : run step state actions = some final) :
    RunMeets step (fun state action => (step state action).isSome = true) state actions := by
  induction actions generalizing state with
  | nil => trivial
  | cons action actions ih =>
      rcases run_cons_eq_some.mp performed with ⟨next, stepped, rest⟩
      refine ⟨by simp [stepped], ?_⟩
      intro other stepped'
      rw [stepped, Option.some.injEq] at stepped'
      exact stepped' ▸ ih rest

theorem RunMeets.and {other : State → Action → Prop} {state : State} {actions : List Action}
    (meets : RunMeets step condition state actions) (meets' : RunMeets step other state actions) :
    RunMeets step (fun state action => condition state action ∧ other state action) state
      actions := by
  induction actions generalizing state with
  | nil => trivial
  | cons action actions ih =>
      exact ⟨⟨meets.1, meets'.1⟩, fun next stepped =>
        ih (meets.2 next stepped) (meets'.2 next stepped)⟩

/-- Where the invariant holds, a condition may be replaced by one that follows from it. -/
theorem RunMeets.imp (invariant : State → Prop) {other : State → Action → Prop}
    (implied : ∀ {state action}, invariant state → condition state action → other state action)
    (preserved : ∀ {state next action}, invariant state → condition state action →
      step state action = some next → invariant next)
    {state : State} {actions : List Action} (initial : invariant state)
    (meets : RunMeets step condition state actions) : RunMeets step other state actions := by
  induction actions generalizing state with
  | nil => trivial
  | cons action actions ih =>
      refine ⟨implied initial meets.1, ?_⟩
      intro next stepped
      exact ih (preserved initial meets.1 stepped) (meets.2 next stepped)

/-- The invariant rule: what each step preserves, whenever it meets the condition, holds
after every run whose steps all meet it. -/
theorem run_invariant (invariant : State → Prop)
    (preserved : ∀ {state next action}, invariant state → condition state action →
      step state action = some next → invariant next)
    {state final : State} {actions : List Action} (initial : invariant state)
    (meets : RunMeets step condition state actions)
    (performed : run step state actions = some final) : invariant final := by
  induction actions generalizing state with
  | nil =>
      simp only [run_nil, Option.some.injEq] at performed
      exact performed ▸ initial
  | cons action actions ih =>
      rcases run_cons_eq_some.mp performed with ⟨next, stepped, rest⟩
      exact ih (preserved initial meets.1 stepped) (meets.2 next stepped) rest

theorem run_invariant_of_step (invariant : State → Prop)
    (preserved : ∀ {state next action}, invariant state → step state action = some next →
      invariant next)
    {state final : State} {actions : List Action} (initial : invariant state)
    (performed : run step state actions = some final) : invariant final := by
  have meets : RunMeets step (fun _ _ => True) state actions :=
    runMeets_of_forall fun _ _ _ => trivial
  apply run_invariant invariant _ initial meets performed
  intro state next action held _ stepped
  exact preserved held stepped

/-- Where a step that meets the condition cannot abort, neither can a run, and the invariant
holds after it. -/
theorem run_of_step (invariant : State → Prop)
    (performs : ∀ {state action}, invariant state → condition state action →
      ∃ next, step state action = some next ∧ invariant next)
    {state : State} {actions : List Action} (initial : invariant state)
    (meets : RunMeets step condition state actions) :
    ∃ final, run step state actions = some final ∧ invariant final := by
  induction actions generalizing state with
  | nil => exact ⟨state, rfl, initial⟩
  | cons action actions ih =>
      rcases performs initial meets.1 with ⟨next, stepped, kept⟩
      rcases ih kept (meets.2 next stepped) with ⟨final, performed, after⟩
      exact ⟨final, run_cons_eq_some.mpr ⟨next, stepped, performed⟩, after⟩

/-- The run leads to the final state, and each of its steps meets the condition. -/
structure Passes (step : State → Action → Option State) (condition : State → Action → Prop)
    (state : State) (actions : List Action) (final : State) : Prop where
  performed : run step state actions = some final
  meets : RunMeets step condition state actions

theorem Passes.nil (state : State) : Passes step condition state [] state := ⟨rfl, trivial⟩

theorem Passes.cons {state next final : State} {action : Action} {actions : List Action}
    (met : condition state action) (stepped : step state action = some next)
    (rest : Passes step condition next actions final) :
    Passes step condition state (action :: actions) final := by
  refine ⟨run_cons_eq_some.mpr ⟨next, stepped, rest.performed⟩, met, ?_⟩
  intro other stepped'
  rw [stepped, Option.some.injEq] at stepped'
  exact stepped' ▸ rest.meets

theorem Passes.append {state middle final : State} {first second : List Action}
    (early : Passes step condition state first middle)
    (late : Passes step condition middle second final) :
    Passes step condition state (first ++ second) final := by
  induction first generalizing state with
  | nil =>
      have same := early.performed
      simp only [run_nil, Option.some.injEq] at same
      exact same ▸ late
  | cons action first ih =>
      rcases run_cons_eq_some.mp early.performed with ⟨next, stepped, rest⟩
      exact .cons early.meets.1 stepped (ih ⟨rest, early.meets.2 next stepped⟩)

theorem Passes.imp {other : State → Action → Prop} {state final : State} {actions : List Action}
    (passes : Passes step condition state actions final)
    (implied : ∀ {state action}, condition state action → other state action) :
    Passes step other state actions final := by
  refine ⟨passes.performed, ?_⟩
  exact RunMeets.imp (fun _ => True) (fun _ => implied) (fun _ _ _ => trivial) trivial passes.meets

/-- Two conditions that agree wherever the invariant holds are met by the same runs, provided
the steps that meet them preserve the invariant. Both may rest on an assumption that the run is
known to meet. -/
theorem runMeets_iff_of {assumption : State → Action → Prop} (invariant : State → Prop)
    {left right : State → Action → Prop}
    (agree : ∀ {state action}, invariant state → assumption state action →
      (left state action ↔ right state action))
    (preserved : ∀ {state next action}, invariant state → assumption state action →
      right state action → step state action = some next → invariant next)
    {state : State} {actions : List Action} (initial : invariant state)
    (assumed : RunMeets step assumption state actions) :
    RunMeets step left state actions ↔ RunMeets step right state actions := by
  induction actions generalizing state with
  | nil => simp [RunMeets]
  | cons action actions ih =>
      rcases assumed with ⟨allowed, rest⟩
      simp only [RunMeets]
      constructor
      · rintro ⟨now, later⟩
        have here := (agree initial allowed).mp now
        exact ⟨here, fun next stepped =>
          (ih (preserved initial allowed here stepped) (rest next stepped)).mp
            (later next stepped)⟩
      · rintro ⟨now, later⟩
        exact ⟨(agree initial allowed).mpr now, fun next stepped =>
          (ih (preserved initial allowed now stepped) (rest next stepped)).mpr
            (later next stepped)⟩

theorem runMeets_iff (invariant : State → Prop) {left right : State → Action → Prop}
    (agree : ∀ {state action}, invariant state → (left state action ↔ right state action))
    (preserved : ∀ {state next action}, invariant state → right state action →
      step state action = some next → invariant next)
    {state : State} {actions : List Action} (initial : invariant state) :
    RunMeets step left state actions ↔ RunMeets step right state actions := by
  have assumed : RunMeets step (fun _ _ => True) state actions :=
    runMeets_of_forall fun _ _ _ => trivial
  exact runMeets_iff_of invariant (fun here _ => agree here)
    (fun here _ => preserved here) initial assumed

/-- The condition holds at the action that follows a performed prefix. -/
theorem RunMeets.after {state middle : State} {first second : List Action} {action : Action}
    (meets : RunMeets step condition state (first ++ action :: second))
    (performed : run step state first = some middle) : condition middle action := by
  induction first generalizing state with
  | nil =>
      simp only [run_nil, Option.some.injEq] at performed
      exact performed ▸ meets.1
  | cons action first ih =>
      rcases run_cons_eq_some.mp performed with ⟨next, stepped, rest⟩
      exact ih (meets.2 next stepped) rest

/-- A run in two parts. -/
theorem RunMeets.split {state middle : State} {first second : List Action}
    (meets : RunMeets step condition state (first ++ second))
    (performed : run step state first = some middle) :
    RunMeets step condition state first ∧ RunMeets step condition middle second := by
  induction first generalizing state with
  | nil =>
      simp only [run_nil, Option.some.injEq] at performed
      exact ⟨trivial, performed ▸ meets⟩
  | cons action first ih =>
      rcases run_cons_eq_some.mp performed with ⟨next, stepped, rest⟩
      rcases ih (meets.2 next stepped) rest with ⟨earlier, later⟩
      refine ⟨⟨meets.1, ?_⟩, later⟩
      intro other stepped'
      rw [stepped, Option.some.injEq] at stepped'
      exact stepped' ▸ earlier

section

variable {Model : Type w} {Related Stronger : State → Model → Prop} {next : Option State}
  {modelNext : Option Model}

theorem rel_isSome (related : Option.Rel Related next modelNext) :
    next.isSome = modelNext.isSome := by
  cases related <;> rfl

theorem rel_some {state : State} (related : Option.Rel Related (some state) modelNext) :
    ∃ model, modelNext = some model ∧ Related state model := by
  cases related with
  | some related => exact ⟨_, rfl, related⟩

theorem rel_imp (related : Option.Rel Related next modelNext)
    (implied : ∀ state model, next = some state → modelNext = some model → Related state model →
      Stronger state model) : Option.Rel Stronger next modelNext := by
  cases related with
  | some related => exact .some (implied _ _ rfl rfl related)
  | none => exact .none

end

/-- The simulation rule for machines that perform the same actions: they perform the same runs if
they stay related, provided the actions meet a condition. -/
theorem run_related {Model : Type w} {modelStep : Model → Action → Option Model}
    {Related : State → Model → Prop}
    (matched : ∀ {state model} action, Related state model → condition state action →
      Option.Rel Related (step state action) (modelStep model action))
    {state : State} {model : Model} (initial : Related state model) {actions : List Action}
    (meets : RunMeets step condition state actions) :
    Option.Rel Related (run step state actions) (run modelStep model actions) := by
  induction actions generalizing state model with
  | nil => exact .some initial
  | cons action actions ih =>
      have first := matched action initial meets.1
      have later := meets.2
      simp only [run]
      generalize step state action = next at first later ⊢
      generalize modelStep model action = modelNext at first ⊢
      cases first with
      | none => exact .none
      | some related => exact ih related (later _ rfl)

end

end Nethuns.Lib
