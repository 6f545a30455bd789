import Mathlib.Data.List.Basic
import Mathlib.Logic.Function.Basic

/-!
# Memory of cells

An array of cells that may be uninitialized, with the accesses of raw pointers: a write leaves one
cell initialized, a copy moves the bits of a range of cells to another range, which may overlap it.
Neither says anything about who owns the values. What a program knows about a part of the memory
is the list of values that it holds there.
-/

namespace Nethuns.Lib

universe u

/-- An uninitialized cell holds nothing. -/
abbrev Cells (Value : Type u) := ℕ → Option Value

namespace Cells

variable {Value : Type u} {cells other : Cells Value} {start position : ℕ} {value : Value}
  {values left right : List Value}

def write (cells : Cells Value) (position : ℕ) (value : Value) : Cells Value :=
  Function.update cells position (some value)

/-- `memmove`: the target range holds what the source range held before. -/
def copy (cells : Cells Value) (source target count : ℕ) : Cells Value := fun position =>
  if target ≤ position ∧ position < target + count then cells (source + (position - target))
  else cells position

/-- Reads `count` cells in order. Nothing is read if one of them is uninitialized. -/
def readAll (cells : Cells Value) (start : ℕ) : ℕ → Option (List Value)
  | 0 => some []
  | count + 1 =>
      (cells start).bind fun value =>
        (cells.readAll (start + 1) count).map fun values => value :: values

/-- The cells from `start` on hold the values, in this order. -/
def Holds (cells : Cells Value) : ℕ → List Value → Prop
  | _, [] => True
  | start, value :: values => cells start = some value ∧ cells.Holds (start + 1) values

@[simp]
theorem holds_nil : cells.Holds start [] := trivial

@[simp]
theorem holds_cons :
    cells.Holds start (value :: values) ↔
      cells start = some value ∧ cells.Holds (start + 1) values := .rfl

theorem holds_append :
    cells.Holds start (left ++ right) ↔
      cells.Holds start left ∧ cells.Holds (start + left.length) right := by
  induction left generalizing start with
  | nil => simp
  | cons value left ih =>
      have shifted : start + (left.length + 1) = start + 1 + left.length := by omega
      simp only [List.cons_append, holds_cons, ih, List.length_cons, shifted, and_assoc]

theorem holds_iff :
    cells.Holds start values ↔
      ∀ position value, values[position]? = some value → cells (start + position) = some value := by
  induction values generalizing start with
  | nil => simp
  | cons first values ih =>
      rw [holds_cons, ih]
      constructor
      · rintro ⟨here, later⟩ position value at_position
        cases position with
        | zero => simpa [here] using at_position
        | succ position =>
            have shifted : start + (position + 1) = start + 1 + position := by omega
            rw [shifted]
            apply later
            simpa using at_position
      · intro every
        refine ⟨every 0 first rfl, ?_⟩
        intro position value at_position
        have shifted : start + 1 + position = start + (position + 1) := by omega
        rw [shifted]
        apply every
        simpa using at_position

theorem Holds.cell (holds : cells.Holds start values)
    (at_position : values[position]? = some value) : cells (start + position) = some value :=
  holds_iff.mp holds position value at_position

/-- What is known about a range does not depend on the cells outside of it. -/
theorem Holds.frame (holds : cells.Holds start values)
    (same : ∀ position, start ≤ position → position < start + values.length →
      other position = cells position) : other.Holds start values := by
  induction values generalizing start with
  | nil => exact holds_nil
  | cons value values ih =>
      rcases holds with ⟨here, later⟩
      simp only [List.length_cons] at same
      refine ⟨(same start (Nat.le_refl start) (by omega)).trans here, ih later ?_⟩
      intro position low high
      exact same position (by omega) (by omega)

theorem Holds.write (holds : cells.Holds start values) (new : Value)
    (outside : position < start ∨ start + values.length ≤ position) :
    (cells.write position new).Holds start values := by
  apply holds.frame
  intro other low high
  have different : other ≠ position := by omega
  exact Function.update_of_ne different _ _

@[simp]
theorem write_self (new : Value) : cells.write position new position = some new :=
  Function.update_self _ _ _

/-- Rewriting a cell of the range exchanges the value at that place. -/
theorem Holds.write_set (holds : cells.Holds start values) (new : Value)
    (inside : position < values.length) :
    (cells.write (start + position) new).Holds start (values.set position new) := by
  induction values generalizing start position with
  | nil => simp at inside
  | cons first values ih =>
      rcases holds with ⟨here, later⟩
      cases position with
      | zero =>
          refine ⟨write_self new, ?_⟩
          exact later.write new (Or.inl (by omega))
      | succ position =>
          have shifted : start + (position + 1) = start + 1 + position := by omega
          have first_kept : start ≠ start + (position + 1) := by omega
          refine ⟨(Function.update_of_ne first_kept _ _).trans here, ?_⟩
          rw [shifted]
          apply ih later
          simpa using inside

/-- The target of a copy holds what the source held, however the two ranges overlap. -/
theorem Holds.copy_target {source target : ℕ} (holds : cells.Holds source values) :
    (cells.copy source target values.length).Holds target values := by
  apply holds_iff.mpr
  intro position value at_position
  have short : position < values.length := (List.getElem?_eq_some_iff.mp at_position).1
  have inside : target ≤ target + position ∧ target + position < target + values.length := by
    omega
  rw [copy, if_pos inside, Nat.add_sub_cancel_left]
  exact holds.cell at_position

theorem Holds.copy_outside {source target count : ℕ} (holds : cells.Holds start values)
    (outside : start + values.length ≤ target ∨ target + count ≤ start) :
    (cells.copy source target count).Holds start values := by
  apply holds.frame
  intro position low high
  have apart : ¬(target ≤ position ∧ position < target + count) := by omega
  rw [copy, if_neg apart]

theorem Holds.readAll (holds : cells.Holds start values) :
    cells.readAll start values.length = some values := by
  induction values generalizing start with
  | nil => rfl
  | cons value values ih =>
      rcases holds with ⟨here, later⟩
      simp only [List.length_cons, Cells.readAll, here, ih later, Option.bind_some, Option.map_some]

end Cells

end Nethuns.Lib
