import Mathlib.Algebra.Order.Group.Multiset
import Mathlib.Data.List.Nodup
import Mathlib.Tactic.Abel

/-!
# The bag of values a list of containers holds

A store that keeps its values in several containers is a list of containers with the list of
values of each. Operations replace one container, named by its position or by a key. The
lemmas here say how the bag of all values changes: it loses what the old container held and
gains what the new one holds. They are stated as equations between multisets, without
subtraction, so that a chain of operations is settled by adding them up.
-/

namespace Nethuns.Lib

universe u v w

variable {Container : Type u} {Value : Type v}

theorem flatMap_set {containers : List Container} {position : ℕ} {old : Container}
    (values : Container → List Value) (new : Container)
    (held : containers[position]? = some old) :
    (((containers.set position new).flatMap values : List Value) : Multiset Value) +
        (values old : Multiset Value) =
      ((containers.flatMap values : List Value) : Multiset Value) +
        (values new : Multiset Value) := by
  induction containers generalizing position with
  | nil => simp at held
  | cons container containers ih =>
      cases position with
      | zero =>
          simp only [List.getElem?_cons_zero, Option.some.injEq] at held
          subst container
          simp only [List.set_cons_zero, List.flatMap_cons, ← Multiset.coe_add]
          ac_rfl
      | succ position =>
          simp only [List.getElem?_cons_succ] at held
          simp only [List.set_cons_succ, List.flatMap_cons, ← Multiset.coe_add]
          rw [add_assoc, ih held, add_assoc]

theorem flatMap_update_key {Key : Type w} [DecidableEq Key] {containers : List Container}
    {key : Container → Key} {old : Container} (values : Container → List Value)
    (update : Container → Container) (distinct : (containers.map key).Nodup)
    (held : old ∈ containers) :
    (((containers.map fun container =>
          if key container = key old then update container else container).flatMap values :
        List Value) : Multiset Value) + (values old : Multiset Value) =
      ((containers.flatMap values : List Value) : Multiset Value) +
        (values (update old) : Multiset Value) := by
  induction containers with
  | nil => simp at held
  | cons container containers ih =>
      simp only [List.map_cons, List.nodup_cons, List.mem_map, not_exists, not_and] at distinct
      rcases distinct with ⟨fresh, distinct⟩
      rcases List.mem_cons.mp held with rfl | later
      · have untouched :
            (containers.map fun container =>
              if key container = key old then update container else container) = containers := by
          conv_rhs => rw [← List.map_id containers]
          apply List.map_congr_left
          intro container member
          rw [if_neg (fresh container member), id]
        simp only [List.map_cons, if_true, List.flatMap_cons, ← Multiset.coe_add, untouched]
        ac_rfl
      · have other : key container ≠ key old := fun same => fresh old later same.symm
        simp only [List.map_cons, if_neg other, List.flatMap_cons, ← Multiset.coe_add]
        rw [add_assoc, ih distinct later, add_assoc]

/-- Rewriting one cell of a memory exchanges its values, in any list of addresses without
repetitions that contains the cell. -/
theorem flatMap_update {Address : Type w} [DecidableEq Address] {addresses : List Address}
    {address : Address} (memory : Address → Container) (values : Container → List Value)
    (new : Container) (distinct : addresses.Nodup) (present : address ∈ addresses) :
    ((addresses.flatMap fun other => values (Function.update memory address new other) :
        List Value) : Multiset Value) + (values (memory address) : Multiset Value) =
      ((addresses.flatMap fun other => values (memory other) : List Value) : Multiset Value) +
        (values new : Multiset Value) := by
  induction addresses with
  | nil => simp at present
  | cons first addresses ih =>
      simp only [List.nodup_cons] at distinct
      rcases distinct with ⟨fresh, distinct⟩
      simp only [List.flatMap_cons, ← Multiset.coe_add]
      rcases List.mem_cons.mp present with rfl | later
      · have untouched :
            (addresses.flatMap fun other => values (Function.update memory address new other)) =
              addresses.flatMap fun other => values (memory other) := by
          apply List.flatMap_congr
          intro other member
          have different : other ≠ address := fun same => fresh (same ▸ member)
          rw [Function.update_of_ne different]
        rw [untouched, Function.update_self]
        abel
      · have different : first ≠ address := fun same => fresh (same ▸ later)
        rw [Function.update_of_ne different, add_assoc, ih distinct later, add_assoc]

theorem coe_map_modify {elements : List Container} {position : ℕ} {old : Container}
    (image : Container → Value) (rewrite : Container → Container)
    (held : elements[position]? = some old) :
    ((elements.modify position rewrite).map image : Multiset Value) + {image old} =
      (elements.map image : Multiset Value) + {image (rewrite old)} := by
  induction elements generalizing position with
  | nil => simp at held
  | cons element elements ih =>
      cases position with
      | zero =>
          simp only [List.getElem?_cons_zero, Option.some.injEq] at held
          subst element
          simp only [List.modify_zero_cons, List.map_cons, ← Multiset.cons_coe,
            ← Multiset.singleton_add]
          abel
      | succ position =>
          simp only [List.getElem?_cons_succ] at held
          simp only [List.modify_succ_cons, List.map_cons, ← Multiset.cons_coe,
            ← Multiset.singleton_add]
          rw [add_assoc, ih held, add_assoc]

theorem map_modify_eq_self {elements : List Container} {position : ℕ} {image : Container → Value}
    {rewrite : Container → Container} (same : ∀ element, image (rewrite element) = image element) :
    (elements.modify position rewrite).map image = elements.map image := by
  apply List.ext_getElem?
  intro place
  simp only [List.getElem?_map, List.getElem?_modify]
  by_cases here : position = place
  · simp [here, Function.comp_def, same]
  · simp [here]

theorem coe_eraseIdx {values : List Value} {position : ℕ} {value : Value}
    (held : values[position]? = some value) :
    (values.eraseIdx position : Multiset Value) + {value} = (values : Multiset Value) := by
  induction values generalizing position with
  | nil => simp at held
  | cons first values ih =>
      cases position with
      | zero =>
          simp only [List.getElem?_cons_zero, Option.some.injEq] at held
          subst first
          simp [← Multiset.cons_coe, ← Multiset.singleton_add, add_comm]
      | succ position =>
          simp only [List.getElem?_cons_succ] at held
          simp only [List.eraseIdx_cons_succ, ← Multiset.cons_coe, ← Multiset.singleton_add]
          rw [add_assoc, ih held]

theorem coe_map_eraseIdx {values : List Container} {position : ℕ} {value : Container}
    (image : Container → Value) (held : values[position]? = some value) :
    ((values.eraseIdx position).map image : Multiset Value) + {image value} =
      (values.map image : Multiset Value) := by
  rw [← List.eraseIdx_map]
  apply coe_eraseIdx
  simp [held]

theorem coe_map_erase [DecidableEq Container] {values : List Container} {value : Container}
    (image : Container → Value) (held : value ∈ values) :
    ((values.erase value).map image : Multiset Value) + {image value} =
      (values.map image : Multiset Value) := by
  rw [add_comm, Multiset.singleton_add, Multiset.cons_coe, ← List.map_cons]
  exact Multiset.coe_eq_coe.mpr ((List.perm_cons_erase held).symm.map image)

/-- A store keeps a part of its values beside the containers. Where its books are right and an
exchange changes both sides by the same values, the books are right after it. -/
theorem eq_add_flatMap_set {containers : List Container} {position : ℕ} {old new : Container}
    {whole whole' part part' : Multiset Value} (values : Container → List Value)
    (held : containers[position]? = some old)
    (before : whole = part + (containers.flatMap values : Multiset Value))
    (moved : whole' + part + (values old : Multiset Value) =
      whole + part' + (values new : Multiset Value)) :
    whole' = part' + ((containers.set position new).flatMap values : Multiset Value) := by
  have exchanged := flatMap_set values new held
  apply add_right_cancel (b := part + (values old : Multiset Value))
  calc _ = whole + part' + (values new : Multiset Value) := by rw [← add_assoc, moved]
    _ = part + part' + ((containers.flatMap values : Multiset Value) +
          (values new : Multiset Value)) := by
        rw [before]
        abel
    _ = _ := by
        rw [← exchanged]
        abel

theorem add_flatMap_set_le {containers : List Container} {position : ℕ} {old new : Container}
    {part part' : Multiset Value} (values : Container → List Value)
    (held : containers[position]? = some old)
    (le : part' + (values new : Multiset Value) ≤ part + (values old : Multiset Value)) :
    part' + ((containers.set position new).flatMap values : Multiset Value) ≤
      part + (containers.flatMap values : Multiset Value) := by
  have exchanged := flatMap_set values new held
  apply le_of_add_le_add_right (a := (values old : Multiset Value))
  calc _ = part' + (((containers.set position new).flatMap values : Multiset Value) +
          (values old : Multiset Value)) := add_assoc _ _ _
    _ = (containers.flatMap values : Multiset Value) +
          (part' + (values new : Multiset Value)) := by
        rw [exchanged]
        abel
    _ ≤ (containers.flatMap values : Multiset Value) +
          (part + (values old : Multiset Value)) := add_le_add_right le _
    _ = _ := by abel

theorem flatMap_eraseIdx {containers : List Container} {position : ℕ} {old : Container}
    (values : Container → List Value) (held : containers[position]? = some old) :
    ((containers.eraseIdx position).flatMap values : Multiset Value) +
        (values old : Multiset Value) = (containers.flatMap values : Multiset Value) := by
  induction containers generalizing position with
  | nil => simp at held
  | cons container containers ih =>
      cases position with
      | zero =>
          simp only [List.getElem?_cons_zero, Option.some.injEq] at held
          subst container
          simp only [List.eraseIdx_cons_zero, List.flatMap_cons, ← Multiset.coe_add]
          exact add_comm _ _
      | succ position =>
          simp only [List.getElem?_cons_succ] at held
          simp only [List.eraseIdx_cons_succ, List.flatMap_cons, ← Multiset.coe_add]
          rw [add_assoc, ih held]

theorem length_le_length_flatMap {containers : List Container} {container : Container}
    (values : Container → List Value) (member : container ∈ containers) :
    (values container).length ≤ (containers.flatMap values).length := by
  rcases List.append_of_mem member with ⟨before, after, rfl⟩
  simp only [List.flatMap_append, List.flatMap_cons, List.length_append]
  omega

end Nethuns.Lib
