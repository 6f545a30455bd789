import Mathlib.Data.List.Basic
import Mathlib.Data.Nat.ModEq
import Mathlib.Logic.Function.Basic

/-!
# Windows of a circular array

A circular array of `size` cells is addressed by positions that grow for ever; position `p`
names the cell `p % size`. A window is the list of the cells from one position on. The lemmas
say how windows grow at either end, that a position matters only modulo the size, and what a
window sees of a write at its end or past it. Positions are often kept in counters that wrap; the
distance between two such counters is their difference, as long as they are close. Other arrays
keep cursors that wrap at the size; there the distance is counted round the array.
-/

namespace Nethuns.Lib

universe u

variable {α : Type u} {cells : ℕ → α} {size start other count more : ℕ}

/-- The `count` cells from position `start` on. -/
def window (cells : ℕ → α) (size start count : ℕ) : List α :=
  (List.range count).map fun offset => cells ((start + offset) % size)

@[simp]
theorem window_zero : window cells size start 0 = [] := rfl

@[simp]
theorem length_window : (window cells size start count).length = count := by
  simp [window]

theorem window_append :
    window cells size start (count + more) =
      window cells size start count ++ window cells size (start + count) more := by
  simp only [window, List.range_add, List.map_append, List.map_map, Function.comp_def,
    Nat.add_assoc]

theorem window_succ :
    window cells size start (count + 1) =
      cells (start % size) :: window cells size (start + 1) count := by
  rw [Nat.add_comm count 1, window_append]
  simp [window]

theorem window_snoc :
    window cells size start (count + 1) =
      window cells size start count ++ [cells ((start + count) % size)] := by
  rw [window_append]
  simp [window]

theorem window_congr (same : start % size = other % size) :
    window cells size start count = window cells size other count := by
  apply List.map_congr_left
  intro offset _
  rw [Nat.add_mod, same, ← Nat.add_mod]

theorem position_ne {near far : ℕ} (ordered : near < far) (close : far < near + size) :
    far % size ≠ near % size := by
  intro same
  have apart : far - near < size := by omega
  have divides : size ∣ far - near := (Nat.modEq_iff_dvd' ordered.le).mp same.symm
  have := Nat.le_of_dvd (by omega) divides
  omega

theorem window_update_of_past {offset : ℕ} {value : α} (past : count ≤ offset)
    (close : offset < size) :
    window (Function.update cells ((start + offset) % size) value) size start count =
      window cells size start count := by
  apply List.map_congr_left
  intro position position_mem
  have before : position < count := List.mem_range.mp position_mem
  rw [Function.update_of_ne]
  exact (position_ne (by omega) (by omega)).symm

theorem window_update_snoc {value : α} (room : count < size) :
    window (Function.update cells ((start + count) % size) value) size start (count + 1) =
      window cells size start count ++ [value] := by
  rw [window_snoc, window_update_of_past (le_refl _) room, Function.update_self]

/-! ## Cursors that wrap at the size -/

/-- How many cells a cursor passes on its way from `head` to `tail`. -/
def distance (size head tail : ℕ) : ℕ := if head ≤ tail then tail - head else tail + size - head

section Distance

variable {head tail : ℕ}

theorem distance_eq_zero (head_lt : head < size) :
    distance size head tail = 0 ↔ head = tail := by
  simp only [distance]
  split <;> omega

theorem distance_lt (head_lt : head < size) (tail_lt : tail < size) :
    distance size head tail < size := by
  simp only [distance]
  split <;> omega

theorem distance_next (head_lt : head < size) (tail_lt : tail < size) (apart : head ≠ tail) :
    distance size (if head + 1 = size then 0 else head + 1) tail + 1 = distance size head tail := by
  simp only [distance]
  split <;> split <;> split <;> omega

theorem distance_succ (head_lt : head < size) (tail_lt : tail < size)
    (room : distance size head tail + 1 < size) :
    distance size head (if tail + 1 = size then 0 else tail + 1) = distance size head tail + 1 := by
  simp only [distance] at room ⊢
  split at room <;> split <;> split <;> omega

@[simp]
theorem distance_self : distance size head head = 0 := by
  simp [distance]

theorem add_distance_mod (head_lt : head < size) :
    (head + distance size head tail) % size = tail % size := by
  simp only [distance]
  split
  · rw [Nat.add_sub_of_le (by assumption)]
  · rw [Nat.add_sub_of_le (by omega), Nat.add_mod_right]

theorem distance_eq_emod (head_lt : head < size) (tail_lt : tail < size) :
    (distance size head tail : ℤ) = ((tail : ℤ) - head) % size := by
  simp only [distance]
  split
  · rw [Int.emod_eq_of_lt (by omega) (by omega)]
    omega
  · rw [← Int.add_emod_right, Int.emod_eq_of_lt (by omega) (by omega)]
    omega

/-- The cells on the way from `head` to `tail`. -/
theorem exists_mod_iff {position : ℕ} (head_lt : head < size) (tail_lt : tail < size) :
    (∃ offset < distance size head tail, position = (head + offset) % size) ↔
      if head ≤ tail then head ≤ position ∧ position < tail
      else (head ≤ position ∧ position < size) ∨ position < tail := by
  have wrapped : ∀ offset < size, (head + offset) % size =
      if head + offset < size then head + offset else head + offset - size := by
    intro offset offset_lt
    split
    · rename_i inside
      exact Nat.mod_eq_of_lt inside
    · rw [Nat.mod_eq_sub_mod (by omega), Nat.mod_eq_of_lt (by omega)]
  have short := distance_lt head_lt tail_lt
  constructor
  · rintro ⟨offset, offset_lt, rfl⟩
    rw [wrapped offset (by omega)]
    simp only [distance] at offset_lt
    split at offset_lt <;> split <;> split <;> omega
  · intro between
    refine ⟨if head ≤ position then position - head else position + size - head, ?_, ?_⟩
    · simp only [distance]
      split at between <;> split <;> omega
    · rw [wrapped _ (by split at between <;> split <;> omega)]
      split at between <;> split <;> split <;> omega

theorem next_mod :
    (if head + 1 = size then 0 else head + 1) % size = (head + 1) % size := by
  split
  · rename_i wraps
    rw [wraps, Nat.mod_self, Nat.zero_mod]
  · rfl

end Distance

/-! ## Counters that wrap -/

section Counter

variable {ahead behind step : UInt32}

theorem counter_sub_eq_zero : ahead - behind = 0 ↔ ahead = behind := by
  grind

/-- The distance shrinks when the counter behind moves on, within the distance. -/
theorem counter_sub_add (within : step.toNat ≤ (ahead - behind).toNat) :
    (ahead - (behind + step)).toNat = (ahead - behind).toNat - step.toNat := by
  have regroup : ahead - (behind + step) = ahead - behind - step := by grind
  rw [regroup]
  exact UInt32.toNat_sub_of_le _ _ within

/-- The distance grows when the counter ahead moves on, unless it wraps. -/
theorem counter_add_sub (small : (ahead - behind).toNat + step.toNat < 2 ^ 32) :
    (ahead + step - behind).toNat = (ahead - behind).toNat + step.toNat := by
  have regroup : ahead + step - behind = ahead - behind + step := by grind
  rw [regroup, UInt32.toNat_add]
  exact Nat.mod_eq_of_lt small

end Counter

end Nethuns.Lib
