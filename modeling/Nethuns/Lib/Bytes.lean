import Mathlib.Data.List.Basic

/-!
# Reading and writing runs of bytes

A memory is a function from addresses to bytes. The lemmas say that a run of bytes reads back as
it was written, and that a write elsewhere is not seen.
-/

namespace Nethuns.Lib

/-- The `len` bytes from `addr` on. -/
def readBytes (mem : ℕ → UInt8) (addr len : ℕ) : List UInt8 :=
  (List.range len).map fun offset => mem (addr + offset)

/-- The memory after the bytes were copied to `addr`. -/
def writeBytes (mem : ℕ → UInt8) (addr : ℕ) (bytes : List UInt8) : ℕ → UInt8 := fun position =>
  if addr ≤ position then (bytes[position - addr]?).getD (mem position) else mem position

variable {mem : ℕ → UInt8} {addr other len : ℕ} {bytes : List UInt8}

theorem readBytes_writeBytes_take (short : len ≤ bytes.length) :
    readBytes (writeBytes mem addr bytes) addr len = bytes.take len := by
  apply List.ext_getElem
  · simp [readBytes, short]
  · intro offset inside _
    have within : offset < bytes.length := by
      simp only [readBytes, List.length_map, List.length_range] at inside
      omega
    simp [readBytes, writeBytes, within]

theorem readBytes_writeBytes_self :
    readBytes (writeBytes mem addr bytes) addr bytes.length = bytes := by
  rw [readBytes_writeBytes_take (Nat.le_refl _), List.take_length]

/-- A shorter run of bytes replaces the beginning of what was there. -/
theorem readBytes_writeBytes_drop (short : bytes.length ≤ len) :
    readBytes (writeBytes mem addr bytes) addr len =
      bytes ++ (readBytes mem addr len).drop bytes.length := by
  apply List.ext_getElem
  · simp [readBytes, short]
  · intro offset inside _
    rw [List.getElem_append]
    split
    · rename_i within
      simp [readBytes, writeBytes, within]
    · rename_i beyond
      have further : bytes.length + (offset - bytes.length) = offset := by omega
      simp [readBytes, writeBytes, further, List.getElem?_eq_none (Nat.le_of_not_lt beyond)]

theorem writeBytes_of_outside {position : ℕ}
    (outside : position < addr ∨ addr + bytes.length ≤ position) :
    writeBytes mem addr bytes position = mem position := by
  simp only [writeBytes]
  split
  · rw [List.getElem?_eq_none (by omega), Option.getD_none]
  · rfl

theorem readBytes_writeBytes_of_disjoint
    (disjoint : other + len ≤ addr ∨ addr + bytes.length ≤ other) :
    readBytes (writeBytes mem addr bytes) other len = readBytes mem other len := by
  apply List.map_congr_left
  intro offset offset_mem
  have inside : offset < len := List.mem_range.mp offset_mem
  exact writeBytes_of_outside (by omega)

end Nethuns.Lib
