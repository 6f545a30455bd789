import Nethuns.ArrayVec.Drain
import Nethuns.ArrayVec.Retain
import Nethuns.Mpsc.Contents

/-!
# What the channel does with its vectors

`flush` drains the batch of a handle into blocks while the ring buffer of the thread takes them,
and drops the rest with the `Drain`. `ConsumerRegistry::remove` retains the other consumers. The
model of the channel describes both on lists. Here they run on the storage of the vectors.
-/

namespace Nethuns.Mpsc

open Nethuns.ArrayVec

/-- The inner loop of `to_simd`, from the lanes that are written on. The block is `none` when the
iterator ends before. -/
def fillBlock {cap : ℕ} (storage : Storage ℕ cap) :
    ℕ → List ℕ → Drain → Option (Option (List ℕ) × Drain)
  | 0, lanes, drain => some (some lanes, drain)
  | missing + 1, lanes, drain =>
      (drain.next storage).bind fun
        | (none, drain) => some (none, drain)
        | (some value, drain) => fillBlock storage missing (lanes ++ [value]) drain

/-- `push_iter` of a ring buffer with room for `vacant` blocks, on the blocks of `to_simd`. -/
def pushIter {cap : ℕ} (storage : Storage ℕ cap) :
    ℕ → Drain → Option (List (List ℕ) × Drain)
  | 0, drain => some ([], drain)
  | vacant + 1, drain =>
      (fillBlock storage 16 [] drain).bind fun
        | (none, drain) => some ([], drain)
        | (some lanes, drain) =>
            (pushIter storage vacant drain).map fun (blocks, drain) => (lanes :: blocks, drain)

/-- The end of `Producer::flush` on the storage of the batch: the storage after it, and the blocks
that went to the ring buffer. -/
def drainBatch {cap : ℕ} (storage : Storage ℕ cap) (vacant : ℕ) :
    Option (Storage ℕ cap × List (List ℕ)) :=
  (storage.drainRange 0 storage.len).bind fun (drain, storage) =>
    (pushIter storage vacant drain).bind fun (blocks, drain) =>
      (drain.drop (fun _ => false) storage).map fun (restored, _, _) => (restored, blocks)

/-- `ConsumerRegistry::remove` on the storage of the registry: the storage after it, the consumers
that are dropped, and whether the assertion on the length holds. -/
def removeConsumer {cap : ℕ} (storage : Storage Spsc cap) (id : ℕ) :
    Option (Storage Spsc cap × List Spsc × Bool) :=
  (storage.retain (fun _ => false)
      (fun _ spsc => ((), spsc, if spsc.id ≠ id then .keep else .delete)) ()).map
    fun (retained, _, dropped, _) => (retained, dropped, retained.len + 1 == storage.len)

theorem fillBlock_spec {cap missing : ℕ} {storage : Storage ℕ cap} {drain : Drain}
    {lanes before range tail : List ℕ} (represents : drain.Represents storage before range tail)
    (unfinished : lanes.length + (missing + 1) = 16) :
    ∃ later rest, later.Represents storage before rest tail ∧
      ((fillBlock storage (missing + 1) lanes drain = some (none, later) ∧
          toSimdFrom lanes range = []) ∨
        ∃ block : Simd,
          fillBlock storage (missing + 1) lanes drain = some (some block.lanes, later) ∧
            toSimdFrom lanes range = block :: toSimd rest) := by
  induction range generalizing missing lanes drain with
  | nil =>
      rcases Drain.next_spec represents with ⟨later, next_eq, represents⟩
      refine ⟨later, [], represents, Or.inl ⟨?_, rfl⟩⟩
      simp only [fillBlock, next_eq, List.head?_nil, Option.bind_some]
  | cons value range ih =>
      rcases Drain.next_spec represents with ⟨later, next_eq, represents⟩
      have length : (lanes ++ [value]).length = lanes.length + 1 := List.length_append
      cases missing with
      | zero =>
          have full : (lanes ++ [value]).length = 16 := by omega
          refine ⟨later, range, represents, Or.inr ⟨⟨lanes ++ [value], full⟩, ?_, ?_⟩⟩
          · simp only [fillBlock, next_eq, List.head?_cons, Option.bind_some]
          · rw [toSimdFrom, dif_pos full]
            rfl
      | succ missing =>
          have short : (lanes ++ [value]).length ≠ 16 := by omega
          rcases ih represents (by omega : (lanes ++ [value]).length + (missing + 1) = 16) with
            ⟨final, rest, represents, outcome⟩
          refine ⟨final, rest, represents, ?_⟩
          have unfolded : fillBlock storage (missing + 1 + 1) lanes drain =
              fillBlock storage (missing + 1) (lanes ++ [value]) later := by
            rw [fillBlock, next_eq]
            rfl
          rwa [unfolded, toSimdFrom, dif_neg short]

theorem pushIter_spec {cap : ℕ} {storage : Storage ℕ cap} {drain : Drain}
    {before range tail : List ℕ} (represents : drain.Represents storage before range tail)
    (vacant : ℕ) :
    ∃ later rest, later.Represents storage before rest tail ∧
      pushIter storage vacant drain =
        some (((toSimd range).take vacant).map Simd.lanes, later) := by
  induction vacant generalizing drain range with
  | zero => exact ⟨drain, range, represents, by simp [pushIter]⟩
  | succ vacant ih =>
      rcases @fillBlock_spec cap 15 storage drain [] before range tail represents rfl with
        ⟨later, rest, represents, ⟨filled, blocks⟩ | ⟨block, filled, blocks⟩⟩
      · refine ⟨later, rest, represents, ?_⟩
        simp only [pushIter, filled, Option.bind_some, toSimd, blocks, List.take_nil, List.map_nil]
      · rcases ih represents with ⟨final, left, represents, pushed⟩
        refine ⟨final, left, represents, ?_⟩
        simp only [pushIter, filled, Option.bind_some, pushed, Option.map_some, toSimd, blocks,
          List.take_succ_cons, List.map_cons]

/-- Draining the batch sends the blocks that the ring buffer has room for, and leaves nothing. -/
theorem drainBatch_spec {cap : ℕ} {storage : Storage ℕ cap} {elems : List ℕ}
    (represents : storage.Represents elems) (vacant : ℕ) :
    ∃ restored : Storage ℕ cap,
      drainBatch storage vacant =
          some (restored, ((toSimd elems).take vacant).map Simd.lanes) ∧
        restored.Represents [] := by
  have drained := drainRange_spec represents 0 elems.length
  rw [if_pos ⟨Nat.zero_le _, Nat.le_refl _⟩, ← represents.len_eq] at drained
  rcases drained with ⟨drain, shortened, drained, borrowed⟩
  rw [represents.len_eq, List.take_zero, List.take_length, List.drop_zero, List.drop_length]
    at borrowed
  rcases pushIter_spec borrowed vacant with ⟨later, rest, exhausted, pushed⟩
  have dropped := Drain.drop_spec (fun _ => false) exhausted
  rw [if_neg (by simp)] at dropped
  rcases dropped with ⟨restored, dropped, represents_restored⟩
  refine ⟨restored, ?_, represents_restored⟩
  simp only [drainBatch, drained, Option.bind_some, pushed, dropped, Option.map_some]

/-- The assertion of `remove` holds when just one consumer has the id. It is the one dropped. -/
theorem removeConsumer_spec {storage : Storage Spsc 4096} {registry : ArrayVec Spsc 4096}
    (represents : storage.Represents registry.elems) (id : ℕ) :
    ∃ retained : Storage Spsc 4096,
      removeConsumer storage id =
          some (retained, registry.elems.filter fun spsc => spsc.id = id,
            (remove registry id).isSome) ∧
        ∀ removed, remove registry id = some removed → retained.Represents removed.elems := by
  have spec := retain_spec (fun _ => false)
    (fun _ spsc => ((), spsc, if decide (spsc.id ≠ id) = true then Verdict.keep else .delete)) ()
    represents
  rw [sift_filter (fun spsc : Spsc => decide (spsc.id ≠ id)) fun _ _ _ => rfl,
    List.append_nil] at spec
  rcases spec with ⟨retained, retained_eq, kept⟩
  refine ⟨retained, ?_, ?_⟩
  · have dropped : (registry.elems.filter fun spsc => !decide (spsc.id ≠ id)) =
        registry.elems.filter fun spsc => spsc.id = id := by
      apply List.filter_congr
      simp
    simp only [decide_eq_true_eq, dropped] at retained_eq
    simp only [removeConsumer, retained_eq, Option.map_some, remove, represents.len_eq,
      kept.len_eq]
    split <;> simp_all
  · intro removed removed_eq
    simp only [remove, Option.ite_none_right_eq_some, Option.some.injEq] at removed_eq
    rcases removed_eq with ⟨-, rfl⟩
    exact kept

/-- The raw storage of the batch and of the registry goes through a flush and a removal just as the
model of the channel says: what reaches the ring buffer, what stays registered, and when the
assertion holds. -/
theorem vectors_refine (batch : ArrayVec ℕ 16) (registry : ArrayVec Spsc 4096) (spsc : Spsc)
    (capacity id : ℕ) :
    (∀ storage : Storage ℕ 16, storage.Represents batch.elems →
      ∃ restored blocks, drainBatch storage (capacity - spsc.queue.length) =
          some (restored, blocks) ∧
        restored.Represents (ArrayVec.new : ArrayVec ℕ 16).elems ∧
        ((spsc.enqueueMany capacity (toSimd batch.elems)).queue.map Simd.lanes =
          spsc.queue.map Simd.lanes ++ blocks)) ∧
      ∀ storage : Storage Spsc 4096, storage.Represents registry.elems →
        ∃ retained, removeConsumer storage id =
            some (retained, registry.elems.filter fun spsc => spsc.id = id,
              (remove registry id).isSome) ∧
          ∀ removed, remove registry id = some removed → retained.Represents removed.elems := by
  refine ⟨?_, fun storage represents => removeConsumer_spec represents id⟩
  intro storage represents
  rcases drainBatch_spec represents (capacity - spsc.queue.length) with
    ⟨restored, drained, emptied⟩
  refine ⟨restored, _, drained, emptied, ?_⟩
  rw [Spsc.enqueueMany, List.map_append]

end Nethuns.Mpsc
