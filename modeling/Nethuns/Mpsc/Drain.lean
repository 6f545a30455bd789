import Nethuns.Mpsc.Delivery

/-!
# How the consumer drains its queues

`pop_all` writes each block with one vector store at the end of the cache and raises its length by
16. Here the loop runs on the storage itself. A vector store has to be aligned: the storage is, so
the length before each store has to be a multiple of 16, and the program crashes where it is not.
The model of the channel describes the outcome of a loop that does not crash. A pop drains only
into an empty cache, where this is the case; a direct `sync` need not.
-/

namespace Nethuns.Mpsc

open Nethuns.Lib

/-- The storage of an `ArrayVec<usize, N>`, initialized up to its length. -/
structure RawVec where
  xs : ℕ → ℕ
  len : ℕ

namespace RawVec

def elems (vec : RawVec) : List ℕ := (List.range vec.len).map vec.xs

/-- The body of the loop of `pop_all`: writes 16 lanes at the end with one `ptr::write` and sets the
new length. The storage is aligned to 128 bytes; `none` when the store is not. -/
def store (vec : RawVec) (scan : Simd) : Option RawVec :=
  if 16 ∣ vec.len then
    some {
      xs := fun position =>
        if vec.len ≤ position ∧ position < vec.len + 16 then
          scan.lanes.getD (position - vec.len) 0
        else
          vec.xs position
      len := vec.len + 16 }
  else
    none

@[simp]
theorem length_elems (vec : RawVec) : vec.elems.length = vec.len := by
  simp [elems]

theorem store_of_aligned {vec : RawVec} (aligned : 16 ∣ vec.len) (scan : Simd) :
    ∃ next, vec.store scan = some next ∧ next.len = vec.len + 16 ∧
      next.elems = vec.elems ++ scan.lanes := by
  refine ⟨_, if_pos aligned, rfl, ?_⟩
  clear aligned
  have lanes := scan.length_lanes
  apply List.ext_getElem
  · simp [elems, lanes]
  · intro position inside _
    rw [length_elems] at inside
    by_cases old : position < vec.len
    · have outside : ¬(vec.len ≤ position ∧ position < vec.len + 16) := by omega
      simp [elems, outside, List.getElem_append_left, old]
    · have written : vec.len ≤ position ∧ position < vec.len + 16 :=
        ⟨Nat.le_of_not_lt old, inside⟩
      have lane : position - vec.len < scan.lanes.length := by omega
      simp [elems, written, List.getElem_append_right, lane]

end RawVec

/-- The loop of `pop_all` over the blocks that one queue yields, at most `remaining` of them; `none`
when it crashes. The offsets of the stores come with the result, that of the last one too. -/
def drainLoop : ℕ → List Simd → RawVec → Option (List Simd × RawVec) × List ℕ
  | 0, queue, vec => (some (queue, vec), [])
  | _ + 1, [], vec => (some ([], vec), [])
  | remaining + 1, scan :: queue, vec =>
      match vec.store scan with
      | none => (none, [vec.len])
      | some next =>
          let (result, offsets) := drainLoop remaining queue next
          (result, vec.len :: offsets)

/-- `pop_all` on the storage. -/
def popAllRaw (cap : ℕ) : List Spsc → RawVec → Option (List Spsc × RawVec) × List ℕ
  | [], vec => (some ([], vec), [])
  | spsc :: rest, vec =>
      let remaining := (cap - vec.len) / 16
      match drainLoop remaining spsc.queue vec with
      | (none, first) => (none, first)
      | (some (queue, vec), first) =>
          let (result, more) := popAllRaw cap rest vec
          (result.map fun (rest, vec) => ({ spsc with queue := queue } :: rest, vec),
            first ++ more)

/-- How many blocks are taken from each queue, when the vector has `len` elements. -/
def drainCounts (cap : ℕ) : ℕ → List Spsc → List ℕ
  | _, [] => []
  | len, spsc :: rest =>
      let count := min ((cap - len) / 16) spsc.queue.length
      count :: drainCounts cap (len + 16 * count) rest

/-- The values of the first blocks of the queues. -/
def takeBlocks (registry : List Spsc) (counts : List ℕ) : List ℕ :=
  (List.zipWith (fun spsc count => Simd.flatten (spsc.queue.take count)) registry counts).flatten

/-- The queues without their first blocks. -/
def dropBlocks (registry : List Spsc) (counts : List ℕ) : List Spsc :=
  List.zipWith (fun spsc count => { spsc with queue := spsc.queue.drop count }) registry counts

theorem drainLoop_of_aligned (remaining : ℕ) (queue : List Simd) {vec : RawVec}
    (aligned : 16 ∣ vec.len) :
    ∃ final, drainLoop remaining queue vec = (some (queue.drop remaining, final),
          (List.range (min remaining queue.length)).map (vec.len + 16 * ·)) ∧
      final.elems = vec.elems ++ Simd.flatten (queue.take remaining) := by
  induction remaining generalizing queue vec with
  | zero => exact ⟨vec, by simp [drainLoop], by simp⟩
  | succ remaining ih =>
      cases queue with
      | nil => exact ⟨vec, by simp [drainLoop], by simp⟩
      | cons scan queue =>
          rcases RawVec.store_of_aligned aligned scan with ⟨next, stored, len, next_elems⟩
          have next_aligned : 16 ∣ next.len := len ▸ Nat.dvd_add aligned (Nat.dvd_refl 16)
          rcases ih queue next_aligned with ⟨final, drained, elems⟩
          refine ⟨final, ?_, ?_⟩
          · have offsets : (List.range (min (remaining + 1) (queue.length + 1))).map
                (vec.len + 16 * ·) =
                vec.len :: (List.range (min remaining queue.length)).map (next.len + 16 * ·) := by
              rw [Nat.add_min_add_right, List.range_succ_eq_map, List.map_cons, List.map_map]
              congr 1
              apply List.map_congr_left
              intro block _
              simp only [Function.comp_apply, len]
              omega
            simp only [drainLoop, stored, drained, List.drop_succ_cons, List.length_cons, offsets]
          · rw [elems, next_elems, List.take_succ_cons, Simd.flatten_cons, List.append_assoc]

theorem drainLoop_of_nothing {remaining : ℕ} {queue : List Simd} (vec : RawVec)
    (nothing : min remaining queue.length = 0) :
    drainLoop remaining queue vec = (some (queue, vec), []) := by
  cases remaining with
  | zero => rfl
  | succ remaining =>
      cases queue with
      | nil => rfl
      | cons scan queue => simp at nothing

theorem drainLoop_of_misaligned {remaining : ℕ} {queue : List Simd} {vec : RawVec}
    (misaligned : ¬16 ∣ vec.len) (something : min remaining queue.length ≠ 0) :
    drainLoop remaining queue vec = (none, [vec.len]) := by
  cases remaining with
  | zero => simp at something
  | succ remaining =>
      cases queue with
      | nil => simp at something
      | cons scan queue => simp only [drainLoop, RawVec.store, if_neg misaligned]

theorem drainCounts_le {cap len : ℕ} (registry : List Spsc) (fits : len ≤ cap) :
    len + 16 * (drainCounts cap len registry).sum ≤ cap := by
  induction registry generalizing len with
  | nil => simpa [drainCounts] using fits
  | cons spsc rest ih =>
      have taken : len + 16 * min ((cap - len) / 16) spsc.queue.length ≤ cap := by omega
      have later := ih taken
      simp only [drainCounts, List.sum_cons]
      omega

/-- Nothing is drained exactly when there is no room for a block, or no block. -/
theorem drainCounts_sum_eq_zero {cap len : ℕ} {registry : List Spsc} :
    (drainCounts cap len registry).sum = 0 ↔
      cap < len + 16 ∨ ∀ spsc ∈ registry, spsc.queue = [] := by
  induction registry generalizing len with
  | nil => simp [drainCounts]
  | cons spsc rest ih =>
      simp only [drainCounts, List.sum_cons, Nat.add_eq_zero_iff, ih, List.forall_mem_cons]
      constructor
      · rintro ⟨none_taken, later⟩
        rw [none_taken] at later
        rcases later with full | empty
        · exact Or.inl (by omega)
        · by_cases full : cap < len + 16
          · exact Or.inl full
          · refine Or.inr ⟨List.length_eq_zero_iff.mp (by omega), empty⟩
      · rintro (full | ⟨empty, later⟩)
        · have none_taken : min ((cap - len) / 16) spsc.queue.length = 0 := by omega
          exact ⟨none_taken, Or.inl (by omega)⟩
        · exact ⟨by simp [empty], Or.inr later⟩

theorem length_takeBlocks {cap len : ℕ} (registry : List Spsc) :
    (takeBlocks registry (drainCounts cap len registry)).length =
      16 * (drainCounts cap len registry).sum := by
  induction registry generalizing len with
  | nil => rfl
  | cons spsc rest ih =>
      have later := @ih (len + 16 * min ((cap - len) / 16) spsc.queue.length)
      simp only [takeBlocks] at later
      simp only [takeBlocks, drainCounts, List.zipWith_cons_cons, List.flatten_cons,
        List.length_append, Simd.length_flatten, List.length_take, later, List.sum_cons]
      omega

theorem blocks_of_nothing {cap len : ℕ} {registry : List Spsc}
    (nothing : (drainCounts cap len registry).sum = 0) :
    dropBlocks registry (drainCounts cap len registry) = registry ∧
      takeBlocks registry (drainCounts cap len registry) = [] := by
  induction registry with
  | nil => exact ⟨rfl, rfl⟩
  | cons spsc rest ih =>
      simp only [drainCounts, List.sum_cons, Nat.add_eq_zero_iff] at nothing
      rcases nothing with ⟨first, later⟩
      rw [first, Nat.mul_zero, Nat.add_zero] at later
      rcases ih later with ⟨kept, none_taken⟩
      rw [drainCounts, first, Nat.mul_zero, Nat.add_zero]
      constructor
      · simpa [dropBlocks] using kept
      · simpa [takeBlocks, Simd.flatten] using none_taken

theorem popAllRaw_of_aligned (cap : ℕ) (registry : List Spsc) {vec : RawVec}
    (aligned : 16 ∣ vec.len) :
    ∃ final, popAllRaw cap registry vec =
        (some (dropBlocks registry (drainCounts cap vec.len registry), final),
          (List.range (drainCounts cap vec.len registry).sum).map (vec.len + 16 * ·)) ∧
      final.elems = vec.elems ++ takeBlocks registry (drainCounts cap vec.len registry) := by
  induction registry generalizing vec with
  | nil => exact ⟨vec, by simp [popAllRaw, drainCounts, dropBlocks], by simp [takeBlocks]⟩
  | cons spsc rest ih =>
      rcases drainLoop_of_aligned ((cap - vec.len) / 16) spsc.queue aligned with
        ⟨middle, drained, elems⟩
      have middle_len : middle.len =
          vec.len + 16 * min ((cap - vec.len) / 16) spsc.queue.length := by
        have length := congrArg List.length elems
        simp only [RawVec.length_elems, List.length_append, Simd.length_flatten,
          List.length_take] at length
        omega
      have middle_aligned : 16 ∣ middle.len :=
        middle_len ▸ Nat.dvd_add aligned (Nat.dvd_mul_right 16 _)
      rcases ih middle_aligned with ⟨final, later, final_elems⟩
      rw [middle_len] at later final_elems
      refine ⟨final, ?_, ?_⟩
      · simp only [popAllRaw, drained, later, Option.map_some, drainCounts, dropBlocks,
          List.zipWith_cons_cons, ← List.drop_eq_drop_min, List.sum_cons, List.range_add,
          List.map_append, List.map_map]
        congr 2
        apply List.map_congr_left
        intro block _
        simp only [Function.comp_apply]
        omega
      · simp only [final_elems, elems, takeBlocks, drainCounts, List.zipWith_cons_cons,
          List.flatten_cons, ← List.take_eq_take_min, List.append_assoc]

theorem popAllRaw_of_nothing {cap : ℕ} {registry : List Spsc} {vec : RawVec}
    (nothing : (drainCounts cap vec.len registry).sum = 0) :
    popAllRaw cap registry vec = (some (registry, vec), []) := by
  induction registry with
  | nil => rfl
  | cons spsc rest ih =>
      simp only [drainCounts, List.sum_cons, Nat.add_eq_zero_iff] at nothing
      rcases nothing with ⟨first, later⟩
      rw [first, Nat.mul_zero, Nat.add_zero] at later
      simp only [popAllRaw, drainLoop_of_nothing vec first, ih later, Option.map_some,
        List.append_nil]

/-- With a block to store and an unaligned end, the first store crashes. -/
theorem popAllRaw_of_misaligned {cap : ℕ} {registry : List Spsc} {vec : RawVec}
    (misaligned : ¬16 ∣ vec.len) (something : (drainCounts cap vec.len registry).sum ≠ 0) :
    popAllRaw cap registry vec = (none, [vec.len]) := by
  induction registry with
  | nil => simp [drainCounts] at something
  | cons spsc rest ih =>
      by_cases first : min ((cap - vec.len) / 16) spsc.queue.length = 0
      · simp only [drainCounts, List.sum_cons, first, Nat.mul_zero, Nat.add_zero,
          Nat.zero_add] at something
        simp only [popAllRaw, drainLoop_of_nothing vec first, ih something, Option.map_none,
          List.nil_append]
      · simp only [popAllRaw, drainLoop_of_misaligned misaligned first]

/-- Without a crash each queue loses its first blocks, which the vector gains. -/
theorem popAllRaw_of_ready {cap : ℕ} {registry : List Spsc} {vec : RawVec}
    (ready : 16 ∣ vec.len ∨ cap < vec.len + 16 ∨ ∀ spsc ∈ registry, spsc.queue = []) :
    ∃ final offsets, popAllRaw cap registry vec =
        (some (dropBlocks registry (drainCounts cap vec.len registry), final), offsets) ∧
      final.elems = vec.elems ++ takeBlocks registry (drainCounts cap vec.len registry) ∧
      final.len = vec.len + 16 * (drainCounts cap vec.len registry).sum ∧
      ∀ offset ∈ offsets, offset + 16 ≤ vec.len + 16 * (drainCounts cap vec.len registry).sum := by
  rw [← drainCounts_sum_eq_zero] at ready
  rcases ready with aligned | nothing
  · rcases popAllRaw_of_aligned cap registry aligned with ⟨final, drained, elems⟩
    refine ⟨final, _, drained, elems, ?_, ?_⟩
    · rw [← final.length_elems, elems, List.length_append, vec.length_elems,
        length_takeBlocks]
    · intro offset offset_mem
      rcases List.mem_map.mp offset_mem with ⟨block, block_mem, rfl⟩
      have before := List.mem_range.mp block_mem
      omega
  · rcases blocks_of_nothing nothing with ⟨kept, none_taken⟩
    refine ⟨vec, [], ?_, ?_, ?_, ?_⟩
    · rw [popAllRaw_of_nothing nothing, kept]
    · rw [none_taken, List.append_nil]
    · rw [nothing, Nat.mul_zero, Nat.add_zero]
    · intro offset member
      simp at member

/-- What the model of the channel says about `pop_all`, in terms of the blocks that are taken. -/
theorem popAll_spec {cap : ℕ} (registry : List Spsc) (vec : ArrayVec ℕ cap) :
    (popAll registry vec).1 = dropBlocks registry (drainCounts cap vec.len registry) ∧
      (popAll registry vec).2.elems =
        vec.elems ++ takeBlocks registry (drainCounts cap vec.len registry) := by
  induction registry generalizing vec with
  | nil => simp [popAll, drainCounts, dropBlocks, takeBlocks]
  | cons spsc rest ih =>
      have middle_len : (drainInto spsc vec).2.len =
          vec.len + 16 * min ((cap - vec.len) / 16) spsc.queue.length := by
        simp [drainInto, ArrayVec.len, Simd.length_flatten]
      rcases ih (drainInto spsc vec).2 with ⟨queues, elems⟩
      rw [middle_len] at queues elems
      constructor
      · simp only [popAll, queues, dropBlocks, drainCounts, List.zipWith_cons_cons,
          ← List.drop_eq_drop_min]
        rfl
      · simp only [popAll, elems, takeBlocks, drainCounts, List.zipWith_cons_cons,
          List.flatten_cons, ← List.take_eq_take_min]
        simp only [drainInto, List.append_assoc]

namespace Channel

/-- The values that the consumer can still pop. -/
def remaining (channel : Channel) : Multiset ℕ :=
  ↑channel.cached.elems + ↑channel.queuedValues

theorem queuedValues_eq_nil {channel : Channel} :
    channel.queuedValues = [] ↔ ∀ spsc ∈ channel.registry.elems, spsc.queue = [] := by
  simp only [queuedValues, List.flatMap_eq_nil_iff]
  refine forall₂_congr fun spsc _ => ?_
  rw [← List.length_eq_zero_iff, Simd.length_flatten, ← List.length_eq_zero_iff]
  omega

theorem pop_none_iff_empty (channel : Channel) :
    channel.pop.1 = none ↔
      channel.cached.elems = [] ∧ ∀ spsc ∈ channel.registry.elems, spsc.queue = [] := by
  rw [pop_eq_none_iff, available, Nat.add_eq_zero_iff, List.length_eq_zero_iff,
    List.length_eq_zero_iff, queuedValues_eq_nil]

theorem pop_remaining {channel : Channel} {value : ℕ} (popped : channel.pop.1 = some value) :
    channel.pop.2.remaining + {value} = channel.remaining := by
  have moved := pop_contents channel
  simp only [contents, pop_batchedValues, popped, poppedValues, Option.toList_some,
    Multiset.coe_singleton] at moved
  rw [add_right_comm] at moved
  exact add_right_cancel moved

/-- Where the loop on the storage of the cache does not crash, it does what `sync` does. -/
theorem popAllRaw_sync (channel : Channel) {raw : RawVec}
    (same : raw.elems = channel.cached.elems)
    (ready : 16 ∣ raw.len ∨ 1024 < raw.len + 16 ∨
      ∀ spsc ∈ channel.registry.elems, spsc.queue = []) :
    ∃ final offsets,
      popAllRaw 1024 channel.registry.elems raw =
          (some (channel.sync.registry.elems, final), offsets) ∧
        final.elems = channel.sync.cached.elems := by
  have len_eq : raw.len = channel.cached.len := by
    rw [← raw.length_elems, same, ArrayVec.len]
  rcases popAllRaw_of_ready ready with ⟨final, offsets, drained, elems, -⟩
  rcases popAll_spec channel.registry.elems channel.cached with ⟨queues, cached⟩
  rw [len_eq, ← queues] at drained
  rw [len_eq, same, ← cached] at elems
  exact ⟨final, offsets, drained, elems⟩

end Channel

/-- `pop_all` takes from each queue, in the order of the registry, as many blocks as there is room
for when its turn comes, and never writes past the capacity. -/
def DrainsExactly (cap : ℕ) (registry : List Spsc) (vec : RawVec) : Prop :=
  ∃ final offsets,
    popAllRaw cap registry vec =
        (some (dropBlocks registry (drainCounts cap vec.len registry), final), offsets) ∧
      final.elems = vec.elems ++ takeBlocks registry (drainCounts cap vec.len registry) ∧
      final.len ≤ cap ∧ ∀ offset ∈ offsets, offset + 16 ≤ cap

/-- `pop_all` drains the queues exactly when the vector ends at a whole block, or there is no room
for a block, or no block; otherwise it crashes. Where it does not crash it leaves in the storage
what `sync` describes. A pop drains into an empty cache only, so it fails only when nothing is left,
and takes one value otherwise. -/
theorem drain_exact_iff {cap : ℕ} (registry : List Spsc) {vec : RawVec} (fits : vec.len ≤ cap)
    (channel : Channel) :
    (DrainsExactly cap registry vec ↔
        16 ∣ vec.len ∨ cap < vec.len + 16 ∨ ∀ spsc ∈ registry, spsc.queue = []) ∧
      (∀ raw : RawVec, raw.elems = channel.cached.elems →
        (16 ∣ raw.len ∨ 1024 < raw.len + 16 ∨
          ∀ spsc ∈ channel.registry.elems, spsc.queue = []) →
        ∃ final offsets,
          popAllRaw 1024 channel.registry.elems raw =
              (some (channel.sync.registry.elems, final), offsets) ∧
            final.elems = channel.sync.cached.elems) ∧
      (channel.pop.1 = none ↔
        channel.cached.elems = [] ∧ ∀ spsc ∈ channel.registry.elems, spsc.queue = []) ∧
      ∀ value, channel.pop.1 = some value →
        channel.pop.2.remaining + {value} = channel.remaining := by
  refine ⟨⟨?_, ?_⟩, fun _ => channel.popAllRaw_sync, channel.pop_none_iff_empty,
    fun _ => Channel.pop_remaining⟩
  · rintro ⟨final, offsets, drained, -⟩
    by_contra unready
    rw [not_or, ← drainCounts_sum_eq_zero] at unready
    simp [popAllRaw_of_misaligned unready.1 unready.2] at drained
  · intro ready
    have room := drainCounts_le registry fits
    rcases popAllRaw_of_ready ready with ⟨final, offsets, drained, elems, len_eq, inside⟩
    refine ⟨final, offsets, drained, elems, len_eq.trans_le room, ?_⟩
    intro offset member
    exact (inside offset member).trans room

def zeroBlock : Simd := ⟨List.replicate 16 0, rfl⟩

/-- A vector of 40 elements with 16 in use has room for one of three blocks, and for none of the
queue after them. -/
theorem drain_exact_iff_forty :
    DrainsExactly 40 [⟨1, List.replicate 3 zeroBlock⟩, ⟨2, [zeroBlock]⟩] ⟨fun _ => 7, 16⟩ :=
  (@drain_exact_iff 40 [⟨1, List.replicate 3 zeroBlock⟩, ⟨2, [zeroBlock]⟩] ⟨fun _ => 7, 16⟩
    (by decide) (channel 1)).1.mpr (Or.inl (by decide))

/-- With 15 values in the cache, as after a pop from a single block, the first store crashes. -/
theorem misaligned_drain_crashes :
    popAllRaw 1024 [⟨1, [zeroBlock]⟩] ⟨fun _ => 7, 15⟩ = (none, [15]) ∧
      ¬DrainsExactly 1024 [⟨1, [zeroBlock]⟩] ⟨fun _ => 7, 15⟩ := by
  have crashed : popAllRaw 1024 [⟨1, [zeroBlock]⟩] ⟨fun _ => 7, 15⟩ = (none, [15]) :=
    popAllRaw_of_misaligned (by decide) (by decide)
  refine ⟨crashed, ?_⟩
  rintro ⟨final, offsets, drained, -⟩
  simp [crashed] at drained

/-! ## Where the blocks are stored -/

namespace Channel

def rawCached (channel : Channel) : RawVec :=
  ⟨fun position => channel.cached.elems.getD position 0, channel.cached.len⟩

/-- The offsets at which an action of the consumer stores blocks, up to the store that crashes.
`available_len` stores none. -/
def stores (channel : Channel) : Action → List ℕ
  | .sync => (popAllRaw 1024 channel.registry.elems channel.rawCached).2
  | .pop =>
      if channel.cached.isEmpty then
        (popAllRaw 1024 channel.registry.elems channel.rawCached).2
      else
        []
  | .push _ _ _ | .flush _ _ | .clone _ | .drop _ _ => []

end Channel

theorem popAllRaw_aligned_iff {cap : ℕ} (registry : List Spsc) (vec : RawVec) :
    (∀ offset ∈ (popAllRaw cap registry vec).2, 16 ∣ offset) ↔
      16 ∣ vec.len ∨ cap < vec.len + 16 ∨ ∀ spsc ∈ registry, spsc.queue = [] := by
  rw [← drainCounts_sum_eq_zero]
  by_cases aligned : 16 ∣ vec.len
  · rcases popAllRaw_of_aligned cap registry aligned with ⟨final, drained, -⟩
    simp only [drained, aligned, true_or, iff_true, List.forall_mem_map]
    intro block _
    exact Nat.dvd_add aligned (Nat.dvd_mul_right 16 block)
  · simp only [aligned, false_or]
    constructor
    · intro stored
      by_contra something
      rw [popAllRaw_of_misaligned aligned something, List.forall_mem_singleton] at stored
      exact aligned stored
    · intro nothing offset offset_mem
      simp [popAllRaw_of_nothing nothing] at offset_mem

namespace Ledger

/-- Every block that the action stores is aligned. -/
def BlockAligned (ledger : Ledger) (action : Action) : Prop :=
  ∀ offset ∈ ledger.channel.stores action, 16 ∣ offset

instance (ledger : Ledger) (action : Action) : Decidable (ledger.BlockAligned action) :=
  inferInstanceAs (Decidable (∀ offset ∈ ledger.channel.stores action, 16 ∣ offset))

/-- A direct call of `sync` finds the cache filled up to a whole block, or has no block to move. -/
def SyncReady (ledger : Ledger) (action : Action) : Prop :=
  action = .sync → 16 ∣ ledger.channel.cached.len ∨ 1024 < ledger.channel.cached.len + 16 ∨
    ∀ spsc ∈ ledger.channel.registry.elems, spsc.queue = []

theorem blockAligned_iff (ledger : Ledger) (action : Action) :
    ledger.BlockAligned action ↔ ledger.SyncReady action := by
  cases action with
  | push _ _ _ | flush _ _ | clone _ | drop _ _ =>
      simp [BlockAligned, SyncReady, Channel.stores]
  | sync =>
      simp only [BlockAligned, SyncReady, Channel.stores, forall_const]
      exact popAllRaw_aligned_iff _ _
  | pop =>
      -- A pop drains only into an empty cache, so its blocks begin at multiples of 16.
      simp only [BlockAligned, SyncReady, Channel.stores, reduceCtorEq, false_implies, iff_true]
      split
      · rename_i empty
        apply (popAllRaw_aligned_iff _ _).mpr
        left
        have none_cached : ledger.channel.cached.len = 0 := by
          simpa [ArrayVec.isEmpty] using empty
        simp [Channel.rawCached, none_cached]
      · simp

/-- In every run, the blocks are stored aligned exactly when every direct `sync` is ready. -/
theorem stores_aligned_iff (ledger : Ledger) (actions : List Action) :
    RunMeets step BlockAligned ledger actions ↔ RunMeets step SyncReady ledger actions := by
  apply runMeets_iff (fun _ => True)
  · intro state action _
    exact blockAligned_iff state action
  · exact fun _ _ _ => trivial
  · trivial

/-- Two blocks with a pop between them. -/
def popBetweenSyncs : List Action :=
  (List.range 16).map (.push 0 ⟨0, 7⟩) ++ [.flush 0 ⟨0, 7⟩, .sync, .pop] ++
    (List.range 16).map (.push 0 ⟨0, 7⟩) ++ [.flush 0 ⟨0, 7⟩]

/-- The second block is stored at offset 15. -/
theorem popBetweenSyncs_misaligned :
    (∃ ledger, run step (start 4) popBetweenSyncs = some ledger ∧
        ledger.channel.stores .sync = [15]) ∧
      ¬RunMeets step BlockAligned (start 4) (popBetweenSyncs ++ [.sync]) := by
  constructor
  · exact ⟨_, rfl, by decide +kernel⟩
  · decide +kernel

end Ledger

end Nethuns.Mpsc
