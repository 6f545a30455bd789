import Nethuns.Lib.Bags
import Nethuns.Mpsc.Channel

/-!
# What a channel holds

The values inside a channel are those of the consumer's cache, of the registered ring buffers
and of the live local batches. This file shows, operation by operation, that values only move
between these three stages: an operation that discards nothing keeps the bag of values except
for the value pushed or popped, and what is missing otherwise is exactly what it discards.

The accounting of a block handed to a ring buffer needs that the ids in the registry are
distinct, and the destruction of the last handle that they are those of the per-thread slots.
Both are part of `WellFormed`, with the capacity of the ring buffers; every operation preserves
it.
-/

namespace Nethuns.Mpsc

open Nethuns.Lib

theorem toSimdFrom_short {filled values : List ℕ} (short : filled.length + values.length < 16) :
    toSimdFrom filled values = [] := by
  induction values generalizing filled with
  | nil => rfl
  | cons value rest ih =>
      simp only [List.length_cons] at short
      have notFull : (filled ++ [value]).length ≠ 16 := by
        simp only [List.length_append, List.length_singleton]
        omega
      rw [toSimdFrom, dif_neg notFull]
      apply ih
      simp only [List.length_append, List.length_singleton]
      omega

theorem flatten_toSimdFrom_full (filled : List ℕ) {values : List ℕ} (some_left : values ≠ [])
    (full : filled.length + values.length = 16) :
    (toSimdFrom filled values).length = 1 ∧
      Simd.flatten (toSimdFrom filled values) = filled ++ values := by
  induction values generalizing filled with
  | nil => exact absurd rfl some_left
  | cons value rest ih =>
      simp only [List.length_cons] at full
      rw [toSimdFrom]
      split
      · rename_i complete
        simp only [List.length_append, List.length_singleton] at complete
        have nothing_left : rest = [] := List.length_eq_zero_iff.mp (by omega)
        subst rest
        simp [toSimdFrom]
      · rename_i incomplete
        simp only [List.length_append, List.length_singleton] at incomplete
        have more : rest ≠ [] := by
          rintro rfl
          simp only [List.length_nil] at full
          omega
        have rest_full : (filled ++ [value]).length + rest.length = 16 := by
          simp only [List.length_append, List.length_singleton]
          omega
        simpa using ih (filled ++ [value]) more rest_full

theorem toSimd_short {values : List ℕ} (short : values.length < 16) : toSimd values = [] :=
  toSimdFrom_short (by simpa using short)

theorem toSimd_full {values : List ℕ} (full : values.length = 16) :
    ∃ block : Simd, block.lanes = values ∧ toSimd values = [block] := by
  have nonempty : values ≠ [] := by
    rintro rfl
    simp at full
  rcases flatten_toSimdFrom_full [] nonempty (by simpa using full) with ⟨one, flat⟩
  rcases List.length_eq_one_iff.mp one with ⟨block, single⟩
  rw [single] at flat
  exact ⟨block, by simpa using flat, single⟩

namespace Channel

/-- The values in the registered ring buffers. -/
def queuedValues (channel : Channel) : List ℕ :=
  channel.registry.elems.flatMap fun spsc => Simd.flatten spsc.queue

/-- The values in the local batches of the live handles. -/
def batchedValues (channel : Channel) : List ℕ :=
  channel.producers.flatMap fun producer => producer.elim [] ArrayVec.elems

/-- All the values inside the channel. -/
def contents (channel : Channel) : Multiset ℕ :=
  ↑channel.cached.elems + ↑channel.queuedValues + ↑channel.batchedValues

/-- The values the consumer can pop without any further action of a producer. -/
def available (channel : Channel) : ℕ :=
  channel.cached.elems.length + channel.queuedValues.length

/-- The ids of the registry are distinct, and are those of the per-thread slots; no ring buffer
holds more blocks than its capacity. -/
structure WellFormed (channel : Channel) : Prop where
  ids_eq : channel.registry.elems.map Spsc.id = channel.perThread.map Prod.snd
  ids_nodup : (channel.registry.elems.map Spsc.id).Nodup
  queue_le : ∀ spsc ∈ channel.registry.elems, spsc.queue.length ≤ channel.singleSpscLen

end Channel

/-- The values lost with a list of discards. -/
def discardedValues (discards : List Discard) : Multiset ℕ :=
  ↑(discards.flatMap Discard.values)

@[simp]
theorem discardedValues_nil : discardedValues [] = 0 := rfl

@[simp]
theorem discardedValues_append (left right : List Discard) :
    discardedValues (left ++ right) = discardedValues left + discardedValues right := by
  simp [discardedValues]

theorem discardedValues_refused (blocks : List Simd) :
    discardedValues (blocks.map .refused) = ↑(Simd.flatten blocks) := by
  simp [discardedValues, Simd.flatten, List.flatMap_map, Discard.values]

theorem discardedValues_orphaned (registry : List Spsc) :
    discardedValues (registry.flatMap fun spsc => spsc.queue.map .orphaned) =
      ↑(registry.flatMap fun spsc => Simd.flatten spsc.queue) := by
  simp [discardedValues, Simd.flatten, List.flatMap_map, List.flatMap_assoc, Discard.values]

namespace Channel

@[simp]
theorem channel_contents (size : ℕ) : (channel size).contents = 0 := by
  simp [channel, contents, queuedValues, batchedValues]

theorem channel_wellFormed (size : ℕ) : (channel size).WellFormed := by
  constructor <;> simp [channel]

theorem batch?_eq_some {channel : Channel} {handle : ℕ} {batch : ArrayVec ℕ 16} :
    channel.batch? handle = some batch ↔ channel.producers[handle]? = some (some batch) := by
  simp [batch?, Option.join_eq_some_iff]

theorem batch?_lt {channel : Channel} {handle : ℕ} {batch : ArrayVec ℕ 16}
    (held : channel.batch? handle = some batch) : handle < channel.producers.length :=
  (List.getElem?_eq_some_iff.mp (batch?_eq_some.mp held)).1

theorem batch?_eq_none_of_not_alive {channel : Channel} (dead : channel.alive = false)
    (handle : ℕ) : channel.batch? handle = none := by
  by_contra live
  rcases Option.ne_none_iff_exists'.mp live with ⟨batch, held⟩
  have absent := List.any_eq_false.mp dead (some batch)
    (List.mem_of_getElem? (batch?_eq_some.mp held))
  simp at absent

/-! ## The local batches -/

section Batch

variable {channel : Channel} {handle : ℕ} {old new : ArrayVec ℕ 16}

theorem setBatch_contents (new : ArrayVec ℕ 16) (held : channel.batch? handle = some old) :
    (channel.setBatch handle new).contents + ↑old.elems = channel.contents + ↑new.elems := by
  have exchanged := flatMap_set (fun producer : Option (ArrayVec ℕ 16) =>
    producer.elim [] ArrayVec.elems) (some new) (batch?_eq_some.mp held)
  simp only [Option.elim_some] at exchanged
  simp only [contents, setBatch, batchedValues, queuedValues, add_assoc, exchanged]

theorem setBatch_wellFormed (wellFormed : channel.WellFormed) :
    (channel.setBatch handle new).WellFormed :=
  ⟨wellFormed.ids_eq, wellFormed.ids_nodup, wellFormed.queue_le⟩

theorem setBatch_batch? (held : channel.batch? handle = some old) :
    (channel.setBatch handle new).batch? handle = some new := by
  have inRange : handle < channel.producers.length := by
    by_contra outOfRange
    rw [batch?, List.getElem?_eq_none (by omega)] at held
    simp at held
  simp [batch?, setBatch, inRange]

theorem setBatch_isSome {other : ℕ} (live : (channel.batch? other).isSome = true) :
    ((channel.setBatch handle new).batch? other).isSome = true := by
  by_cases same : handle = other
  · subst other
    rcases Option.isSome_iff_exists.mp live with ⟨old, held⟩
    rw [setBatch_batch? held, Option.isSome_some]
  · rw [batch?, setBatch, List.getElem?_set_ne same]
    exact live

end Batch

/-! ## The ring buffers -/

section Slot

variable {channel next : Channel} {site : Site} {id : ℕ}

theorem slot_cases (slotted : channel.slot site = some (next, id)) :
    (next = channel ∧ channel.perThread.lookup site.thread = some id) ∨
      (id = site.address ∧ site.address ∉ channel.registry.elems.map Spsc.id ∧
        next.registry.elems = channel.registry.elems ++ [⟨site.address, []⟩] ∧
        next = { channel with
          registry := next.registry
          perThread := channel.perThread ++ [(site.thread, site.address)] }) := by
  unfold slot at slotted
  split at slotted
  · rename_i present
    simp only [Option.some.injEq, Prod.mk.injEq] at slotted
    rcases slotted with ⟨rfl, rfl⟩
    exact Or.inl ⟨rfl, present⟩
  · split at slotted
    · simp at slotted
    · rename_i fresh
      simp only [Option.map_eq_some_iff, Prod.mk.injEq] at slotted
      rcases slotted with ⟨registry, pushed, rfl, rfl⟩
      exact Or.inr ⟨rfl, fresh, (ArrayVec.tryPush_eq_some.mp pushed).2, rfl⟩

theorem slot_contents (slotted : channel.slot site = some (next, id)) :
    next.contents = channel.contents := by
  rcases slot_cases slotted with ⟨rfl, -⟩ | ⟨-, -, registered, same⟩
  · rfl
  · have queued : next.queuedValues = channel.queuedValues := by
      simp [queuedValues, registered]
    have others : next.cached = channel.cached ∧ next.producers = channel.producers := by
      rw [same]
      exact ⟨rfl, rfl⟩
    simp only [contents, queued, others.1, batchedValues, others.2]

theorem slot_batch? (slotted : channel.slot site = some (next, id)) (handle : ℕ) :
    next.batch? handle = channel.batch? handle := by
  rcases slot_cases slotted with ⟨rfl, -⟩ | ⟨-, -, -, same⟩
  · rfl
  · rw [same]
    rfl

theorem slot_singleSpscLen (slotted : channel.slot site = some (next, id)) :
    next.singleSpscLen = channel.singleSpscLen := by
  rcases slot_cases slotted with ⟨rfl, -⟩ | ⟨-, -, -, same⟩
  · rfl
  · rw [same]

theorem slot_wellFormed (wellFormed : channel.WellFormed)
    (slotted : channel.slot site = some (next, id)) : next.WellFormed := by
  rcases slot_cases slotted with ⟨rfl, -⟩ | ⟨-, fresh, registered, same⟩
  · exact wellFormed
  · have slots : next.perThread = channel.perThread ++ [(site.thread, site.address)] := by
      rw [same]
    constructor
    · rw [registered, slots]
      simp [wellFormed.ids_eq]
    · rw [registered, List.map_append, List.nodup_append]
      refine ⟨wellFormed.ids_nodup, by simp, ?_⟩
      rintro left left_mem right right_mem rfl
      simp only [List.map_cons, List.map_nil, List.mem_singleton] at right_mem
      exact fresh (right_mem ▸ left_mem)
    · intro spsc member
      rw [slot_singleSpscLen slotted]
      rw [registered, List.mem_append, List.mem_singleton] at member
      rcases member with old | rfl
      · exact wellFormed.queue_le spsc old
      · simp

theorem slot_registered (wellFormed : channel.WellFormed)
    (slotted : channel.slot site = some (next, id)) :
    ∃ spsc ∈ next.registry.elems, spsc.id = id := by
  rcases slot_cases slotted with ⟨rfl, present⟩ | ⟨rfl, -, registered, -⟩
  · have member : id ∈ next.registry.elems.map Spsc.id := by
      rw [wellFormed.ids_eq]
      rcases List.lookup_eq_some_iff.mp present with ⟨before, after, split, -⟩
      rw [split]
      simp
    simpa using member
  · refine ⟨⟨site.address, []⟩, ?_, rfl⟩
    rw [registered]
    simp

end Slot

section Enqueue

variable {channel : Channel} {id : ℕ} {blocks : List Simd}

theorem enqueueMany_ids (channel : Channel) (id : ℕ) (blocks : List Simd) :
    (channel.enqueueMany id blocks).registry.elems.map Spsc.id =
      channel.registry.elems.map Spsc.id := by
  simp only [enqueueMany, List.map_map]
  apply List.map_congr_left
  intro spsc _
  simp only [Function.comp_apply]
  split <;> rfl

theorem enqueueMany_wellFormed (wellFormed : channel.WellFormed) :
    (channel.enqueueMany id blocks).WellFormed := by
  have ids := enqueueMany_ids channel id blocks
  refine ⟨ids.trans wellFormed.ids_eq, ids ▸ wellFormed.ids_nodup, ?_⟩
  intro spsc member
  simp only [enqueueMany, List.mem_map] at member
  rcases member with ⟨old, old_mem, rfl⟩
  have old_le := wellFormed.queue_le old old_mem
  change _ ≤ channel.singleSpscLen
  split
  · simp only [Spsc.enqueueMany, List.length_append, List.length_take]
    omega
  · exact old_le

theorem find?_of_mem (wellFormed : channel.WellFormed) {spsc : Spsc}
    (registered : spsc ∈ channel.registry.elems) :
    (channel.registry.elems.find? fun other => other.id = spsc.id) = some spsc := by
  cases searched : channel.registry.elems.find? fun other => other.id = spsc.id with
  | none =>
      have := List.find?_eq_none.mp searched spsc registered
      simp at this
  | some found =>
      apply congrArg some
      apply List.inj_on_of_nodup_map wellFormed.ids_nodup (List.mem_of_find?_eq_some searched)
        registered
      simpa using List.find?_some searched

theorem refused_of_mem (wellFormed : channel.WellFormed) {spsc : Spsc}
    (registered : spsc ∈ channel.registry.elems) :
    channel.refused spsc.id blocks = spsc.refused channel.singleSpscLen blocks := by
  rw [refused, find?_of_mem wellFormed registered]

/-- The blocks handed to a registered ring buffer are queued, save those it refuses. -/
theorem enqueueMany_contents (blocks : List Simd) (wellFormed : channel.WellFormed)
    (registered : ∃ spsc ∈ channel.registry.elems, spsc.id = id) :
    (channel.enqueueMany id blocks).contents + ↑(Simd.flatten (channel.refused id blocks)) =
      channel.contents + ↑(Simd.flatten blocks) := by
  rcases registered with ⟨spsc, member, rfl⟩
  have exchanged := flatMap_update_key (fun spsc => Simd.flatten spsc.queue)
    (Spsc.enqueueMany channel.singleSpscLen blocks) wellFormed.ids_nodup member
  rw [refused_of_mem wellFormed member]
  have split : Simd.flatten blocks =
      Simd.flatten (blocks.take (channel.singleSpscLen - spsc.queue.length)) ++
        Simd.flatten (spsc.refused channel.singleSpscLen blocks) := by
    rw [← Simd.flatten_append, Spsc.refused, List.take_append_drop]
  have grown : Simd.flatten (spsc.enqueueMany channel.singleSpscLen blocks).queue =
      Simd.flatten spsc.queue ++
        Simd.flatten (blocks.take (channel.singleSpscLen - spsc.queue.length)) := by
    rw [Spsc.enqueueMany, Simd.flatten_append]
  have queued :
      ((channel.enqueueMany spsc.id blocks).queuedValues : Multiset ℕ) =
        ↑channel.queuedValues +
          ↑(Simd.flatten (blocks.take (channel.singleSpscLen - spsc.queue.length))) := by
    apply add_right_cancel (b := (Simd.flatten spsc.queue : Multiset ℕ))
    rw [grown, ← Multiset.coe_add] at exchanged
    rw [add_assoc, add_comm (↑(Simd.flatten (blocks.take _)) : Multiset ℕ)]
    exact exchanged
  have others :
      (channel.enqueueMany spsc.id blocks).batchedValues = channel.batchedValues := rfl
  have cache : (channel.enqueueMany spsc.id blocks).cached = channel.cached := rfl
  rw [contents, contents, queued, others, cache, split, ← Multiset.coe_add]
  abel

end Enqueue

/-! ## The operations of a handle -/

section Flush

variable {channel next : Channel} {handle : ℕ} {site : Site} {discards : List Discard}

theorem flush_cases (flushed : channel.flush handle site = some (next, discards)) :
    ∃ batch, channel.batch? handle = some batch ∧
      ((batch.elems = [] ∧ next = channel ∧ discards = []) ∨
        (batch.elems ≠ [] ∧ ∃ middle id, channel.slot site = some (middle, id) ∧
          next = (middle.enqueueMany id (toSimd batch.elems)).setBatch handle .new ∧
          discards = (middle.refused id (toSimd batch.elems)).map .refused ++
            if batch.elems.drop (16 * (toSimd batch.elems).length) = [] then []
            else [.shortBatch (batch.elems.drop (16 * (toSimd batch.elems).length))])) := by
  simp only [flush, Option.bind_eq_some_iff] at flushed
  rcases flushed with ⟨batch, held, flushed⟩
  refine ⟨batch, held, ?_⟩
  split at flushed
  · rename_i empty
    simp only [Option.some.injEq, Prod.mk.injEq] at flushed
    exact Or.inl ⟨batch.isEmpty_iff.mp empty, flushed.1.symm, flushed.2.symm⟩
  · rename_i nonempty
    simp only [Option.map_eq_some_iff, Prod.mk.injEq] at flushed
    rcases flushed with ⟨⟨middle, id⟩, slotted, rfl, rfl⟩
    refine Or.inr ⟨fun empty => nonempty (batch.isEmpty_iff.mpr empty), middle, id, slotted,
      rfl, rfl⟩

/-- The two fates of a batch in `to_simd`: a full one becomes a block, a short one is lost. -/
theorem flatten_toSimd_append_drop (batch : ArrayVec ℕ 16) :
    Simd.flatten (toSimd batch.elems) ++ batch.elems.drop (16 * (toSimd batch.elems).length) =
      batch.elems := by
  rcases Nat.lt_or_ge batch.elems.length 16 with short | full
  · simp [toSimd_short short]
  · have exact : batch.elems.length = 16 := le_antisymm batch.length_le full
    rcases toSimd_full exact with ⟨block, lanes, blocks⟩
    rw [blocks]
    simp [lanes, exact]

theorem flush_contents (wellFormed : channel.WellFormed)
    (flushed : channel.flush handle site = some (next, discards)) :
    next.contents + discardedValues discards = channel.contents := by
  rcases flush_cases flushed with ⟨batch, held, ⟨-, rfl, rfl⟩ | ⟨-, middle, id, slotted, rfl, rfl⟩⟩
  · simp
  · have held' : middle.batch? handle = some batch := (slot_batch? slotted handle).trans held
    have held_after : (middle.enqueueMany id (toSimd batch.elems)).batch? handle = some batch :=
      held'
    have emptied := setBatch_contents .new held_after
    have queued := enqueueMany_contents (toSimd batch.elems) (slot_wellFormed wellFormed slotted)
      (slot_registered wellFormed slotted)
    have left : discardedValues
        (if batch.elems.drop (16 * (toSimd batch.elems).length) = [] then []
          else [.shortBatch (batch.elems.drop (16 * (toSimd batch.elems).length))]) =
        ↑(batch.elems.drop (16 * (toSimd batch.elems).length)) := by
      split
      · rename_i nothing
        simp [nothing]
      · simp [discardedValues, Discard.values]
    have whole := congrArg (fun values : List ℕ => (values : Multiset ℕ))
      (flatten_toSimd_append_drop batch)
    simp only [← Multiset.coe_add] at whole
    rw [slot_contents slotted] at queued
    simp only [ArrayVec.new_elems, Multiset.coe_nil, add_zero] at emptied
    rw [discardedValues_append, discardedValues_refused, left]
    apply add_right_cancel (b := (↑(Simd.flatten (toSimd batch.elems)) : Multiset ℕ))
    calc _ = ((middle.enqueueMany id (toSimd batch.elems)).setBatch handle .new).contents +
            (↑(Simd.flatten (toSimd batch.elems)) +
              ↑(batch.elems.drop (16 * (toSimd batch.elems).length))) +
            ↑(Simd.flatten (middle.refused id (toSimd batch.elems))) := by abel
      _ = channel.contents + ↑(Simd.flatten (toSimd batch.elems)) := by
          rw [whole, emptied, queued]

theorem flush_wellFormed (wellFormed : channel.WellFormed)
    (flushed : channel.flush handle site = some (next, discards)) : next.WellFormed := by
  rcases flush_cases flushed with ⟨batch, -, ⟨-, rfl, -⟩ | ⟨-, middle, id, slotted, rfl, -⟩⟩
  · exact wellFormed
  · exact setBatch_wellFormed (enqueueMany_wellFormed (slot_wellFormed wellFormed slotted))

theorem flush_batch? (flushed : channel.flush handle site = some (next, discards)) :
    next.batch? handle = some .new := by
  rcases flush_cases flushed with
    ⟨batch, held, ⟨empty, rfl, -⟩ | ⟨-, middle, id, slotted, rfl, -⟩⟩
  · rw [held]
    exact congrArg some (ArrayVec.ext empty)
  · have held_after : (middle.enqueueMany id (toSimd batch.elems)).batch? handle = some batch :=
      (slot_batch? slotted handle).trans held
    exact setBatch_batch? held_after

theorem flush_producers (flushed : channel.flush handle site = some (next, discards)) :
    next.producers = channel.producers.set handle (some .new) := by
  rcases flush_cases flushed with
    ⟨batch, held, ⟨empty, rfl, -⟩ | ⟨-, middle, id, slotted, rfl, -⟩⟩
  · have fresh : batch = .new := ArrayVec.ext empty
    rcases List.getElem?_eq_some_iff.mp (batch?_eq_some.mp held) with ⟨inRange, stored⟩
    rw [← fresh, ← stored, List.set_getElem_self]
  · have same : middle.producers = channel.producers := by
      rcases slot_cases slotted with ⟨rfl, -⟩ | ⟨-, -, -, created⟩
      · rfl
      · rw [created]
    simp only [setBatch, enqueueMany, same]

theorem flush_singleSpscLen (flushed : channel.flush handle site = some (next, discards)) :
    next.singleSpscLen = channel.singleSpscLen := by
  rcases flush_cases flushed with ⟨batch, -, ⟨-, rfl, -⟩ | ⟨-, middle, id, slotted, rfl, -⟩⟩
  · rfl
  · change middle.singleSpscLen = channel.singleSpscLen
    exact slot_singleSpscLen slotted

end Flush

section Push

variable {channel next : Channel} {handle value : ℕ} {site : Site} {discards : List Discard}

/-- A push stores the value in the batch, after a flush when the batch is full. -/
theorem push_cases (pushed : channel.push handle site value = some (next, discards)) :
    ∃ batch, channel.batch? handle = some batch ∧
      ((batch.elems.length < 16 ∧ discards = [] ∧ ∃ grown : ArrayVec ℕ 16,
          grown.elems = batch.elems ++ [value] ∧ next = channel.setBatch handle grown) ∨
        (batch.elems.length = 16 ∧ ∃ middle, channel.flush handle site = some (middle, discards) ∧
          ∃ grown : ArrayVec ℕ 16, grown.elems = [value] ∧
            next = middle.setBatch handle grown)) := by
  simp only [push, Option.bind_eq_some_iff] at pushed
  rcases pushed with ⟨batch, held, pushed⟩
  refine ⟨batch, held, ?_⟩
  split at pushed
  · rename_i grown stored
    rcases ArrayVec.tryPush_eq_some.mp stored with ⟨room, grown_elems⟩
    simp only [Option.some.injEq, Prod.mk.injEq] at pushed
    exact Or.inl ⟨room, pushed.2.symm, grown, grown_elems, pushed.1.symm⟩
  · rename_i refused
    have full := ArrayVec.tryPush_eq_none.mp refused
    simp only [Option.bind_eq_some_iff, Option.map_eq_some_iff, Prod.mk.injEq] at pushed
    rcases pushed with ⟨⟨middle, lost⟩, flushed, grown, ⟨empty, held', stored⟩, rfl, rfl⟩
    rw [flush_batch? flushed] at held'
    obtain rfl : ArrayVec.new = empty := Option.some.inj held'
    rcases ArrayVec.tryPush_eq_some.mp stored with ⟨-, grown_elems⟩
    exact Or.inr ⟨full, middle, flushed, grown, by simpa using grown_elems, rfl⟩

theorem push_contents (wellFormed : channel.WellFormed)
    (pushed : channel.push handle site value = some (next, discards)) :
    next.contents + discardedValues discards = channel.contents + {value} := by
  rcases push_cases pushed with ⟨batch, held, short | full⟩
  · rcases short with ⟨-, rfl, grown, grown_elems, rfl⟩
    have stored := setBatch_contents grown held
    rw [grown_elems, ← Multiset.coe_add] at stored
    apply add_right_cancel (b := (↑batch.elems : Multiset ℕ))
    rw [discardedValues_nil, add_zero, stored, Multiset.coe_singleton]
    abel
  · rcases full with ⟨-, middle, flushed, grown, grown_elems, rfl⟩
    have stored := setBatch_contents grown (flush_batch? flushed)
    simp only [ArrayVec.new_elems, Multiset.coe_nil, add_zero, grown_elems,
      Multiset.coe_singleton] at stored
    rw [stored, add_right_comm, flush_contents wellFormed flushed]

theorem push_producers (pushed : channel.push handle site value = some (next, discards)) :
    ∃ old grown : ArrayVec ℕ 16, channel.batch? handle = some old ∧
      next.producers = channel.producers.set handle (some grown) ∧
      grown.elems.length % 16 = (old.elems.length + 1) % 16 ∧
      grown.elems.length ≤ old.elems.length + 1 := by
  rcases push_cases pushed with ⟨batch, held, short | full⟩
  · rcases short with ⟨-, -, grown, grown_elems, rfl⟩
    exact ⟨batch, grown, held, rfl, by simp [grown_elems]⟩
  · rcases full with ⟨full, middle, flushed, grown, grown_elems, rfl⟩
    refine ⟨batch, grown, held, ?_, by simp [grown_elems, full]⟩
    simp only [setBatch, flush_producers flushed, List.set_set]

theorem push_wellFormed (wellFormed : channel.WellFormed)
    (pushed : channel.push handle site value = some (next, discards)) : next.WellFormed := by
  rcases push_cases pushed with ⟨batch, -, ⟨-, -, grown, -, rfl⟩ | full⟩
  · exact setBatch_wellFormed wellFormed
  · rcases full with ⟨-, middle, flushed, grown, -, rfl⟩
    exact setBatch_wellFormed (flush_wellFormed wellFormed flushed)

theorem push_singleSpscLen (pushed : channel.push handle site value = some (next, discards)) :
    next.singleSpscLen = channel.singleSpscLen := by
  rcases push_cases pushed with ⟨batch, -, ⟨-, -, grown, -, rfl⟩ | full⟩
  · rfl
  · rcases full with ⟨-, middle, flushed, grown, -, rfl⟩
    change middle.singleSpscLen = channel.singleSpscLen
    exact flush_singleSpscLen flushed

end Push

section Clone

variable {channel next : Channel} {handle : ℕ}

theorem clone_eq_some (cloned : channel.clone handle = some next) :
    next = { channel with producers := channel.producers ++ [some .new] } := by
  simp only [clone, Option.map_eq_some_iff] at cloned
  rcases cloned with ⟨-, -, rfl⟩
  rfl

theorem clone_contents (cloned : channel.clone handle = some next) :
    next.contents = channel.contents := by
  rw [clone_eq_some cloned]
  simp [contents, queuedValues, batchedValues]

theorem clone_wellFormed (wellFormed : channel.WellFormed)
    (cloned : channel.clone handle = some next) : next.WellFormed := by
  rw [clone_eq_some cloned]
  exact ⟨wellFormed.ids_eq, wellFormed.ids_nodup, wellFormed.queue_le⟩

end Clone

section Drop

/-- Among distinct ids, `ConsumerRegistry::remove` takes out one entry and keeps the others. -/
theorem remove_of_split {registry : ArrayVec Spsc 4096} {before after : List Spsc} {spsc : Spsc}
    (entries : registry.elems = before ++ spsc :: after)
    (distinct : (registry.elems.map Spsc.id).Nodup) :
    ∃ removed, remove registry spsc.id = some removed ∧ removed.elems = before ++ after ∧
      spsc.id ∉ (before ++ after).map Spsc.id := by
  rw [entries, List.map_append, List.map_cons, List.nodup_middle, List.nodup_cons,
    ← List.map_append] at distinct
  have others : ∀ other ∈ before ++ after, other.id ≠ spsc.id := by
    intro other member same
    exact distinct.1 (same ▸ List.mem_map_of_mem member)
  have retained : registry.elems.filter (fun other => other.id ≠ spsc.id) = before ++ after := by
    rw [entries, List.filter_append, List.filter_cons_of_neg (by simp), ← List.filter_append,
      List.filter_eq_self]
    intro other member
    simpa using others other member
  have one_less : (registry.elems.filter fun other => other.id ≠ spsc.id).length + 1 =
      registry.elems.length := by
    rw [retained, entries, List.length_append, List.length_append, List.length_cons, add_assoc]
  have bound := registry.length_le
  refine ⟨⟨before ++ after, by rw [← retained]; omega⟩, ?_, rfl, distinct.1⟩
  rw [remove, if_pos one_less]
  exact congrArg some (ArrayVec.ext retained)

/-- Dropping all the per-thread slots empties the registry: the assertion of
`ConsumerRegistry::remove` holds each time. -/
theorem removeAll_eq {registry : ArrayVec Spsc 4096} {slots : List (ℕ × ℕ)}
    (ids : registry.elems.map Spsc.id = slots.map Prod.snd)
    (distinct : (registry.elems.map Spsc.id).Nodup) :
    removeAll registry slots = some .new := by
  induction slots generalizing registry with
  | nil =>
      have empty : registry.elems = [] := by simpa using ids
      exact congrArg some (ArrayVec.ext empty)
  | cons slot slots ih =>
      obtain ⟨spsc, rest, entries, same, ids_rest⟩ : ∃ spsc rest,
          registry.elems = spsc :: rest ∧ spsc.id = slot.2 ∧
            rest.map Spsc.id = slots.map Prod.snd := by
        cases entries : registry.elems with
        | nil => simp [entries] at ids
        | cons spsc rest =>
            rw [entries] at ids
            simp only [List.map_cons, List.cons.injEq] at ids
            exact ⟨spsc, rest, rfl, ids.1, ids.2⟩
      rcases remove_of_split (show registry.elems = [] ++ spsc :: rest from entries) distinct
        with ⟨removed, removed_eq, removed_elems, -⟩
      rw [removeAll, ← same, removed_eq, Option.bind_some]
      apply ih
      · rw [removed_elems, List.nil_append, ids_rest]
      · rw [removed_elems, List.nil_append]
        rw [entries, List.map_cons, List.nodup_cons] at distinct
        exact distinct.2

variable {channel next : Channel} {handle : ℕ} {site : Site} {discards : List Discard}

/-- A drop is a flush; with the last handle the registry becomes empty. -/
theorem drop_cases (wellFormed : channel.WellFormed)
    (dropped : channel.drop handle site = some (next, discards)) :
    ∃ middle lost, channel.flush handle site = some (middle, lost) ∧
      (({ middle with producers := middle.producers.set handle none }.alive = true ∧
          next = { middle with producers := middle.producers.set handle none } ∧
          discards = lost) ∨
        ({ middle with producers := middle.producers.set handle none }.alive = false ∧
          next = { middle with
            producers := middle.producers.set handle none
            registry := .new
            perThread := [] } ∧
          discards = lost ++
            middle.registry.elems.flatMap fun spsc => spsc.queue.map .orphaned)) := by
  simp only [drop, Option.bind_eq_some_iff] at dropped
  rcases dropped with ⟨⟨middle, lost⟩, flushed, dropped⟩
  refine ⟨middle, lost, flushed, ?_⟩
  split at dropped
  · rename_i others
    simp only [Option.some.injEq, Prod.mk.injEq] at dropped
    exact Or.inl ⟨others, dropped.1.symm, dropped.2.symm⟩
  · rename_i last
    have middle_wellFormed := flush_wellFormed wellFormed flushed
    rw [removeAll_eq middle_wellFormed.ids_eq middle_wellFormed.ids_nodup] at dropped
    simp only [Option.map_some, Option.some.injEq, Prod.mk.injEq] at dropped
    exact Or.inr ⟨by simpa using last, dropped.1.symm, dropped.2.symm⟩

theorem forget_batchedValues (held : channel.batch? handle = some .new) :
    ((channel.producers.set handle none).flatMap fun producer =>
        producer.elim [] ArrayVec.elems : Multiset ℕ) = ↑channel.batchedValues := by
  have exchanged := flatMap_set (fun producer : Option (ArrayVec ℕ 16) =>
    producer.elim [] ArrayVec.elems) none (batch?_eq_some.mp held)
  simpa [batchedValues] using exchanged

theorem drop_contents (wellFormed : channel.WellFormed)
    (dropped : channel.drop handle site = some (next, discards)) :
    next.contents + discardedValues discards = channel.contents := by
  rcases drop_cases wellFormed dropped with ⟨middle, lost, flushed, others | last⟩
  · rcases others with ⟨-, rfl, rfl⟩
    have forgotten := forget_batchedValues (flush_batch? flushed)
    rw [← flush_contents wellFormed flushed]
    simp only [contents, batchedValues, queuedValues] at forgotten ⊢
    rw [forgotten]
  · rcases last with ⟨-, rfl, rfl⟩
    have forgotten := forget_batchedValues (flush_batch? flushed)
    rw [← flush_contents wellFormed flushed, discardedValues_append, discardedValues_orphaned]
    simp only [contents, batchedValues, queuedValues, ArrayVec.new_elems,
      List.flatMap_nil, Multiset.coe_nil, add_zero] at forgotten ⊢
    rw [forgotten]
    abel

theorem drop_producers (wellFormed : channel.WellFormed)
    (dropped : channel.drop handle site = some (next, discards)) :
    next.producers = channel.producers.set handle none := by
  rcases drop_cases wellFormed dropped with ⟨middle, lost, flushed, ⟨-, rfl, -⟩ | ⟨-, rfl, -⟩⟩
  all_goals simp only [flush_producers flushed, List.set_set]

theorem drop_wellFormed (wellFormed : channel.WellFormed)
    (dropped : channel.drop handle site = some (next, discards)) : next.WellFormed := by
  rcases drop_cases wellFormed dropped with ⟨middle, lost, flushed, ⟨-, rfl, -⟩ | ⟨-, rfl, -⟩⟩
  · have := flush_wellFormed wellFormed flushed
    exact ⟨this.ids_eq, this.ids_nodup, this.queue_le⟩
  · constructor <;> simp

theorem drop_singleSpscLen (wellFormed : channel.WellFormed)
    (dropped : channel.drop handle site = some (next, discards)) :
    next.singleSpscLen = channel.singleSpscLen := by
  rcases drop_cases wellFormed dropped with ⟨middle, lost, flushed, ⟨-, rfl, -⟩ | ⟨-, rfl, -⟩⟩
  all_goals
    change middle.singleSpscLen = channel.singleSpscLen
    exact flush_singleSpscLen flushed

end Drop

/-! ## The operations of the consumer -/

section Consumer

/-- `pop_all` moves blocks from the ring buffers to the vector and keeps the ids. -/
theorem popAll_values {cap : ℕ} (registry : List Spsc) (vec : ArrayVec ℕ cap) :
    (↑(popAll registry vec).2.elems : Multiset ℕ) +
        ↑((popAll registry vec).1.flatMap fun spsc => Simd.flatten spsc.queue) =
      ↑vec.elems + ↑(registry.flatMap fun spsc => Simd.flatten spsc.queue) := by
  induction registry generalizing vec with
  | nil => simp [popAll]
  | cons spsc rest ih =>
      simp only [popAll, List.flatMap_cons, ← Multiset.coe_add]
      have moved : (↑(drainInto spsc vec).2.elems : Multiset ℕ) +
          ↑(Simd.flatten (drainInto spsc vec).1.queue) =
          ↑vec.elems + ↑(Simd.flatten spsc.queue) := by
        simp only [drainInto, ← Multiset.coe_add, add_assoc]
        rw [Multiset.coe_add (Simd.flatten _), ← Simd.flatten_append, List.take_append_drop]
      rw [add_left_comm, ih, add_left_comm, ← add_assoc, ← add_assoc, moved]

theorem popAll_ids {cap : ℕ} (registry : List Spsc) (vec : ArrayVec ℕ cap) :
    (popAll registry vec).1.map Spsc.id = registry.map Spsc.id := by
  induction registry generalizing vec with
  | nil => rfl
  | cons spsc rest ih => simp [popAll, ih, drainInto]

theorem popAll_queue_le {cap bound : ℕ} {registry : List Spsc} (vec : ArrayVec ℕ cap)
    (bounded : ∀ spsc ∈ registry, spsc.queue.length ≤ bound) :
    ∀ spsc ∈ (popAll registry vec).1, spsc.queue.length ≤ bound := by
  induction registry generalizing vec with
  | nil => simp [popAll]
  | cons spsc rest ih =>
      simp only [List.forall_mem_cons] at bounded
      simp only [popAll, List.forall_mem_cons]
      refine ⟨?_, ih _ bounded.2⟩
      simp only [drainInto, List.length_drop]
      omega

variable {channel : Channel}

theorem sync_contents (channel : Channel) : channel.sync.contents = channel.contents := by
  have moved := popAll_values channel.registry.elems channel.cached
  simp only [contents, sync, queuedValues, batchedValues]
  rw [moved]

theorem sync_wellFormed (wellFormed : channel.WellFormed) : channel.sync.WellFormed := by
  have ids := popAll_ids channel.registry.elems channel.cached
  refine ⟨ids.trans wellFormed.ids_eq, ?_, popAll_queue_le _ wellFormed.queue_le⟩
  change ((popAll channel.registry.elems channel.cached).1.map Spsc.id).Nodup
  rw [ids]
  exact wellFormed.ids_nodup

/-- The bag of the popped value, empty when nothing is popped. -/
def poppedValues (value : Option ℕ) : Multiset ℕ := ↑value.toList

theorem pop_contents (channel : Channel) :
    channel.pop.2.contents + poppedValues channel.pop.1 = channel.contents := by
  have synced : (if channel.cached.isEmpty then channel.sync else channel).contents =
      channel.contents := by
    split
    · exact sync_contents channel
    · rfl
  rw [← synced]
  generalize filled : (if channel.cached.isEmpty then channel.sync else channel) = start
  have popped_eq : channel.pop =
      (start.cached.pop.1, { start with cached := start.cached.pop.2 }) := by
    simp only [pop, filled]
  rw [popped_eq]
  cases popped : start.cached.pop with
  | mk value cached =>
      cases value with
      | none =>
          have empty := ArrayVec.pop_eq_none popped
          have same : cached = start.cached := by
            simp only [ArrayVec.pop, Prod.mk.injEq] at popped
            rw [← popped.2]
            exact ArrayVec.ext (by simp [empty])
          simp [poppedValues, same]
      | some value =>
          have split := ArrayVec.pop_eq_some popped
          simp only [contents, split, poppedValues, Option.toList_some, ← Multiset.coe_add,
            queuedValues, batchedValues]
          abel

theorem pop_producers (channel : Channel) : channel.pop.2.producers = channel.producers := by
  simp only [pop]
  split <;> rfl

theorem pop_singleSpscLen (channel : Channel) :
    channel.pop.2.singleSpscLen = channel.singleSpscLen := by
  simp only [pop]
  split <;> rfl

theorem pop_ids (channel : Channel) :
    channel.pop.2.registry.elems.map Spsc.id = channel.registry.elems.map Spsc.id := by
  simp only [pop]
  split
  · exact popAll_ids _ _
  · rfl

theorem pop_wellFormed (wellFormed : channel.WellFormed) : channel.pop.2.WellFormed := by
  have synced : (if channel.cached.isEmpty then channel.sync else channel).WellFormed := by
    split
    · exact sync_wellFormed wellFormed
    · exact wellFormed
  exact ⟨synced.ids_eq, synced.ids_nodup, synced.queue_le⟩

end Consumer

end Channel

end Nethuns.Mpsc
