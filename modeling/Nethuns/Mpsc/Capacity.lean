import Nethuns.Mpsc.Ledger

/-!
# Channels with room for everything in them

A socket creates its channel with as many blocks per queue as it has buffers. As long as the
channel holds no more values than one queue has lanes, no queue can be full when a full batch
is handed over. Pushing then loses nothing, and a flush or the drop of a handle that is not the
last one loses exactly the batches that are neither empty nor full.
-/

namespace Nethuns.Mpsc.Channel

open Nethuns.Lib

variable {channel next : Channel} {handle : ℕ} {site : Site} {discards : List Discard}

/-- All the values of the channel fit one queue. -/
def Roomy (channel : Channel) : Prop :=
  channel.contents.card ≤ 16 * channel.singleSpscLen

theorem batch_length_add_queue_length_le {batch : ArrayVec ℕ 16} {spsc : Spsc}
    (held : channel.batch? handle = some batch) (registered : spsc ∈ channel.registry.elems) :
    batch.elems.length + 16 * spsc.queue.length ≤ channel.contents.card := by
  have batched : batch.elems.length ≤ channel.batchedValues.length :=
    length_le_length_flatMap (fun producer : Option (ArrayVec ℕ 16) =>
      producer.elim [] ArrayVec.elems) (List.mem_of_getElem? (batch?_eq_some.mp held))
  have queued : (Simd.flatten spsc.queue).length ≤ channel.queuedValues.length :=
    length_le_length_flatMap (fun spsc : Spsc => Simd.flatten spsc.queue) registered
  simp only [Simd.length_flatten] at queued
  simp only [contents, Multiset.card_add, Multiset.coe_card]
  omega

theorem Roomy.not_queueFull {batch : ArrayVec ℕ 16} (roomy : channel.Roomy)
    (held : channel.batch? handle = some batch) (full : batch.elems.length = 16) :
    ¬channel.QueueFull site.thread := by
  intro queueFull
  simp only [Roomy] at roomy
  simp only [QueueFull] at queueFull
  split at queueFull
  · have batched : batch.elems.length ≤ channel.batchedValues.length :=
      length_le_length_flatMap (fun producer : Option (ArrayVec ℕ 16) =>
        producer.elim [] ArrayVec.elems) (List.mem_of_getElem? (batch?_eq_some.mp held))
    simp only [contents, Multiset.card_add, Multiset.coe_card] at roomy
    omega
  · rcases queueFull with ⟨spsc, registered, -, length⟩
    have := batch_length_add_queue_length_le held registered
    omega

theorem flush_lossless {batch : ArrayVec ℕ 16} (wellFormed : channel.WellFormed)
    (roomy : channel.Roomy) (held : channel.batch? handle = some batch)
    (whole : batch.elems.length % 16 = 0)
    (flushed : channel.flush handle site = some (next, discards)) : discards = [] := by
  rcases flush_discards wellFormed flushed with ⟨other, held', ways⟩
  rw [held, Option.some.injEq] at held'
  subst other
  apply List.eq_nil_iff_forall_not_mem.mpr
  intro discard discard_mem
  rcases ways discard discard_mem with ⟨-, short, nonempty⟩ | ⟨block, -, -, full, queueFull⟩
  · have := List.length_pos_iff.mpr nonempty
    omega
  · exact roomy.not_queueFull held full queueFull

/-- In a roomy channel a flush loses values when its batch is neither empty nor full. -/
theorem flush_lossless_iff {batch : ArrayVec ℕ 16} (wellFormed : channel.WellFormed)
    (roomy : channel.Roomy) (held : channel.batch? handle = some batch)
    (flushed : channel.flush handle site = some (next, discards)) :
    discardedValues discards = 0 ↔ batch.elems.length % 16 = 0 := by
  constructor
  · intro lossless
    rcases flush_cases flushed with
      ⟨other, held', ⟨empty, -, -⟩ | ⟨nonempty, middle, id, -, -, rfl⟩⟩
    all_goals
      rw [held, Option.some.injEq] at held'
      subst other
    · simp [empty]
    · by_contra partly
      have bound := batch.length_le
      have short : batch.elems.length < 16 := by omega
      simp only [toSimd_short short, List.length_nil, Nat.mul_zero, List.drop_zero, nonempty,
        if_false, discardedValues_append] at lossless
      simp [discardedValues, Discard.values, nonempty] at lossless
  · intro whole
    simp [flush_lossless wellFormed roomy held whole flushed]

theorem push_lossless {value : ℕ} (wellFormed : channel.WellFormed) (roomy : channel.Roomy)
    (pushed : channel.push handle site value = some (next, discards)) : discards = [] := by
  rcases push_cases pushed with ⟨batch, held, ⟨-, lossless, -⟩ | ⟨full, middle, flushed, -⟩⟩
  · exact lossless
  · apply flush_lossless wellFormed roomy held _ flushed
    omega

theorem drop_lossless_iff {batch otherBatch : ArrayVec ℕ 16} {other : ℕ}
    (wellFormed : channel.WellFormed) (roomy : channel.Roomy)
    (held : channel.batch? handle = some batch) (different : other ≠ handle)
    (live : channel.batch? other = some otherBatch)
    (dropped : channel.drop handle site = some (next, discards)) :
    discardedValues discards = 0 ↔ batch.elems.length % 16 = 0 := by
  rcases drop_cases wellFormed dropped with
    ⟨middle, lost, flushed, ⟨-, -, rfl⟩ | ⟨nobody, -, -⟩⟩
  · exact flush_lossless_iff wellFormed roomy held flushed
  · exact absurd (lastHandle_of_drop flushed nobody other otherBatch live) different

/-- Pushing many values through one handle: what is discarded is all that is lost, nothing is as
long as all of them fit one queue, and the batch fills up modulo 16. -/
theorem pushAll_spec {values : List ℕ} {batch : ArrayVec ℕ 16} (wellFormed : channel.WellFormed)
    (held : channel.batch? handle = some batch)
    (pushed : channel.pushAll handle site values = some (next, discards)) :
    next.WellFormed ∧ next.singleSpscLen = channel.singleSpscLen ∧
      next.contents + discardedValues discards = channel.contents + ↑values ∧
      (channel.contents.card + values.length ≤ 16 * channel.singleSpscLen → discards = []) ∧
      ∃ filled, next.batch? handle = some filled ∧
        filled.elems.length % 16 = (batch.elems.length + values.length) % 16 := by
  induction values generalizing channel batch discards with
  | nil =>
      simp only [pushAll, Option.some.injEq, Prod.mk.injEq] at pushed
      rcases pushed with ⟨rfl, rfl⟩
      exact ⟨wellFormed, rfl, by simp, fun _ => rfl, batch, held, by simp⟩
  | cons value values ih =>
      simp only [pushAll, Option.bind_eq_some_iff, Option.map_eq_some_iff, Prod.mk.injEq] at pushed
      rcases pushed with ⟨⟨middle, lost⟩, first, ⟨last, more⟩, rest, rfl, rfl⟩
      rcases push_producers first with ⟨old, grown, old_held, producers, length, -⟩
      obtain rfl : batch = old := Option.some.inj (held.symm.trans old_held)
      have grown_held : middle.batch? handle = some grown := by
        simp [batch?_eq_some, producers, batch?_lt held]
      have capacity := push_singleSpscLen first
      have contents := push_contents wellFormed first
      rcases ih (push_wellFormed wellFormed first) grown_held rest with
        ⟨wellFormed', capacity', contents', lossless', filled, filled_held, filled_length⟩
      refine ⟨wellFormed', capacity'.trans capacity, ?_, ?_, filled, filled_held, ?_⟩
      · rw [discardedValues_append, ← add_assoc, add_right_comm, contents', add_right_comm,
          contents, ← Multiset.cons_coe, ← Multiset.singleton_add, add_assoc]
      · intro room
        simp only [List.length_cons] at room
        have none_lost := push_lossless wellFormed (by simp only [Roomy]; omega) first
        subst lost
        have card := congrArg Multiset.card contents
        simp only [discardedValues_nil, add_zero, Multiset.card_add,
          Multiset.card_singleton] at card
        rw [lossless' (by omega), List.append_nil]
      · simp only [List.length_cons]
        omega

/-- Pushing many values and flushing: what is discarded is all that is lost, and nothing is when
the values fill up the batch and all fit one queue. -/
theorem pushAll_flush_spec {values : List ℕ} {batch : ArrayVec ℕ 16} {filled : Channel}
    {more : List Discard} (wellFormed : channel.WellFormed)
    (held : channel.batch? handle = some batch)
    (pushed : channel.pushAll handle site values = some (filled, discards))
    (flushed : filled.flush handle site = some (next, more)) :
    next.WellFormed ∧ next.singleSpscLen = channel.singleSpscLen ∧
      next.batch? handle = some .new ∧
      next.contents + discardedValues (discards ++ more) = channel.contents + ↑values ∧
      (channel.contents.card + values.length ≤ 16 * channel.singleSpscLen →
        (batch.elems.length + values.length) % 16 = 0 → discards ++ more = []) := by
  rcases pushAll_spec wellFormed held pushed with
    ⟨wellFormed', capacity, contents, lossless, batch', held', length⟩
  have flushed_contents := flush_contents wellFormed' flushed
  refine ⟨flush_wellFormed wellFormed' flushed, (flush_singleSpscLen flushed).trans capacity,
    flush_batch? flushed, ?_, ?_⟩
  · rw [← contents, ← flushed_contents, discardedValues_append]
    abel
  · intro room whole
    have none_lost := lossless room
    subst discards
    simp only [discardedValues_nil, add_zero] at contents
    have roomy : filled.Roomy := by
      simpa [Roomy, contents, capacity] using room
    rw [flush_lossless wellFormed' roomy held' (length.trans whole) flushed, List.append_nil]

/-! ## Stocking a new channel -/

section Stock

variable {values : List ℕ} {value size : ℕ}

/-- The thread has its ring buffer, or one can be created for it. -/
def Usable (channel : Channel) (site : Site) : Prop := (channel.slot site).isSome = true

theorem usable_channel (size : ℕ) (site : Site) : (Mpsc.channel size).Usable site := by
  simp [Usable, slot, Mpsc.channel, ArrayVec.tryPush]

theorem usable_of_lookup {id : ℕ} (present : channel.perThread.lookup site.thread = some id) :
    channel.Usable site := by
  simp [Usable, slot, present]

/-- Only the slots and the ids of the registry decide. -/
theorem Usable.of_ids {other : Channel} (usable : channel.Usable site)
    (perThread : other.perThread = channel.perThread)
    (ids : other.registry.elems.map Spsc.id = channel.registry.elems.map Spsc.id) :
    other.Usable site := by
  have length := congrArg List.length ids
  simp only [List.length_map] at length
  simp only [Usable, slot, perThread, ids, ArrayVec.tryPush] at usable ⊢
  cases present : channel.perThread.lookup site.thread with
  | some id => rfl
  | none =>
      simp only [present] at usable
      by_cases taken : site.address ∈ channel.registry.elems.map Spsc.id
      · simp [taken] at usable
      · simpa [taken, length] using usable

theorem Usable.setBatch (usable : channel.Usable site) (batch : ArrayVec ℕ 16) :
    (channel.setBatch handle batch).Usable site :=
  usable.of_ids rfl rfl

/-- Only the consumer has taken from the channel: its handles are as they were, and the threads
still have their ring buffers. -/
structure Drawn (channel next : Channel) : Prop where
  producers : next.producers = channel.producers
  usable : ∀ {site}, channel.Usable site → next.Usable site

theorem Drawn.refl (channel : Channel) : channel.Drawn channel := ⟨rfl, id⟩

theorem Drawn.trans {middle : Channel} (first : channel.Drawn middle)
    (second : middle.Drawn next) : channel.Drawn next :=
  ⟨second.producers.trans first.producers, fun usable => second.usable (first.usable usable)⟩

theorem sync_drawn (channel : Channel) : channel.Drawn channel.sync :=
  ⟨rfl, fun usable => usable.of_ids rfl (popAll_ids _ _)⟩

theorem pop_drawn (channel : Channel) : channel.Drawn channel.pop.2 := by
  refine ⟨pop_producers channel, fun usable => usable.of_ids ?_ (pop_ids channel)⟩
  simp only [pop]
  split <;> rfl

theorem slot_lookup {middle : Channel} {id : ℕ} (slotted : channel.slot site = some (middle, id)) :
    ∃ other, middle.perThread.lookup site.thread = some other := by
  rcases slot_cases slotted with ⟨rfl, present⟩ | ⟨-, -, -, created⟩
  · exact ⟨id, present⟩
  · rw [created]
    apply Option.ne_none_iff_exists'.mp
    simp [List.lookup_eq_none_iff]

theorem flush_isSome {batch : ArrayVec ℕ 16} (held : channel.batch? handle = some batch)
    (usable : channel.Usable site) : (channel.flush handle site).isSome = true := by
  simp only [flush, held, Option.bind_some]
  split
  · rfl
  · simpa [Usable] using usable

theorem flush_usable (usable : channel.Usable site)
    (flushed : channel.flush handle site = some (next, discards)) : next.Usable site := by
  rcases flush_cases flushed with ⟨batch, -, ⟨-, rfl, -⟩ | ⟨-, middle, id, slotted, rfl, -⟩⟩
  · exact usable
  · rcases slot_lookup slotted with ⟨other, present⟩
    exact usable_of_lookup present

theorem push_isSome {batch : ArrayVec ℕ 16} (value : ℕ) (held : channel.batch? handle = some batch)
    (usable : channel.Usable site) : (channel.push handle site value).isSome = true := by
  simp only [push, held, Option.bind_some]
  split
  · rfl
  · rcases Option.isSome_iff_exists.mp (flush_isSome held usable) with ⟨⟨middle, lost⟩, flushed⟩
    simp [flushed, flush_batch? flushed, ArrayVec.tryPush]

theorem push_usable (usable : channel.Usable site)
    (pushed : channel.push handle site value = some (next, discards)) : next.Usable site := by
  rcases push_cases pushed with ⟨batch, -, ⟨-, -, grown, -, rfl⟩ | full⟩
  · exact usable.setBatch grown
  · rcases full with ⟨-, middle, flushed, grown, -, rfl⟩
    exact (flush_usable usable flushed).setBatch grown

theorem pushAll_isSome {batch : ArrayVec ℕ 16} (values : List ℕ)
    (held : channel.batch? handle = some batch) (usable : channel.Usable site) :
    ∃ next discards, channel.pushAll handle site values = some (next, discards) ∧
      next.Usable site := by
  induction values generalizing channel batch with
  | nil => exact ⟨channel, [], rfl, usable⟩
  | cons value values ih =>
      rcases Option.isSome_iff_exists.mp (push_isSome value held usable) with
        ⟨⟨middle, lost⟩, pushed⟩
      rcases push_producers pushed with ⟨old, grown, -, producers, -⟩
      have held' : middle.batch? handle = some grown := by
        simp [batch?_eq_some, producers, batch?_lt held]
      rcases ih held' (push_usable usable pushed) with ⟨next, more, rest, usable'⟩
      refine ⟨next, lost ++ more, ?_, usable'⟩
      simp [Channel.pushAll, pushed, rest]

/-- The state of a channel that is being stocked through one handle on one thread. -/
structure Stocking (channel : Channel) (handle : ℕ) (site : Site) (size count : ℕ) : Prop where
  wellFormed : channel.WellFormed
  usable : channel.Usable site
  capacity : channel.singleSpscLen = size
  card : channel.contents.card = count
  batch : ∃ batch, channel.batch? handle = some batch ∧ batch.elems.length % 16 = count % 16

theorem channel_stocking (size : ℕ) (site : Site) : (Mpsc.channel size).Stocking 0 site size 0 := by
  refine ⟨channel_wellFormed size, usable_channel size site, rfl, ?_, .new, rfl, rfl⟩
  simp

theorem Stocking.push {count : ℕ} (stocking : channel.Stocking handle site size count) (value : ℕ)
    (room : count ≤ 16 * size) :
    ∃ next, channel.push handle site value = some (next, []) ∧
      next.contents = channel.contents + {value} ∧ next.Stocking handle site size (count + 1) := by
  rcases stocking.batch with ⟨batch, held, filled⟩
  rcases Option.isSome_iff_exists.mp (push_isSome value held stocking.usable) with
    ⟨⟨next, discards⟩, pushed⟩
  have roomy : channel.Roomy := by
    simpa only [Roomy, stocking.card, stocking.capacity] using room
  have lossless := push_lossless stocking.wellFormed roomy pushed
  subst discards
  have contents := push_contents stocking.wellFormed pushed
  simp only [discardedValues_nil, add_zero] at contents
  rcases push_producers pushed with ⟨old, grown, old_held, producers, length, -⟩
  obtain rfl : batch = old := Option.some.inj (held.symm.trans old_held)
  refine ⟨next, pushed, contents, push_wellFormed stocking.wellFormed pushed,
    push_usable stocking.usable pushed, ?_, ?_, grown, ?_, ?_⟩
  · exact (push_singleSpscLen pushed).trans stocking.capacity
  · simp [contents, stocking.card]
  · simp [batch?_eq_some, producers, batch?_lt held]
  · omega

theorem Stocking.pushAll {count : ℕ} (stocking : channel.Stocking handle site size count)
    (room : count + values.length ≤ 16 * size) :
    ∃ next, channel.pushAll handle site values = some (next, []) ∧
      next.contents = channel.contents + ↑values ∧
      next.Stocking handle site size (count + values.length) := by
  induction values generalizing channel count with
  | nil => exact ⟨channel, rfl, by simp, by simpa using stocking⟩
  | cons value values ih =>
      simp only [List.length_cons] at room
      rcases stocking.push value (by omega) with ⟨middle, pushed, contents, stocking'⟩
      rcases ih stocking' (by omega) with ⟨next, pushedRest, contentsRest, stockingRest⟩
      refine ⟨next, ?_, ?_, ?_⟩
      · simp [Channel.pushAll, pushed, pushedRest]
      · rw [contentsRest, contents, ← Multiset.cons_coe, ← Multiset.singleton_add, add_assoc]
      · simpa [Nat.add_comm, Nat.add_left_comm] using stockingRest

theorem pushAll_length (pushed : channel.pushAll handle site values = some (next, discards)) :
    next.producers.length = channel.producers.length := by
  induction values generalizing channel discards with
  | nil =>
      simp only [pushAll, Option.some.injEq, Prod.mk.injEq] at pushed
      rw [pushed.1]
  | cons value values ih =>
      simp only [pushAll, Option.bind_eq_some_iff, Option.map_eq_some_iff, Prod.mk.injEq] at pushed
      rcases pushed with ⟨⟨middle, lost⟩, first, ⟨last, more⟩, rest, rfl, -⟩
      rcases push_producers first with ⟨old, grown, -, producers, -⟩
      rw [ih rest, producers, List.length_set]

/-- With one handle, which has just been flushed, no value waits in a batch. -/
theorem flush_only (single : channel.producers.length = 1)
    (flushed : channel.flush 0 site = some (next, discards)) : next.producers = [some .new] := by
  rcases List.length_eq_one_iff.mp single with ⟨producer, only⟩
  rw [flush_producers flushed, only]
  rfl

theorem batch?_of_only (only : channel.producers = [some .new]) :
    channel.batch? 0 = some .new := by
  simp [batch?, only]

theorem batchedValues_of_only (only : channel.producers = [some .new]) :
    channel.batchedValues = [] := by
  simp [batchedValues, only, ArrayVec.new]

/-- A handle that is dropped right after it was cloned throws nothing away. -/
theorem clone_drop {batch : ArrayVec ℕ 16} (held : channel.batch? handle = some batch)
    (site : Site) :
    ∃ cloned, channel.clone handle = some cloned ∧
      cloned.batch? channel.producers.length = some .new ∧
      cloned.drop channel.producers.length site =
        some ({ channel with producers := channel.producers ++ [none] }, []) := by
  have cloned : channel.clone handle =
      some { channel with producers := channel.producers ++ [some .new] } := by
    simp only [clone, held, Option.map_some]
  have fresh : batch? { channel with producers := channel.producers ++ [some .new] }
      channel.producers.length = some .new := by
    simp [batch?_eq_some]
  have flushed : flush { channel with producers := channel.producers ++ [some .new] }
      channel.producers.length site =
      some ({ channel with producers := channel.producers ++ [some .new] }, []) := by
    simp only [flush, fresh, Option.bind_some]
    rfl
  have dropped : (channel.producers ++ [some ArrayVec.new]).set channel.producers.length none =
      channel.producers ++ [none] := by
    simp
  have alive : (channel.producers ++ [none]).any Option.isSome = true := by
    have stored := List.mem_of_getElem? (batch?_eq_some.mp held)
    exact List.any_eq_true.mpr ⟨_, List.mem_append_left _ stored, rfl⟩
  refine ⟨_, cloned, fresh, ?_⟩
  simp only [drop, flushed, Option.bind_some, Channel.alive, dropped, alive, if_true]

/-- A new channel filled with values and flushed, as a socket does at its creation: what the
values exceed a multiple of 16 by is lost. -/
theorem stock_channel (site : Site) (room : values.length ≤ 16 * size) :
    ∃ filled flushed discards,
      (Mpsc.channel size).pushAll 0 site values = some (filled, []) ∧
      filled.flush 0 site = some (flushed, discards) ∧
      flushed.WellFormed ∧ flushed.singleSpscLen = size ∧ flushed.producers = [some .new] ∧
      flushed.Usable site ∧ flushed.contents + discardedValues discards = ↑values ∧
      (discardedValues discards = 0 ↔ values.length % 16 = 0) := by
  rcases (channel_stocking size site).pushAll (by simpa using room) with
    ⟨filled, pushed, contents, stocking⟩
  rcases stocking.batch with ⟨batch, held, length⟩
  rcases Option.isSome_iff_exists.mp (flush_isSome held stocking.usable) with
    ⟨⟨flushed, discards⟩, done⟩
  have roomy : filled.Roomy := by
    simpa [Roomy, stocking.card, stocking.capacity] using room
  refine ⟨filled, flushed, discards, pushed, done, flush_wellFormed stocking.wellFormed done,
    (flush_singleSpscLen done).trans stocking.capacity, flush_only (pushAll_length pushed) done,
    flush_usable stocking.usable done, ?_, ?_⟩
  · simp [flush_contents stocking.wellFormed done, contents]
  · rw [flush_lossless_iff stocking.wellFormed roomy held done, length]
    simp

end Stock

end Nethuns.Mpsc.Channel
