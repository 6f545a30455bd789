import Nethuns.Lib.Run
import Nethuns.Mpsc.Contents

/-!
# The ledger of a channel

Every interleaving of the operations of the handles and of the consumer is a run of `step`.
Beside the channel the state keeps the books: the values pushed, the values popped, and what
was discarded, each discard with the channel and the action that caused it. The main result
balances the books after every run, and says that values are discarded in three ways only.

A `sync` that finds a block for a cache whose length is not a multiple of 16 crashes the program,
since its vector store is not aligned; here it goes on as if it were. So there are runs here that
the program does not have, and what is shown of all of them is true of its own.
-/

namespace Nethuns.Mpsc

open Nethuns.Lib

/-- An operation of a handle, or of the consumer. -/
inductive Action
  | push (handle : ℕ) (site : Site) (value : ℕ)
  | flush (handle : ℕ) (site : Site)
  | clone (handle : ℕ)
  | drop (handle : ℕ) (site : Site)
  | pop
  | sync
deriving DecidableEq

/-- A discard, with the channel before the action that caused it. -/
structure Loss where
  before : Channel
  action : Action
  discard : Discard
deriving DecidableEq

/-- A channel with its books. -/
structure Ledger where
  channel : Channel
  /-- The values pushed so far. -/
  pushed : List ℕ
  /-- The values returned by `pop` so far. -/
  popped : List ℕ
  /-- What was thrown away so far. -/
  losses : List Loss
  /-- The actions performed so far. -/
  history : List Action
deriving DecidableEq

namespace Ledger

/-- The books of a new channel. -/
def start (size : ℕ) : Ledger := ⟨Mpsc.channel size, [], [], [], []⟩

/-- Enters the outcome of an action in the books. -/
def enter (ledger : Ledger) (action : Action) (next : Channel) (pushed popped : List ℕ)
    (discards : List Discard) : Ledger where
  channel := next
  pushed := ledger.pushed ++ pushed
  popped := ledger.popped ++ popped
  losses := ledger.losses ++ discards.map fun discard => ⟨ledger.channel, action, discard⟩
  history := ledger.history ++ [action]

/-- Performs one action and keeps the books. -/
def step (ledger : Ledger) (action : Action) : Option Ledger :=
  match action with
  | .push handle site value =>
      (ledger.channel.push handle site value).map fun (next, discards) =>
        ledger.enter action next [value] [] discards
  | .flush handle site =>
      (ledger.channel.flush handle site).map fun (next, discards) =>
        ledger.enter action next [] [] discards
  | .clone handle =>
      (ledger.channel.clone handle).map fun next => ledger.enter action next [] [] []
  | .drop handle site =>
      (ledger.channel.drop handle site).map fun (next, discards) =>
        ledger.enter action next [] [] discards
  | .pop =>
      some (ledger.enter action ledger.channel.pop.2 [] ledger.channel.pop.1.toList [])
  | .sync => some (ledger.enter action ledger.channel.sync [] [] [])

/-- The values of all the discards so far. -/
def lostValues (ledger : Ledger) : Multiset ℕ :=
  discardedValues (ledger.losses.map Loss.discard)

/-- The books balance: what was pushed was popped, is still inside, or was discarded. -/
def Balanced (ledger : Ledger) : Prop :=
  (ledger.pushed : Multiset ℕ) =
    ↑ledger.popped + ledger.channel.contents + ledger.lostValues

end Ledger

/-- The queue of a thread holds as many blocks as it can; a thread without a queue gets one
that starts empty. -/
def Channel.QueueFull (channel : Channel) (thread : ℕ) : Prop :=
  match channel.perThread.lookup thread with
  | none => channel.singleSpscLen = 0
  | some id =>
      ∃ spsc ∈ channel.registry.elems, spsc.id = id ∧ spsc.queue.length = channel.singleSpscLen

/-- The handle is the last one. -/
def Channel.LastHandle (channel : Channel) (handle : ℕ) : Prop :=
  ∀ other batch, channel.batch? other = some batch → other = handle

/-- The action flushes the batch of the handle on the given site. -/
def Action.Flushes (action : Action) (handle : ℕ) (site : Site) : Prop :=
  action = .flush handle site ∨ action = .drop handle site

/-- The three ways of losing values: a batch of fewer than 16 values at an explicit flush or at
a drop, a full batch offered to a full queue, a block still queued when the last handle is
dropped. -/
inductive Loss.Justified : Loss → Prop
  | shortBatch {before : Channel} {action : Action} {handle : ℕ} {site : Site}
      {batch : ArrayVec ℕ 16} (flushes : action.Flushes handle site)
      (held : before.batch? handle = some batch) (short : batch.elems.length < 16) :
      Justified ⟨before, action, .shortBatch batch.elems⟩
  | refused {before : Channel} {action : Action} {handle : ℕ} {site : Site}
      {batch : ArrayVec ℕ 16} {block : Simd}
      (flushes : action.Flushes handle site ∨ ∃ value, action = .push handle site value)
      (held : before.batch? handle = some batch) (same : block.lanes = batch.elems)
      (full : before.QueueFull site.thread) : Justified ⟨before, action, .refused block⟩
  | orphaned {before middle : Channel} {handle : ℕ} {site : Site} {discards : List Discard}
      {spsc : Spsc} {block : Simd} (flushed : before.flush handle site = some (middle, discards))
      (last : before.LastHandle handle) (registered : spsc ∈ middle.registry.elems)
      (queued : block ∈ spsc.queue) :
      Justified ⟨before, .drop handle site, .orphaned block⟩

namespace Channel

theorem queueFull_of_slot {channel middle : Channel} {site : Site} {spsc : Spsc}
    (wellFormed : channel.WellFormed) (slotted : channel.slot site = some (middle, spsc.id))
    (registered : spsc ∈ middle.registry.elems)
    (no_room : middle.singleSpscLen - spsc.queue.length = 0) :
    channel.QueueFull site.thread := by
  rw [slot_singleSpscLen slotted] at no_room
  unfold QueueFull
  rcases slot_cases slotted with ⟨rfl, present⟩ | ⟨address, fresh, entries, -⟩
  · rw [present]
    have := wellFormed.queue_le spsc registered
    exact ⟨spsc, registered, rfl, by omega⟩
  · -- The slot was created by this flush, so its queue is the empty one just registered.
    have created : spsc.queue = [] := by
      rw [entries, List.mem_append, List.mem_singleton] at registered
      rcases registered with old | rfl
      · exact absurd (address ▸ List.mem_map_of_mem old) fresh
      · rfl
    have absent : channel.perThread.lookup site.thread = none := by
      by_contra present
      rcases Option.ne_none_iff_exists'.mp present with ⟨other, found⟩
      simp only [slot, found, Option.some.injEq, Prod.mk.injEq] at slotted
      rcases slotted with ⟨rfl, -⟩
      have := congrArg List.length entries
      simp at this
    rw [absent]
    simpa [created] using no_room

/-- A flush discards a batch that is not full, or the block that the queue refuses. -/
theorem flush_discards {channel next : Channel} {handle : ℕ} {site : Site}
    {discards : List Discard} (wellFormed : channel.WellFormed)
    (flushed : channel.flush handle site = some (next, discards)) :
    ∃ batch, channel.batch? handle = some batch ∧ ∀ discard ∈ discards,
      (discard = .shortBatch batch.elems ∧ batch.elems.length < 16 ∧ batch.elems ≠ []) ∨
        ∃ block : Simd, discard = .refused block ∧ block.lanes = batch.elems ∧
          batch.elems.length = 16 ∧ channel.QueueFull site.thread := by
  rcases flush_cases flushed with
    ⟨batch, held, ⟨-, -, rfl⟩ | ⟨nonempty, middle, id, slotted, -, rfl⟩⟩
  · exact ⟨batch, held, by simp⟩
  refine ⟨batch, held, ?_⟩
  intro discard member
  rcases slot_registered wellFormed slotted with ⟨spsc, registered, rfl⟩
  rw [refused_of_mem (slot_wellFormed wellFormed slotted) registered] at member
  rcases Nat.lt_or_ge batch.elems.length 16 with short | long
  · left
    simp only [toSimd_short short, Spsc.refused, List.drop_nil, List.map_nil, List.length_nil,
      Nat.mul_zero, List.drop_zero, nonempty, if_false, List.nil_append,
      List.mem_singleton] at member
    exact ⟨member, short, nonempty⟩
  · right
    have whole : batch.elems.length = 16 := le_antisymm batch.length_le long
    rcases toSimd_full whole with ⟨block, lanes, blocks⟩
    have nothing_left : batch.elems.drop 16 = [] := List.drop_eq_nil_of_le whole.le
    simp only [blocks, List.length_singleton, Nat.mul_one, nothing_left, if_true,
      List.append_nil, List.mem_map, Spsc.refused] at member
    rcases member with ⟨dropped, dropped_mem, rfl⟩
    have no_room : middle.singleSpscLen - spsc.queue.length = 0 := by
      by_contra room
      rw [List.drop_eq_nil_of_le (by simp only [List.length_singleton]; omega)] at dropped_mem
      simp at dropped_mem
    rw [no_room, List.drop_zero, List.mem_singleton] at dropped_mem
    exact ⟨dropped, rfl, dropped_mem ▸ lanes, whole,
      queueFull_of_slot wellFormed slotted registered no_room⟩

/-- A push flushes a full batch only, so it loses at most the block that the queue refuses. -/
theorem push_discards {channel next : Channel} {handle value : ℕ} {site : Site}
    {discards : List Discard} (wellFormed : channel.WellFormed)
    (pushed : channel.push handle site value = some (next, discards)) :
    ∃ batch, channel.batch? handle = some batch ∧ ∀ discard ∈ discards,
      ∃ block : Simd, discard = .refused block ∧ block.lanes = batch.elems ∧
        channel.QueueFull site.thread := by
  rcases push_cases pushed with ⟨batch, held, ⟨-, rfl, -⟩ | ⟨full, middle, flushed, -⟩⟩
  · exact ⟨batch, held, by simp⟩
  · refine ⟨batch, held, ?_⟩
    intro discard discard_mem
    rcases flush_discards wellFormed flushed with ⟨flushedBatch, flushed_held, ways⟩
    rw [held, Option.some.injEq] at flushed_held
    subst flushedBatch
    rcases ways discard discard_mem with ⟨-, short, -⟩ | ⟨block, rfl, same, -, queueFull⟩
    · omega
    · exact ⟨block, rfl, same, queueFull⟩

/-- A drop loses what its flush loses, and the queued blocks with the last handle. -/
theorem drop_discards {channel next : Channel} {handle : ℕ} {site : Site}
    {discards : List Discard} (wellFormed : channel.WellFormed)
    (dropped : channel.drop handle site = some (next, discards)) :
    ∃ batch, channel.batch? handle = some batch ∧ ∀ discard ∈ discards,
      (discard = .shortBatch batch.elems ∧ batch.elems.length < 16 ∧ batch.elems ≠ []) ∨
        (∃ block, discard = .refused block) ∨
        ∃ block, discard = .orphaned block ∧ next.alive = false := by
  rcases drop_cases wellFormed dropped with ⟨middle, lost, flushed, cases⟩
  rcases flush_discards wellFormed flushed with ⟨batch, held, ways⟩
  refine ⟨batch, held, ?_⟩
  have of_flush : ∀ discard ∈ lost,
      (discard = .shortBatch batch.elems ∧ batch.elems.length < 16 ∧ batch.elems ≠ []) ∨
        ∃ block, discard = .refused block := by
    intro discard discard_mem
    rcases ways discard discard_mem with short | ⟨block, refused, -⟩
    · exact Or.inl short
    · exact Or.inr ⟨block, refused⟩
  intro discard discard_mem
  rcases cases with ⟨-, -, rfl⟩ | ⟨nobody, rfl, rfl⟩
  · exact (of_flush discard discard_mem).imp_right Or.inl
  · rcases List.mem_append.mp discard_mem with flush_mem | orphan_mem
    · exact (of_flush discard flush_mem).imp_right Or.inl
    · simp only [List.mem_flatMap, List.mem_map] at orphan_mem
      rcases orphan_mem with ⟨spsc, -, block, -, rfl⟩
      exact Or.inr (Or.inr ⟨block, rfl, nobody⟩)

theorem lastHandle_of_drop {channel middle : Channel} {handle : ℕ} {site : Site}
    {discards : List Discard} (flushed : channel.flush handle site = some (middle, discards))
    (nobody : { middle with producers := middle.producers.set handle none }.alive = false) :
    channel.LastHandle handle := by
  intro other batch held
  by_contra different
  have held_after : (middle.producers.set handle none)[other]? = some (some batch) := by
    rw [List.getElem?_set_ne (Ne.symm different), flush_producers flushed,
      List.getElem?_set_ne (Ne.symm different)]
    exact batch?_eq_some.mp held
  have absent := List.any_eq_false.mp nobody (some batch) (List.mem_of_getElem? held_after)
  simp at absent

end Channel

namespace Ledger

variable {ledger next : Ledger} {action : Action}

/-- The channel is well formed, the books balance, and every loss is accounted for. -/
structure Sound (ledger : Ledger) : Prop where
  wellFormed : ledger.channel.WellFormed
  balanced : ledger.Balanced
  justified : ∀ loss ∈ ledger.losses, loss.Justified

theorem start_sound (size : ℕ) : (start size).Sound := by
  refine ⟨Channel.channel_wellFormed size, ?_, ?_⟩
  · simp [Balanced, start, lostValues]
  · simp [start]

theorem enter_sound {channel : Channel} {pushed popped : List ℕ} {discards : List Discard}
    (sound : ledger.Sound) (wellFormed : channel.WellFormed)
    (moved : channel.contents + ↑popped + discardedValues discards =
      ledger.channel.contents + ↑pushed)
    (justified : ∀ discard ∈ discards, Loss.Justified ⟨ledger.channel, action, discard⟩) :
    (ledger.enter action channel pushed popped discards).Sound := by
  refine ⟨wellFormed, ?_, ?_⟩
  · have balanced := sound.balanced
    simp only [Balanced, lostValues, enter, List.map_append, List.map_map, Function.comp_def,
      List.map_id', discardedValues_append, ← Multiset.coe_add] at balanced ⊢
    rw [balanced]
    calc _ = ↑ledger.popped + discardedValues (ledger.losses.map Loss.discard) +
            (ledger.channel.contents + ↑pushed) := by abel
      _ = _ := by
          rw [← moved]
          abel
  · intro loss loss_mem
    simp only [enter, List.mem_append, List.mem_map] at loss_mem
    rcases loss_mem with old | ⟨discard, discard_mem, rfl⟩
    · exact sound.justified loss old
    · exact justified discard discard_mem

theorem justified_of_flush {channel : Channel} {handle : ℕ} {site : Site}
    {discards : List Discard} {discard : Discard} (sound : ledger.Sound)
    (flushes : action.Flushes handle site)
    (flushed : ledger.channel.flush handle site = some (channel, discards))
    (discard_mem : discard ∈ discards) : Loss.Justified ⟨ledger.channel, action, discard⟩ := by
  rcases Channel.flush_discards sound.wellFormed flushed with ⟨batch, held, ways⟩
  rcases ways discard discard_mem with ⟨rfl, short, -⟩ | ⟨block, rfl, same, -, queueFull⟩
  · exact .shortBatch flushes held short
  · exact .refused (Or.inl flushes) held same queueFull

theorem justified_of_drop {channel : Channel} {handle : ℕ} {site : Site}
    {discards : List Discard} {discard : Discard} (sound : ledger.Sound)
    (dropped : ledger.channel.drop handle site = some (channel, discards))
    (discard_mem : discard ∈ discards) :
    Loss.Justified ⟨ledger.channel, .drop handle site, discard⟩ := by
  rcases Channel.drop_cases sound.wellFormed dropped with
    ⟨middle, lost, flushed, ⟨-, -, rfl⟩ | ⟨nobody, -, rfl⟩⟩
  · exact justified_of_flush sound (Or.inr rfl) flushed discard_mem
  · rcases List.mem_append.mp discard_mem with flush_mem | orphan_mem
    · exact justified_of_flush sound (Or.inr rfl) flushed flush_mem
    · simp only [List.mem_flatMap, List.mem_map] at orphan_mem
      rcases orphan_mem with ⟨spsc, registered, block, queued, rfl⟩
      exact .orphaned flushed (Channel.lastHandle_of_drop flushed nobody) registered queued

theorem step_sound (sound : ledger.Sound) (performed : ledger.step action = some next) :
    next.Sound := by
  have wellFormed := sound.wellFormed
  cases action with
  | push handle site value =>
      simp only [step, Option.map_eq_some_iff] at performed
      rcases performed with ⟨⟨channel, discards⟩, pushed, rfl⟩
      apply enter_sound sound (Channel.push_wellFormed wellFormed pushed)
      · simpa using Channel.push_contents wellFormed pushed
      · intro discard discard_mem
        rcases Channel.push_discards wellFormed pushed with ⟨batch, held, ways⟩
        rcases ways discard discard_mem with ⟨block, rfl, same, queueFull⟩
        exact .refused (Or.inr ⟨value, rfl⟩) held same queueFull
  | flush handle site =>
      simp only [step, Option.map_eq_some_iff] at performed
      rcases performed with ⟨⟨channel, discards⟩, flushed, rfl⟩
      apply enter_sound sound (Channel.flush_wellFormed wellFormed flushed)
      · simpa using Channel.flush_contents wellFormed flushed
      · intro discard discard_mem
        exact justified_of_flush sound (Or.inl rfl) flushed discard_mem
  | clone handle =>
      simp only [step, Option.map_eq_some_iff] at performed
      rcases performed with ⟨channel, cloned, rfl⟩
      apply enter_sound sound (Channel.clone_wellFormed wellFormed cloned)
      · simpa using Channel.clone_contents cloned
      · simp
  | drop handle site =>
      simp only [step, Option.map_eq_some_iff] at performed
      rcases performed with ⟨⟨channel, discards⟩, dropped, rfl⟩
      apply enter_sound sound (Channel.drop_wellFormed wellFormed dropped)
      · simpa using Channel.drop_contents wellFormed dropped
      · intro discard discard_mem
        exact justified_of_drop sound dropped discard_mem
  | pop =>
      simp only [step, Option.some.injEq] at performed
      subst next
      apply enter_sound sound (Channel.pop_wellFormed wellFormed)
      · simpa [Channel.poppedValues] using Channel.pop_contents ledger.channel
      · simp
  | sync =>
      simp only [step, Option.some.injEq] at performed
      subst next
      apply enter_sound sound (Channel.sync_wellFormed wellFormed)
      · simpa using Channel.sync_contents ledger.channel
      · simp

end Ledger

end Nethuns.Mpsc
