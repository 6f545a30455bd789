import Nethuns.Mpsc.Capacity

/-!
# A channel that never overflows

`Producer::flush` ignores the result of `enqueue_many`: what the queue of the thread refuses is
lost, 16 values at a time. A pool of `n` buffers has at most `n` values inside the channel, and the
queue of each thread has room for `n` blocks. A full batch that is about to be flushed is itself
inside, so the other values cannot fill the queue, whichever handles and threads they came from.
-/

namespace Nethuns.Mpsc

open Nethuns.Lib

/-- The result of `enqueue_many`. -/
def Spsc.accepted (capacity : ℕ) (blocks : List Simd) (spsc : Spsc) : ℕ :=
  (blocks.take (capacity - spsc.queue.length)).length

/-- The result counts the blocks by which the queue grows, and the others are refused. -/
theorem Spsc.accepted_spec (capacity : ℕ) (blocks : List Simd) (spsc : Spsc) :
    (spsc.enqueueMany capacity blocks).queue.length =
        spsc.queue.length + spsc.accepted capacity blocks ∧
      spsc.accepted capacity blocks + (spsc.refused capacity blocks).length = blocks.length := by
  constructor
  · rw [enqueueMany, List.length_append, accepted]
  · rw [accepted, refused, ← List.length_append, List.take_append_drop]

namespace Channel

def accepted (channel : Channel) (id : ℕ) (blocks : List Simd) : ℕ :=
  match channel.registry.elems.find? fun spsc => spsc.id = id with
  | some spsc => spsc.accepted channel.singleSpscLen blocks
  | none => 0

/-- The blocks that a flush hands to `enqueue_many`, and the result that it ignores. -/
def offer (channel : Channel) (handle : ℕ) (site : Site) : Option (List Simd × ℕ) :=
  (channel.batch? handle).bind fun batch =>
    if batch.isEmpty then
      none
    else
      (channel.slot site).map fun (channel, id) =>
        (toSimd batch.elems, channel.accepted id (toSimd batch.elems))

variable {channel middle : Channel} {handle id : ℕ} {site : Site} {blocks : List Simd}

theorem accepted_of_mem {spsc : Spsc} (wellFormed : channel.WellFormed)
    (registered : spsc ∈ channel.registry.elems) :
    channel.accepted spsc.id blocks = spsc.accepted channel.singleSpscLen blocks := by
  rw [accepted, find?_of_mem wellFormed registered]

theorem Roomy.offer_accepted {result : ℕ} (roomy : channel.Roomy)
    (wellFormed : channel.WellFormed)
    (offered : channel.offer handle site = some (blocks, result)) : result = blocks.length := by
  simp only [offer, Option.bind_eq_some_iff] at offered
  rcases offered with ⟨batch, held, offered⟩
  split at offered
  · simp at offered
  · simp only [Option.map_eq_some_iff, Prod.mk.injEq] at offered
    rcases offered with ⟨⟨middle, id⟩, slotted, rfl, rfl⟩
    rcases slot_registered wellFormed slotted with ⟨spsc, registered, rfl⟩
    rw [accepted_of_mem (slot_wellFormed wellFormed slotted) registered, Spsc.accepted]
    rcases Nat.lt_or_ge batch.elems.length 16 with short | long
    · rw [toSimd_short short, List.take_nil]
    · have whole : batch.elems.length = 16 := le_antisymm batch.length_le long
      rcases toSimd_full whole with ⟨block, -, blocks_eq⟩
      have room : middle.singleSpscLen - spsc.queue.length ≠ 0 := by
        intro no_room
        exact roomy.not_queueFull held whole
          (queueFull_of_slot wellFormed slotted registered no_room)
      rw [blocks_eq, List.take_of_length_le]
      rw [List.length_singleton]
      omega

end Channel

/-- The flush that an action makes. A push flushes a full batch only. -/
def Action.flushed? (action : Action) (channel : Channel) : Option (ℕ × Site) :=
  match action with
  | .push handle site _ =>
      if (channel.batch? handle).any ArrayVec.isFull then some (handle, site) else none
  | .flush handle site | .drop handle site => some (handle, site)
  | .clone _ | .pop | .sync => none

namespace Ledger

/-- All the blocks that the action offers are accepted. -/
def Accepted (ledger : Ledger) (action : Action) : Prop :=
  ∀ handle site, action.flushed? ledger.channel = some (handle, site) →
    ∀ blocks result, ledger.channel.offer handle site = some (blocks, result) →
      result = blocks.length

/-- The values inside the channel are at most as many as the pool has buffers. -/
def Pooled (size : ℕ) (ledger : Ledger) (_ : Action) : Prop :=
  ledger.channel.contents.card ≤ size

instance (size : ℕ) (ledger : Ledger) (action : Action) : Decidable (ledger.Pooled size action) :=
  inferInstanceAs (Decidable (_ ≤ _))

/-- What a run of a pool of the given size preserves. -/
structure Disciplined (size : ℕ) (ledger : Ledger) : Prop where
  sound : ledger.Sound
  capacity : ledger.channel.singleSpscLen = size
  roomy : ∀ loss ∈ ledger.losses, loss.before.Roomy

variable {size : ℕ} {ledger next final : Ledger} {action : Action}

theorem Disciplined.channel_roomy (disciplined : ledger.Disciplined size)
    (pooled : ledger.Pooled size action) : ledger.channel.Roomy := by
  simp only [Pooled] at pooled
  rw [Channel.Roomy, disciplined.capacity]
  omega

/-- A step enters its outcome in the books, and changes no queue length. -/
theorem step_enters (wellFormed : ledger.channel.WellFormed)
    (performed : ledger.step action = some next) :
    ∃ channel pushed popped discards, next = ledger.enter action channel pushed popped discards ∧
      channel.singleSpscLen = ledger.channel.singleSpscLen := by
  cases action with
  | push handle site value =>
      simp only [step, Option.map_eq_some_iff] at performed
      rcases performed with ⟨⟨channel, discards⟩, pushed, rfl⟩
      exact ⟨_, _, _, _, rfl, Channel.push_singleSpscLen pushed⟩
  | flush handle site =>
      simp only [step, Option.map_eq_some_iff] at performed
      rcases performed with ⟨⟨channel, discards⟩, flushed, rfl⟩
      exact ⟨_, _, _, _, rfl, Channel.flush_singleSpscLen flushed⟩
  | clone handle =>
      simp only [step, Option.map_eq_some_iff] at performed
      rcases performed with ⟨channel, cloned, rfl⟩
      refine ⟨_, _, _, _, rfl, ?_⟩
      rw [Channel.clone_eq_some cloned]
  | drop handle site =>
      simp only [step, Option.map_eq_some_iff] at performed
      rcases performed with ⟨⟨channel, discards⟩, dropped, rfl⟩
      exact ⟨_, _, _, _, rfl, Channel.drop_singleSpscLen wellFormed dropped⟩
  | pop =>
      simp only [step, Option.some.injEq] at performed
      exact ⟨_, _, _, _, performed.symm, Channel.pop_singleSpscLen _⟩
  | sync =>
      simp only [step, Option.some.injEq] at performed
      exact ⟨_, _, _, _, performed.symm, rfl⟩

theorem Disciplined.step (disciplined : ledger.Disciplined size)
    (pooled : ledger.Pooled size action) (performed : ledger.step action = some next) :
    next.Disciplined size := by
  refine ⟨step_sound disciplined.sound performed, ?_, ?_⟩
  all_goals
    rcases step_enters disciplined.sound.wellFormed performed with
      ⟨channel, pushed, popped, discards, rfl, capacity⟩
  · exact capacity.trans disciplined.capacity
  · intro loss loss_mem
    simp only [enter, List.mem_append, List.mem_map] at loss_mem
    rcases loss_mem with old | ⟨discard, -, rfl⟩
    · exact disciplined.roomy loss old
    · exact disciplined.channel_roomy pooled

theorem Disciplined.not_refused (disciplined : ledger.Disciplined size) {loss : Loss}
    (loss_mem : loss ∈ ledger.losses) (block : Simd) : loss.discard ≠ .refused block := by
  intro refused
  have roomy := disciplined.roomy loss loss_mem
  cases disciplined.sound.justified loss loss_mem with
  | shortBatch | orphaned => simp at refused
  | refused flushes held same full =>
      apply roomy.not_queueFull held _ full
      rw [← same]
      exact Simd.length_lanes _

theorem start_disciplined (size : ℕ) : (start size).Disciplined size := by
  refine ⟨start_sound size, rfl, ?_⟩
  simp [start]

/-- In every run in which at most `n` values are ever inside a channel of size `n`, every block
that is offered to a queue is accepted. -/
theorem pool_never_overflows {actions : List Action}
    (pooled : RunMeets step (Pooled size) (start size) actions) :
    RunMeets step Accepted (start size) actions ∧
      ∀ final, run step (start size) actions = some final →
        ∀ loss ∈ final.losses, ∀ block, loss.discard ≠ .refused block := by
  constructor
  · apply RunMeets.imp (Disciplined size) _ Disciplined.step (start_disciplined size) pooled
    intro ledger action disciplined pooled handle site _ blocks result offered
    exact (disciplined.channel_roomy pooled).offer_accepted disciplined.sound.wellFormed offered
  · intro final performed loss loss_mem block
    exact (run_invariant (Disciplined size) Disciplined.step (start_disciplined size) pooled
      performed).not_refused loss_mem block

/-- A pool of 16 buffers, all of which are pushed by one handle and flushed by another thread. -/
def poolOfSixteen : List Action :=
  (List.range 16).map (.push 0 ⟨0, 7⟩) ++ [.flush 0 ⟨1, 8⟩, .pop, .push 0 ⟨0, 7⟩ 15]

theorem pool_never_overflows_sixteen :
    RunMeets step (Pooled 16) (start 16) poolOfSixteen ∧
      RunMeets step Accepted (start 16) poolOfSixteen := by
  have pooled : RunMeets step (Pooled 16) (start 16) poolOfSixteen := by decide +kernel
  exact ⟨pooled, (pool_never_overflows pooled).1⟩

end Ledger

end Nethuns.Mpsc
