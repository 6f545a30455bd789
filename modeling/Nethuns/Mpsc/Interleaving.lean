import Nethuns.Mpsc.Registry

/-!
# The values of a channel, between the steps of the calls

The books of the channel were kept call by call. Here they are kept step by step, while any number
of threads are inside `flush` and `drop` and the consumer goes on popping, also from the ring
buffers that the last drop has not unregistered yet. They balance in every state of every
interleaving. A batch is lost only to a ring buffer that is full at the moment it is offered, or by
its own shortness. A queued block is lost only when its ring buffer is unregistered, and then no
handle is alive.

A direct `sync` on a cache whose length is not a multiple of 16 crashes the program at its first
store; here it is a step like any other, which only adds interleavings.
-/

namespace Nethuns.Mpsc

open Nethuns.Lib

namespace Machine

/-- What a step throws away: the part of a batch that its ring buffer does not take, or the blocks
of a ring buffer that is unregistered. -/
def discards (machine : Machine) : CallAction → List Discard
  | .advance position =>
      match machine.calls[position]? with
      | some ⟨_, handle, _, .slotted id⟩ =>
          match machine.channel.batch? handle with
          | some batch =>
              let blocks := toSimd batch.elems
              let left := batch.elems.drop (16 * blocks.length)
              (machine.channel.refused id blocks).map .refused ++
                if left = [] then [] else [.shortBatch left]
          | none => []
      | _ => []
  | .dropSlot position pick =>
      match machine.calls[position]? with
      | some ⟨_, _, _, .tearing slots⟩ =>
          match slots[pick]? with
          | some (_, id) =>
              (machine.channel.registry.elems.filter fun spsc => spsc.id = id).flatMap fun spsc =>
                spsc.queue.map .orphaned
          | none => []
      | _ => []
  | .push _ _ | .clone _ | .enter _ _ _ | .sync | .pop => []

/-- What the channel is besides, at every moment: no ring buffer is overfull, a flush works on a
slot that its thread has, a flush that is done leaves the batch empty, and slots are torn down only
when every handle is gone. -/
structure Settled (machine : Machine) : Prop where
  consistent : machine.Consistent
  queue_le : ∀ spsc ∈ machine.channel.registry.elems,
    spsc.queue.length ≤ machine.channel.singleSpscLen
  slotted : ∀ call ∈ machine.calls, ∀ id, call.stage = .slotted id →
    id ∈ machine.channel.perThread.map Prod.snd
  emptied : ∀ call ∈ machine.calls, call.stage = .flushed →
    machine.channel.batch? call.handle = some .new
  torn : ∀ call ∈ machine.calls, call.stage.holdsHandle = false → machine.channel.alive = false

end Machine

/-- A discard, with the machine before the step that caused it. -/
structure StepLoss where
  before : Machine
  action : CallAction
  discard : Discard
deriving DecidableEq

/-- A machine with its books. -/
structure StepLedger where
  machine : Machine
  pushed : List ℕ
  popped : List ℕ
  losses : List StepLoss
deriving DecidableEq

namespace StepLedger

def start (size : ℕ) : StepLedger := ⟨.start size, [], [], []⟩

/-- The values that a step takes in. -/
def entering : CallAction → List ℕ
  | .push _ value => [value]
  | .clone _ | .enter _ _ _ | .advance _ | .dropSlot _ _ | .sync | .pop => []

/-- The values that a step hands out. -/
def leaving (machine : Machine) : CallAction → List ℕ
  | .pop => machine.channel.pop.1.toList
  | .push _ _ | .clone _ | .enter _ _ _ | .advance _ | .dropSlot _ _ | .sync => []

def step (ledger : StepLedger) (action : CallAction) : Option StepLedger :=
  (ledger.machine.step action).map fun next =>
    { machine := next
      pushed := ledger.pushed ++ entering action
      popped := ledger.popped ++ leaving ledger.machine action
      losses := ledger.losses ++
        (ledger.machine.discards action).map fun discard => ⟨ledger.machine, action, discard⟩ }

def lostValues (ledger : StepLedger) : Multiset ℕ :=
  discardedValues (ledger.losses.map StepLoss.discard)

def Balanced (ledger : StepLedger) : Prop :=
  (ledger.pushed : Multiset ℕ) =
    ↑ledger.popped + ledger.machine.channel.contents + ledger.lostValues

end StepLedger

/-- The ways of losing values, each with what was the case at that step. -/
inductive StepLoss.Justified : StepLoss → Prop
  | shortBatch {before : Machine} {position : ℕ} {call : Call} {id : ℕ} {batch : ArrayVec ℕ 16}
      (found : before.calls[position]? = some call) (stage : call.stage = .slotted id)
      (held : before.channel.batch? call.handle = some batch) (short : batch.elems.length < 16) :
      Justified ⟨before, .advance position, .shortBatch batch.elems⟩
  | refused {before : Machine} {position : ℕ} {call : Call} {batch : ArrayVec ℕ 16} {spsc : Spsc}
      {block : Simd} (found : before.calls[position]? = some call)
      (stage : call.stage = .slotted spsc.id)
      (held : before.channel.batch? call.handle = some batch) (same : block.lanes = batch.elems)
      (registered : spsc ∈ before.channel.registry.elems)
      (full : spsc.queue.length = before.channel.singleSpscLen) :
      Justified ⟨before, .advance position, .refused block⟩
  | orphaned {before : Machine} {position pick : ℕ} {call : Call} {slots : List (ℕ × ℕ)}
      {thread : ℕ} {spsc : Spsc} {block : Simd} (found : before.calls[position]? = some call)
      (stage : call.stage = .tearing slots) (picked : slots[pick]? = some (thread, spsc.id))
      (registered : spsc ∈ before.channel.registry.elems) (queued : block ∈ spsc.queue)
      (nobody : before.channel.alive = false) :
      Justified ⟨before, .dropSlot position pick, .orphaned block⟩

namespace Machine

variable {machine next : Machine} {action : CallAction} {position : ℕ} {call : Call}

/-! ## The invariant -/

theorem start_settled (size : ℕ) : (start size).Settled := by
  refine ⟨start_consistent size, ?_, ?_, ?_, ?_⟩ <;> simp [start, Mpsc.channel]

/-- Where a handle is alive, no slots are being torn down. -/
theorem Settled.dead_of_live {handle : ℕ} {alive : Bool} (settled : machine.Settled)
    (live : (machine.channel.batch? handle).isSome = true) :
    ∀ call ∈ machine.calls, call.stage.holdsHandle = false → alive = false := by
  intro call member gone
  have dead := settled.torn call member gone
  rw [Channel.batch?_eq_none_of_not_alive dead] at live
  contradiction

theorem Settled.held (settled : machine.Settled) (found : machine.calls[position]? = some call)
    (holds : call.stage.holdsHandle = true) :
    (machine.channel.batch? call.handle).isSome = true :=
  settled.consistent.held call (List.mem_of_getElem? found) holds

/-- A step on the channel that moves no slot, leaves the batches of the calls, and revives no
handle. -/
theorem Settled.of_channel {channel : Channel} (settled : machine.Settled)
    (consistent : Consistent ⟨channel, machine.calls⟩)
    (queue_le : ∀ spsc ∈ channel.registry.elems, spsc.queue.length ≤ channel.singleSpscLen)
    (slots : channel.perThread = machine.channel.perThread)
    (batches : ∀ call ∈ machine.calls, call.stage = .flushed →
      machine.channel.batch? call.handle = some .new → channel.batch? call.handle = some .new)
    (dead : ∀ call ∈ machine.calls, call.stage.holdsHandle = false → channel.alive = false) :
    Settled ⟨channel, machine.calls⟩ := by
  refine ⟨consistent, queue_le, ?_, ?_, dead⟩
  · rw [slots]
    exact settled.slotted
  · intro call member stage
    exact batches call member stage (settled.emptied call member stage)

/-- A call goes on. -/
theorem Settled.goto {channel : Channel} {stage : Stage} (settled : machine.Settled)
    (consistent : (machine.goto channel position call stage).Consistent)
    (queue_le : ∀ spsc ∈ channel.registry.elems, spsc.queue.length ≤ channel.singleSpscLen)
    (slots : machine.channel.perThread ⊆ channel.perThread)
    (batches : ∀ place other, machine.calls[place]? = some other → place ≠ position →
      channel.batch? other.handle = machine.channel.batch? other.handle)
    (own : ∀ id, stage = .slotted id → id ∈ channel.perThread.map Prod.snd)
    (empty : stage = .flushed → channel.batch? call.handle = some .new)
    (dead : ∀ other ∈ machine.calls, other.stage.holdsHandle = false → channel.alive = false)
    (torn : stage.holdsHandle = false → channel.alive = false) :
    (machine.goto channel position call stage).Settled := by
  refine ⟨consistent, queue_le, ?_, ?_, ?_⟩
  · intro other member id at_slot
    rcases List.mem_or_eq_of_mem_set member with old | rfl
    · exact List.map_subset Prod.snd slots (settled.slotted other old id at_slot)
    · exact own id at_slot
  · intro other member done
    rcases List.mem_iff_getElem?.mp member with ⟨place, found⟩
    simp only [Machine.goto, List.getElem?_set] at found
    split at found
    · split at found
      · simp only [Option.some.injEq] at found
        subst other
        exact empty done
      · simp at found
    · rename_i apart
      have kept := batches place other found (Ne.symm apart)
      exact kept.trans (settled.emptied other (List.mem_of_getElem? found) done)
  · intro other member gone
    rcases List.mem_or_eq_of_mem_set member with old | rfl
    · exact dead other old gone
    · exact torn gone

/-- A call returns. -/
theorem Settled.finish {channel : Channel} (settled : machine.Settled)
    (consistent : (machine.finish channel position).Consistent)
    (queue_le : ∀ spsc ∈ channel.registry.elems, spsc.queue.length ≤ channel.singleSpscLen)
    (slots : channel.perThread = machine.channel.perThread)
    (batches : ∀ place other, machine.calls[place]? = some other → place ≠ position →
      channel.batch? other.handle = machine.channel.batch? other.handle)
    (dead : ∀ other ∈ machine.calls, other.stage.holdsHandle = false → channel.alive = false) :
    (machine.finish channel position).Settled := by
  refine ⟨consistent, queue_le, ?_, ?_, ?_⟩
  · intro other member id at_slot
    rw [Machine.finish, slots]
    exact settled.slotted other (List.mem_of_mem_eraseIdx member) id at_slot
  · intro other member done
    rcases List.mem_eraseIdx_iff_getElem?.mp member with ⟨place, apart, found⟩
    have kept := batches place other found apart
    exact kept.trans (settled.emptied other (List.mem_of_getElem? found) done)
  · intro other member gone
    exact dead other (List.mem_of_mem_eraseIdx member) gone

/-! ## What a step does -/

theorem push_spec {handle value : ℕ} (pushed : machine.push handle value = some next) :
    ∃ old batch, machine.inUse handle = false ∧ machine.channel.batch? handle = some old ∧
      batch.elems = old.elems ++ [value] ∧
      next = { machine with channel := machine.channel.setBatch handle batch } := by
  unfold push at pushed
  split at pushed
  · simp at pushed
  · rename_i free
    simp only [Option.bind_eq_some_iff, Option.map_eq_some_iff] at pushed
    rcases pushed with ⟨old, held, batch, stored, rfl⟩
    exact ⟨old, batch, Bool.eq_false_iff.mpr free, held,
      (ArrayVec.tryPush_eq_some.mp stored).2, rfl⟩

/-- A call begins, or there is nothing to do. -/
theorem enter_spec {handle : ℕ} {site : Site} {dropping : Bool}
    (entered : machine.enter handle site dropping = some next) :
    next = machine ∨ ∃ stage, stage.holdsHandle = true ∧
      (∀ id, stage = .slotted id → id ∈ machine.channel.perThread.map Prod.snd) ∧
      (stage = .flushed → machine.channel.batch? handle = some .new) ∧
      next = ⟨machine.channel, machine.calls ++ [⟨site.thread, handle, dropping, stage⟩]⟩ := by
  unfold enter at entered
  split at entered
  · simp at entered
  · simp only [Option.bind_eq_some_iff] at entered
    rcases entered with ⟨batch, held, entered⟩
    split at entered
    · rename_i empty
      split at entered
      · simp only [Option.some.injEq] at entered
        refine Or.inr ⟨.flushed, rfl, by simp, ?_, entered.symm⟩
        intro _
        have same : batch = .new := ArrayVec.ext (batch.isEmpty_iff.mp empty)
        rw [held, same]
      · simp only [Option.some.injEq] at entered
        exact Or.inl entered.symm
    · split at entered
      · rename_i id present
        simp only [Option.some.injEq] at entered
        refine Or.inr ⟨.slotted id, rfl, ?_, by simp, entered.symm⟩
        rintro _ ⟨rfl⟩
        rcases List.lookup_eq_some_iff.mp present with ⟨before, after, split, -⟩
        rw [split]
        simp
      · split at entered
        · simp at entered
        · simp only [Option.some.injEq] at entered
          refine Or.inr ⟨.created site.address, rfl, by simp, by simp, entered.symm⟩

theorem advance_slotted {id : ℕ} (found : machine.calls[position]? = some call)
    (stage : call.stage = .slotted id) (advanced : machine.advance position = some (.ok next)) :
    ∃ batch, machine.channel.batch? call.handle = some batch ∧
      next.channel =
        (machine.channel.enqueueMany id (toSimd batch.elems)).setBatch call.handle .new := by
  simp only [advance, found, Option.bind_some, stage, Option.map_eq_some_iff, Except.ok.injEq]
    at advanced
  rcases advanced with ⟨batch, held, rfl⟩
  refine ⟨batch, held, ?_⟩
  split <;> rfl

/-- The drop of the last handle is the one that goes on with the slots. -/
theorem advance_flushed (found : machine.calls[position]? = some call)
    (stage : call.stage = .flushed) (advanced : machine.advance position = some (.ok next))
    (goes_on : next.calls.length = machine.calls.length) : next.channel.alive = false := by
  simp only [advance, found, Option.bind_some, stage, Option.some.injEq, Except.ok.injEq]
    at advanced
  subst next
  split at goes_on
  · have inside := (List.getElem?_eq_some_iff.mp found).1
    simp only [Machine.finish, List.length_eraseIdx, inside, if_true] at goes_on
    omega
  · rename_i dead
    rw [if_neg dead]
    exact Bool.eq_false_iff.mpr dead

theorem enqueueMany_queue_le {channel : Channel} {id : ℕ} {blocks : List Simd}
    (queue_le : ∀ spsc ∈ channel.registry.elems, spsc.queue.length ≤ channel.singleSpscLen) :
    ∀ spsc ∈ (channel.enqueueMany id blocks).registry.elems,
      spsc.queue.length ≤ channel.singleSpscLen := by
  intro spsc member
  simp only [Channel.enqueueMany, List.mem_map] at member
  rcases member with ⟨old, old_mem, rfl⟩
  have old_le := queue_le old old_mem
  split
  · simp only [Spsc.enqueueMany, List.length_append, List.length_take]
    omega
  · exact old_le

theorem Settled.batch?_of_apart {producer : Option (ArrayVec ℕ 16)} {channel : Channel}
    (settled : machine.Settled) (found : machine.calls[position]? = some call)
    (producers : channel.producers = machine.channel.producers.set call.handle producer) :
    ∀ place other, machine.calls[place]? = some other → place ≠ position →
      channel.batch? other.handle = machine.channel.batch? other.handle := by
  intro place other found' apart
  have different := settled.consistent.handle_ne found found' apart
  rw [Channel.batch?, producers, List.getElem?_set_ne different.symm]
  rfl

theorem Settled.advance (settled : machine.Settled)
    (advanced : machine.advance position = some (.ok next)) : next.Settled := by
  rcases advanced_of_advance advanced with ⟨call, found, step⟩
  have consistent := settled.consistent.advanced found step
  cases step with
  | @registers id registry stage entries =>
      apply settled.goto consistent _ (List.Subset.refl _) (fun _ _ _ _ => rfl) (by simp)
        (by simp) settled.torn (by simp [Stage.holdsHandle])
      intro spsc member
      rw [entries, List.mem_append, List.mem_singleton] at member
      rcases member with old | rfl
      · exact settled.queue_le spsc old
      · exact Nat.zero_le _
  | @stores id stage =>
      apply settled.goto consistent settled.queue_le (List.subset_append_left _ _)
        (fun _ _ _ _ => rfl) _ (by simp) settled.torn (by simp [Stage.holdsHandle])
      rintro _ ⟨rfl⟩
      simp
  | @flushes id blocks stage dropping =>
      have live := settled.held found (by rw [stage]; rfl)
      rcases Option.isSome_iff_exists.mp live with ⟨batch, held⟩
      apply settled.goto consistent (enqueueMany_queue_le settled.queue_le)
        (List.Subset.refl _) (settled.batch?_of_apart found rfl) (by simp) _
        (settled.dead_of_live live) (by simp [Stage.holdsHandle])
      intro _
      exact Channel.setBatch_batch? held
  | @returns id blocks stage =>
      have live := settled.held found (by rw [stage]; rfl)
      exact settled.finish consistent (enqueueMany_queue_le settled.queue_le) rfl
        (settled.batch?_of_apart found rfl) (settled.dead_of_live live)
  | releases stage =>
      have live := settled.held found (by rw [stage]; rfl)
      exact settled.finish consistent settled.queue_le rfl (settled.batch?_of_apart found rfl)
        (settled.dead_of_live live)
  | tears stage =>
      have dead := advance_flushed found stage advanced (by simp [Machine.goto])
      have no_handle : ∀ other ∈ (machine.goto { machine.channel with
          producers := machine.channel.producers.set call.handle none
          perThread := [] } position call (.tearing machine.channel.perThread)).calls,
          other.stage.holdsHandle = false := by
        intro other member
        by_contra holds
        have live := consistent.held other member (Bool.not_eq_false _ ▸ holds)
        rw [Channel.batch?_eq_none_of_not_alive dead] at live
        contradiction
      refine ⟨consistent, settled.queue_le, ?_, ?_, fun _ _ _ => dead⟩
      · intro other member id at_slot
        have gone := no_handle other member
        simp [at_slot, Stage.holdsHandle] at gone
      · intro other member done
        have gone := no_handle other member
        simp [done, Stage.holdsHandle] at gone
  | ends stage =>
      exact settled.finish consistent settled.queue_le rfl (fun _ _ _ _ => rfl) settled.torn
  | @frees id slots stage =>
      apply settled.goto consistent settled.queue_le (List.Subset.refl _) (fun _ _ _ _ => rfl)
        (by simp) (by simp) settled.torn
      intro _
      exact settled.torn call (List.mem_of_getElem? found) (by rw [stage]; rfl)

theorem Settled.push {handle value : ℕ} (settled : machine.Settled)
    (stepped : machine.step (.push handle value) = some next) : next.Settled := by
  have consistent := step_consistent settled.consistent stepped
  rw [step_eq_some] at stepped
  rcases push_spec (map_ok_eq_some.mp stepped) with ⟨old, batch, free, held, -, rfl⟩
  have live : (machine.channel.batch? handle).isSome = true := by simp [held]
  apply settled.of_channel consistent settled.queue_le rfl _ (settled.dead_of_live live)
  intro call member _ empty
  have different : handle ≠ call.handle := by
    rintro rfl
    have unused := List.any_eq_false.mp free call member
    simp at unused
  rw [Channel.batch?, Channel.setBatch, List.getElem?_set_ne different]
  exact empty

theorem Settled.clone {handle : ℕ} (settled : machine.Settled)
    (stepped : machine.step (.clone handle) = some next) : next.Settled := by
  have consistent := step_consistent settled.consistent stepped
  rw [step_eq_some] at stepped
  have cloned := map_ok_eq_some.mp stepped
  have same := clone_cases cloned
  subst next
  have live : (machine.channel.batch? handle).isSome = true := by
    unfold clone at cloned
    split at cloned
    · simp at cloned
    · simp only [Option.map_eq_some_iff] at cloned
      rcases cloned with ⟨channel, cloned, -⟩
      simp only [Channel.clone, Option.map_eq_some_iff] at cloned
      rcases cloned with ⟨batch, held, -⟩
      rw [held, Option.isSome_some]
  apply settled.of_channel consistent settled.queue_le rfl _ (settled.dead_of_live live)
  intro call _ _ empty
  rwa [Channel.batch?, List.getElem?_append_left (Channel.batch?_lt empty)]

theorem Settled.enter {handle : ℕ} {site : Site} {dropping : Bool} (settled : machine.Settled)
    (stepped : machine.step (.enter handle site dropping) = some next) : next.Settled := by
  have consistent := step_consistent settled.consistent stepped
  rw [step_eq_some] at stepped
  rcases enter_spec (map_ok_eq_some.mp stepped) with
    rfl | ⟨stage, holds, own, empty, rfl⟩
  · exact settled
  · refine ⟨consistent, settled.queue_le, ?_, ?_, ?_⟩
    · intro call member id at_slot
      rcases List.mem_append.mp member with old | new
      · exact settled.slotted call old id at_slot
      · rw [List.mem_singleton] at new
        subst call
        exact own id at_slot
    · intro call member done
      rcases List.mem_append.mp member with old | new
      · exact settled.emptied call old done
      · rw [List.mem_singleton] at new
        subst call
        exact empty done
    · intro call member gone
      rcases List.mem_append.mp member with old | new
      · exact settled.torn call old gone
      · rw [List.mem_singleton] at new
        subst call
        rw [holds] at gone
        contradiction

theorem Settled.dropSlot {position pick : ℕ} (settled : machine.Settled)
    (stepped : machine.step (.dropSlot position pick) = some next) : next.Settled := by
  have consistent := step_consistent settled.consistent stepped
  rw [step_eq_some] at stepped
  rcases dropSlot_cases stepped with ⟨call, slots, slot, found, stage, picked⟩
  rcases settled.consistent.dropSlot_spec found stage picked with
    ⟨before, spsc, after, registry, entries, -, -, rest, performed⟩
  rw [perform, performed, Option.some.injEq, Except.ok.injEq] at stepped
  subst next
  apply settled.goto consistent _ (List.Subset.refl _) (fun _ _ _ _ => rfl) (by simp)
    (by simp) settled.torn
  · intro _
    exact settled.torn call (List.mem_of_getElem? found) (by rw [stage]; rfl)
  · intro other member
    apply settled.queue_le other
    rw [rest, List.mem_append] at member
    rw [entries, List.mem_append, List.mem_cons]
    exact member.imp_right Or.inr

theorem Settled.pop (settled : machine.Settled)
    (stepped : machine.step .pop = some next) : next.Settled := by
  have consistent := step_consistent settled.consistent stepped
  rw [step_eq_some] at stepped
  simp only [perform, Option.some.injEq, Except.ok.injEq] at stepped
  subst next
  apply settled.of_channel consistent
  · intro spsc member
    rw [Channel.pop_singleSpscLen]
    simp only [Channel.pop] at member
    split at member
    · exact Channel.popAll_queue_le _ settled.queue_le spsc member
    · exact settled.queue_le spsc member
  · simp only [Channel.pop]
    split <;> rfl
  · intro call _ _ empty
    rwa [Channel.batch?, Channel.pop_producers]
  · intro call member gone
    rw [Channel.alive, Channel.pop_producers]
    exact settled.torn call member gone

theorem step_settled (settled : machine.Settled) (stepped : machine.step action = some next) :
    next.Settled := by
  cases action with
  | push handle value => exact settled.push stepped
  | clone handle => exact settled.clone stepped
  | enter handle site dropping => exact settled.enter stepped
  | advance position =>
      rw [step_eq_some] at stepped
      exact settled.advance stepped
  | dropSlot position pick => exact settled.dropSlot stepped
  | sync =>
      have consistent := step_consistent settled.consistent stepped
      rw [step_eq_some] at stepped
      simp only [perform, Option.some.injEq, Except.ok.injEq] at stepped
      subst next
      exact settled.of_channel consistent (Channel.popAll_queue_le _ settled.queue_le) rfl
        (fun _ _ _ empty => empty) settled.torn
  | pop => exact settled.pop stepped

/-! ## The books -/

theorem discards_slotted {id : ℕ} {batch : ArrayVec ℕ 16}
    (found : machine.calls[position]? = some call) (stage : call.stage = .slotted id)
    (held : machine.channel.batch? call.handle = some batch) :
    machine.discards (.advance position) =
      (machine.channel.refused id (toSimd batch.elems)).map .refused ++
        if batch.elems.drop (16 * (toSimd batch.elems).length) = [] then []
        else [.shortBatch (batch.elems.drop (16 * (toSimd batch.elems).length))] := by
  rcases call with ⟨thread, handle, dropping, stage'⟩
  simp only at stage held
  subst stage
  simp only [discards, found, held]

theorem discards_of_ne (found : machine.calls[position]? = some call)
    (other : ∀ id, call.stage ≠ .slotted id) : machine.discards (.advance position) = [] := by
  rcases call with ⟨thread, handle, dropping, stage⟩
  cases stage with
  | slotted id => exact absurd rfl (other id)
  | created | registered | flushed | tearing | removed => simp only [discards, found]

theorem Settled.registered {id : ℕ} (settled : machine.Settled)
    (found : machine.calls[position]? = some call) (stage : call.stage = .slotted id) :
    ∃ spsc ∈ machine.channel.registry.elems, spsc.id = id := by
  have stored := settled.slotted call (List.mem_of_getElem? found) id stage
  have inner : id ∈ machine.inners := List.mem_append_left _ stored
  have listed : id ∈ machine.registryIds := by
    rw [← Multiset.mem_coe, settled.consistent.listed]
    exact inner
  exact List.mem_map.mp listed

/-- The channel as it would be if the slots of the threads were those in the registry. Neither the
queues nor the batches depend on the slots. -/
def settledChannel (machine : Machine) : Channel :=
  { machine.channel with
    perThread := machine.channel.registry.elems.map fun spsc => (0, spsc.id) }

theorem Settled.wellFormed (settled : machine.Settled) : machine.settledChannel.WellFormed := by
  refine ⟨?_, settled.consistent.registryIds_nodup, settled.queue_le⟩
  simp [settledChannel]

/-- A batch that a flush offers is queued or discarded. -/
theorem Settled.offer {id : ℕ} {batch : ArrayVec ℕ 16} (settled : machine.Settled)
    (found : machine.calls[position]? = some call) (stage : call.stage = .slotted id)
    (held : machine.channel.batch? call.handle = some batch) :
    ((machine.channel.enqueueMany id (toSimd batch.elems)).setBatch call.handle .new).contents +
        discardedValues (machine.discards (.advance position)) =
      machine.channel.contents := by
  have queued := Channel.enqueueMany_contents (toSimd batch.elems) settled.wellFormed
    (settled.registered found stage)
  have held_after : (machine.channel.enqueueMany id (toSimd batch.elems)).batch? call.handle =
      some batch := held
  have emptied := Channel.setBatch_contents .new held_after
  have whole := congrArg (fun values : List ℕ => (values : Multiset ℕ))
    (Channel.flatten_toSimd_append_drop batch)
  have left : discardedValues (if batch.elems.drop (16 * (toSimd batch.elems).length) = [] then []
      else [.shortBatch (batch.elems.drop (16 * (toSimd batch.elems).length))]) =
      (batch.elems.drop (16 * (toSimd batch.elems).length) : Multiset ℕ) := by
    split
    · rename_i nothing
      rw [nothing]
      rfl
    · simp [discardedValues, Discard.values]
  change (machine.channel.enqueueMany id (toSimd batch.elems)).contents +
      ↑(Simd.flatten (machine.channel.refused id (toSimd batch.elems))) =
    machine.channel.contents + ↑(Simd.flatten (toSimd batch.elems)) at queued
  simp only [← Multiset.coe_add, ArrayVec.new_elems, Multiset.coe_nil, add_zero] at whole emptied
  rw [discards_slotted found stage held, discardedValues_append, discardedValues_refused, left]
  apply add_right_cancel (b := (batch.elems : Multiset ℕ))
  calc _ = (machine.channel.enqueueMany id (toSimd batch.elems)).contents +
          ↑(Simd.flatten (machine.channel.refused id (toSimd batch.elems))) +
          ↑(batch.elems.drop (16 * (toSimd batch.elems).length)) := by
        rw [← emptied]
        abel
    _ = machine.channel.contents + ↑batch.elems := by
        rw [queued, add_assoc, whole]

theorem Settled.advance_balance (settled : machine.Settled)
    (advanced : machine.advance position = some (.ok next)) :
    next.channel.contents + discardedValues (machine.discards (.advance position)) =
      machine.channel.contents := by
  rcases advanced_of_advance advanced with ⟨call, found, step⟩
  by_cases slotted : ∃ id, call.stage = .slotted id
  · rcases slotted with ⟨id, stage⟩
    rcases advance_slotted found stage advanced with ⟨batch, held, same⟩
    rw [same]
    exact settled.offer found stage held
  · rw [discards_of_ne found fun id stage => slotted ⟨id, stage⟩, discardedValues_nil, add_zero]
    have released : call.stage = .flushed →
        ((machine.channel.producers.set call.handle none).flatMap fun producer =>
          producer.elim [] ArrayVec.elems : Multiset ℕ) = ↑machine.channel.batchedValues := by
      intro stage
      have empty := settled.emptied call (List.mem_of_getElem? found) stage
      exact Channel.forget_batchedValues empty
    cases step with
    | @registers id registry stage entries =>
        simp [Machine.goto, Channel.contents, Channel.queuedValues, Channel.batchedValues, entries]
    | flushes stage => exact absurd ⟨_, stage⟩ slotted
    | returns stage => exact absurd ⟨_, stage⟩ slotted
    | releases stage | tears stage =>
        have same := released stage
        simp only [Machine.finish, Machine.goto, Channel.contents, Channel.queuedValues,
          Channel.batchedValues] at same ⊢
        rw [same]
    | stores | ends | frees => rfl

theorem discards_tearing {pick thread id : ℕ} {slots : List (ℕ × ℕ)}
    (found : machine.calls[position]? = some call) (stage : call.stage = .tearing slots)
    (picked : slots[pick]? = some (thread, id)) :
    machine.discards (.dropSlot position pick) =
      (machine.channel.registry.elems.filter fun spsc => spsc.id = id).flatMap fun spsc =>
        spsc.queue.map .orphaned := by
  rcases call with ⟨caller, handle, dropping, stage'⟩
  simp only at stage
  subst stage
  simp only [discards, found, picked]

theorem filter_eq_single {before after : List Spsc} {spsc : Spsc}
    (alone : spsc.id ∉ (before ++ after).map Spsc.id) :
    ((before ++ spsc :: after).filter fun other => other.id = spsc.id) = [spsc] := by
  simp only [List.map_append, List.mem_append, List.mem_map, not_or, not_exists, not_and] at alone
  have none_before : (before.filter fun other => other.id = spsc.id) = [] := by
    apply List.filter_eq_nil_iff.mpr
    intro other member
    simpa using alone.1 other member
  have none_after : (after.filter fun other => other.id = spsc.id) = [] := by
    apply List.filter_eq_nil_iff.mpr
    intro other member
    simpa using alone.2 other member
  rw [List.filter_append, List.filter_cons_of_pos (by simp), none_before, none_after,
    List.nil_append]

theorem Settled.dropSlot_balance {pick : ℕ} (settled : machine.Settled)
    (dropped : machine.dropSlot position pick = some (.ok next)) :
    next.channel.contents + discardedValues (machine.discards (.dropSlot position pick)) =
      machine.channel.contents := by
  rcases dropSlot_cases dropped with ⟨call, slots, ⟨thread, id⟩, found, stage, picked⟩
  rcases settled.consistent.dropSlot_spec found stage picked with
    ⟨before, spsc, after, registry, entries, same, alone, rest, performed⟩
  rw [performed, Option.some.injEq, Except.ok.injEq] at dropped
  subst next
  simp only at same alone
  subst id
  rw [discards_tearing found stage picked, entries, filter_eq_single alone,
    discardedValues_orphaned]
  simp only [Machine.goto, Channel.contents, Channel.queuedValues, Channel.batchedValues, entries,
    rest, List.flatMap_append, List.flatMap_cons, List.flatMap_nil, List.append_nil,
    ← Multiset.coe_add]
  abel

theorem Settled.balance (settled : machine.Settled) (stepped : machine.step action = some next) :
    next.channel.contents + ↑(StepLedger.leaving machine action) +
        discardedValues (machine.discards action) =
      machine.channel.contents + ↑(StepLedger.entering action) := by
  rw [step_eq_some] at stepped
  cases action with
  | push handle value =>
      rcases push_spec (map_ok_eq_some.mp stepped) with ⟨old, batch, -, held, grown, rfl⟩
      have exchanged := Channel.setBatch_contents batch held
      rw [grown, ← Multiset.coe_add] at exchanged
      simp only [StepLedger.leaving, StepLedger.entering, discards, discardedValues_nil,
        Multiset.coe_nil, add_zero]
      apply add_right_cancel (b := (old.elems : Multiset ℕ))
      rw [exchanged]
      abel
  | clone handle =>
      have cloned := map_ok_eq_some.mp stepped
      rw [clone_cases cloned]
      simp [StepLedger.leaving, StepLedger.entering, discards, Channel.contents,
        Channel.queuedValues, Channel.batchedValues]
  | enter handle site dropping =>
      rcases enter_spec (map_ok_eq_some.mp stepped) with rfl | ⟨stage, -, -, -, rfl⟩
      · simp [StepLedger.leaving, StepLedger.entering, discards]
      · simp [StepLedger.leaving, StepLedger.entering, discards]
  | advance position =>
      have balance := settled.advance_balance stepped
      simpa [StepLedger.leaving, StepLedger.entering] using balance
  | dropSlot position pick =>
      have balance := settled.dropSlot_balance stepped
      simpa [StepLedger.leaving, StepLedger.entering] using balance
  | sync =>
      simp only [perform, Option.some.injEq, Except.ok.injEq] at stepped
      subst next
      simpa [StepLedger.leaving, StepLedger.entering, discards] using
        Channel.sync_contents machine.channel
  | pop =>
      simp only [perform, Option.some.injEq, Except.ok.injEq] at stepped
      subst next
      simpa [StepLedger.leaving, StepLedger.entering, discards, Channel.poppedValues] using
        Channel.pop_contents machine.channel

/-- A flush loses its batch to a full ring buffer, or because it is short. -/
theorem Settled.justified_advance {discard : Discard} (settled : machine.Settled)
    (discarded : discard ∈ machine.discards (.advance position))
    (stepped : machine.step (.advance position) = some next) :
    StepLoss.Justified ⟨machine, .advance position, discard⟩ := by
  rw [step_eq_some] at stepped
  rcases advanced_of_advance stepped with ⟨call, found, -⟩
  by_cases slotted : ∃ id, call.stage = .slotted id
  · rcases slotted with ⟨id, stage⟩
    rcases advance_slotted found stage stepped with ⟨batch, held, -⟩
    rw [discards_slotted found stage held, List.mem_append] at discarded
    rcases settled.registered found stage with ⟨spsc, registered, rfl⟩
    rcases Nat.lt_or_ge batch.elems.length 16 with short | long
    · have nothing : machine.channel.refused spsc.id [] = [] := by
        have same := @Channel.refused_of_mem _ [] settled.wellFormed spsc registered
        exact same.trans List.drop_nil
      rw [toSimd_short short, nothing] at discarded
      rcases discarded with refused | left
      · simp at refused
      · simp only [List.length_nil, Nat.mul_zero, List.drop_zero] at left
        split at left
        · simp at left
        · rw [List.mem_singleton] at left
          exact left ▸ .shortBatch found stage held short
    · have whole : batch.elems.length = 16 := le_antisymm batch.length_le long
      rcases toSimd_full whole with ⟨block, lanes, blocks⟩
      have refused : machine.channel.refused spsc.id [block] =
          spsc.refused machine.channel.singleSpscLen [block] :=
        @Channel.refused_of_mem _ [block] settled.wellFormed spsc registered
      rw [blocks, refused, Spsc.refused] at discarded
      rcases discarded with refused | left
      · rcases List.mem_map.mp refused with ⟨lost, lost_mem, rfl⟩
        have no_room : machine.channel.singleSpscLen - spsc.queue.length = 0 := by
          by_contra room
          rw [List.drop_eq_nil_of_le (by simp only [List.length_singleton]; omega)] at lost_mem
          simp at lost_mem
        rw [no_room, List.drop_zero, List.mem_singleton] at lost_mem
        subst lost
        have bound := settled.queue_le spsc registered
        exact .refused found stage held lanes registered (by omega)
      · have nothing_left : batch.elems.drop 16 = [] := List.drop_eq_nil_of_le whole.le
        simp [nothing_left] at left
  · rw [discards_of_ne found fun id stage => slotted ⟨id, stage⟩] at discarded
    simp at discarded

theorem Settled.justified (settled : machine.Settled) (stepped : machine.step action = some next) :
    ∀ discard ∈ machine.discards action, StepLoss.Justified ⟨machine, action, discard⟩ := by
  intro discard discarded
  cases action with
  | advance position => exact settled.justified_advance discarded stepped
  | dropSlot position pick =>
      rw [step_eq_some] at stepped
      rcases dropSlot_cases stepped with ⟨call, slots, ⟨thread, id⟩, found, stage, picked⟩
      have nobody := settled.torn call (List.mem_of_getElem? found) (by rw [stage]; rfl)
      rw [discards_tearing found stage picked] at discarded
      simp only [List.mem_flatMap, List.mem_filter, decide_eq_true_eq, List.mem_map] at discarded
      rcases discarded with ⟨spsc, ⟨registered, rfl⟩, block, queued, rfl⟩
      exact .orphaned found stage picked registered queued nobody
  | push | clone | enter | sync | pop => simp [discards] at discarded

end Machine

namespace StepLedger

variable {ledger next : StepLedger} {action : CallAction}

/-- The machine is settled, the books balance, and every loss is accounted for. -/
structure Sound (ledger : StepLedger) : Prop where
  settled : ledger.machine.Settled
  balanced : ledger.Balanced
  justified : ∀ loss ∈ ledger.losses, loss.Justified

theorem start_sound (size : ℕ) : (start size).Sound := by
  refine ⟨Machine.start_settled size, ?_, ?_⟩
  · simp [Balanced, start, lostValues, Machine.start]
  · simp [start]

theorem step_sound (sound : ledger.Sound) (performed : ledger.step action = some next) :
    next.Sound := by
  simp only [step, Option.map_eq_some_iff] at performed
  rcases performed with ⟨machine, stepped, rfl⟩
  refine ⟨Machine.step_settled sound.settled stepped, ?_, ?_⟩
  · have balance := sound.settled.balance stepped
    have balanced := sound.balanced
    simp only [Balanced, lostValues, List.map_append, List.map_map, Function.comp_def,
      List.map_id', discardedValues_append, ← Multiset.coe_add] at balanced ⊢
    rw [balanced]
    calc _ = ↑ledger.popped + discardedValues (ledger.losses.map StepLoss.discard) +
            (ledger.machine.channel.contents + ↑(entering action)) := by abel
      _ = _ := by
          rw [← balance]
          abel
  · intro loss loss_mem
    rcases List.mem_append.mp loss_mem with old | new
    · exact sound.justified loss old
    · rcases List.mem_map.mp new with ⟨discard, discarded, rfl⟩
      exact sound.settled.justified stepped discard discarded

/-- The books balance in every state of every interleaving of the steps inside the calls, and the
values that are missing were lost in one of three ways: in a short batch that was flushed, in a
block that a full ring buffer refused, or in one that was queued when the last handle went. While a
handle is alive, nothing that was queued is lost. -/
theorem interleavings_balanced {size : ℕ} {actions : List CallAction} {ledger : StepLedger}
    (performed : run step (start size) actions = some ledger) :
    ledger.Balanced ∧ (∀ loss ∈ ledger.losses, loss.Justified) ∧
      ∀ loss ∈ ledger.losses, loss.before.channel.alive = true →
        ∀ block, loss.discard ≠ .orphaned block := by
  have sound := run_invariant_of_step Sound step_sound (start_sound size) performed
  refine ⟨sound.balanced, sound.justified, ?_⟩
  intro loss loss_mem alive block orphaned
  have ways := sound.justified loss loss_mem
  cases ways with
  | shortBatch found stage held short => simp at orphaned
  | refused found stage held same registered full => simp at orphaned
  | orphaned found stage picked registered queued nobody =>
      rw [nobody] at alive
      contradiction

/-- The consumer pops between the steps of the last drop: what it takes in time is not lost. -/
def popWhileTearing : List CallAction :=
  (List.range 16).map (CallAction.push 0) ++
    [.enter 0 ⟨1, 64⟩ true, .advance 0, .advance 0, .advance 0, .advance 0, .pop, .dropSlot 0 0]

theorem interleavings_balanced_popWhileTearing :
    ∃ ledger, run step (start 4) popWhileTearing = some ledger ∧ ledger.popped = [15] ∧
      ledger.losses = [] ∧ ledger.Balanced := by
  have outcome : (run step (start 4) popWhileTearing).map
      (fun ledger => (ledger.popped, ledger.losses)) = some ([15], []) := by
    decide +kernel
  rcases Option.map_eq_some_iff.mp outcome with ⟨ledger, performed, books⟩
  exact ⟨ledger, performed, congrArg Prod.fst books, congrArg Prod.snd books,
    (interleavings_balanced performed).1⟩

end StepLedger

end Nethuns.Mpsc
