import Nethuns.Mpsc.Ledger

/-!
# Calls in progress

The operations of a handle are not atomic. A `flush` that finds no ring buffer for its thread
allocates one, registers its consumer half under the lock of the registry, and only then stores
the producer half in the slot of the thread. The last handle that is dropped takes all the slots
with it, one after the other, and each unregisters its ring buffer before it frees its own half.
Here every thread can be interrupted between these steps, in favour of the other threads and of
the consumer. A ring buffer lives as long as one of its halves, and as long as it lives, the
allocator does not hand out its address again.

A call that is not interrupted does what the operation of `Channel` does. So the runs of the
ledger are runs of this machine too.
-/

namespace Nethuns.Mpsc

open Nethuns.Lib

/-- How far a call has come. -/
inductive Stage
  /-- `spsc::channel` has returned. The call holds both halves. -/
  | created (id : ℕ)
  /-- The registry has the consumer half, the call still has the producer half. -/
  | registered (id : ℕ)
  /-- The slot of the thread has the ring buffer with this id. -/
  | slotted (id : ℕ)
  /-- The flush of a drop is done. -/
  | flushed
  /-- The handle was the last one. Its drop has yet to drop these slots. -/
  | tearing (slots : List (ℕ × ℕ))
  /-- A slot is unregistered, and its producer half not yet freed. -/
  | removed (id : ℕ) (slots : List (ℕ × ℕ))
deriving DecidableEq

/-- A thread inside `flush`, or inside `drop`. -/
structure Call where
  thread : ℕ
  handle : ℕ
  dropping : Bool
  stage : Stage
deriving DecidableEq

/-- A channel and the calls in progress, in no particular order. -/
structure Machine where
  channel : Channel
  calls : List Call
deriving DecidableEq

inductive Panic
  /-- `ArrayVec::push` on a registry of 4096 consumers. -/
  | registryFull
  /-- The assertion of `ConsumerRegistry::remove`. -/
  | lengthAssertion
deriving DecidableEq

/-- What can happen next. `site` is the thread of a new call and the address that a ring buffer
created by it would have. A full batch is pushed to after a flush, as in the source. The order in
which the slots are dropped is that of `thread_local`, and left open. -/
inductive CallAction
  | push (handle value : ℕ)
  | clone (handle : ℕ)
  | enter (handle : ℕ) (site : Site) (dropping : Bool)
  | advance (position : ℕ)
  | dropSlot (position pick : ℕ)
  | sync
  | pop
deriving DecidableEq

/-- The ids of the `spsc::Producer` halves that the call holds. -/
def Stage.producerHalves : Stage → List ℕ
  | .created id | .registered id => [id]
  | .slotted _ | .flushed => []
  | .tearing slots => slots.map Prod.snd
  | .removed id slots => id :: slots.map Prod.snd

/-- The ids of the `spsc::Consumer` halves that the call holds. -/
def Stage.consumerHalves : Stage → List ℕ
  | .created id => [id]
  | .registered _ | .slotted _ | .flushed | .tearing _ | .removed _ _ => []

namespace Machine

def start (size : ℕ) : Machine := ⟨Mpsc.channel size, []⟩

def producerHalves (machine : Machine) : List ℕ :=
  machine.channel.perThread.map Prod.snd ++
    machine.calls.flatMap fun call => call.stage.producerHalves

def registryIds (machine : Machine) : List ℕ := machine.channel.registry.elems.map Spsc.id

def consumerHalves (machine : Machine) : List ℕ :=
  machine.registryIds ++ machine.calls.flatMap fun call => call.stage.consumerHalves

/-- Whether a call has the handle borrowed. -/
def inUse (machine : Machine) (handle : ℕ) : Bool :=
  machine.calls.any fun call => call.handle = handle

/-- `Producer::push` on a batch that is not full. -/
def push (machine : Machine) (handle value : ℕ) : Option Machine :=
  if machine.inUse handle then
    none
  else
    (machine.channel.batch? handle).bind fun batch =>
      (batch.tryPush value).map fun batch =>
        { machine with channel := machine.channel.setBatch handle batch }

/-- `Producer::clone`. -/
def clone (machine : Machine) (handle : ℕ) : Option Machine :=
  if machine.inUse handle then
    none
  else
    (machine.channel.clone handle).map fun channel => { machine with channel := channel }

/-- The beginning of `Producer::flush`, as far as it works on data of the thread only. A `flush`
of an empty batch returns at once. -/
def enter (machine : Machine) (handle : ℕ) (site : Site) (dropping : Bool) : Option Machine :=
  if machine.inUse handle ∨ machine.calls.any fun call => call.thread = site.thread then
    none
  else
    (machine.channel.batch? handle).bind fun batch =>
      let begin (stage : Stage) : Machine :=
        { machine with calls := machine.calls ++ [⟨site.thread, handle, dropping, stage⟩] }
      if batch.isEmpty then
        some (if dropping then begin .flushed else machine)
      else
        match machine.channel.perThread.lookup site.thread with
        | some id => some (begin (.slotted id))
        | none =>
            if site.address ∈ machine.producerHalves ++ machine.consumerHalves then
              none
            else
              some (begin (.created site.address))

/-- The machine after a step of a call that goes on. -/
def goto (machine : Machine) (channel : Channel) (position : ℕ) (call : Call) (stage : Stage) :
    Machine :=
  ⟨channel, machine.calls.set position { call with stage := stage }⟩

/-- The machine after the last step of a call. -/
def finish (machine : Machine) (channel : Channel) (position : ℕ) : Machine :=
  ⟨channel, machine.calls.eraseIdx position⟩

/-- The next step of a call: `ConsumerRegistry::push`, the store to the slot of the thread, the
rest of `flush`, the release of the handle, or the release of a producer half. -/
def advance (machine : Machine) (position : ℕ) : Option (Except Panic Machine) :=
  machine.calls[position]?.bind fun call =>
    let channel := machine.channel
    match call.stage with
    | .created id =>
        match channel.registry.tryPush ⟨id, []⟩ with
        | none => some (.error .registryFull)
        | some registry =>
            some (.ok
              (machine.goto { channel with registry := registry } position call (.registered id)))
    | .registered id =>
        let perThread := channel.perThread ++ [(call.thread, id)]
        some (.ok
          (machine.goto { channel with perThread := perThread } position call (.slotted id)))
    | .slotted id =>
        (channel.batch? call.handle).map fun batch =>
          let blocks := toSimd batch.elems
          let channel := (channel.enqueueMany id blocks).setBatch call.handle .new
          .ok (if call.dropping then
              machine.goto channel position call .flushed
            else
              machine.finish channel position)
    | .flushed =>
        let channel := { channel with producers := channel.producers.set call.handle none }
        some (.ok (if channel.alive then
            machine.finish channel position
          else
            machine.goto { channel with perThread := [] } position call
              (.tearing channel.perThread)))
    | .tearing [] => some (.ok (machine.finish channel position))
    | .tearing (_ :: _) => none
    | .removed _ slots => some (.ok (machine.goto channel position call (.tearing slots)))

/-- The `drop` of a `PerThreadInner`, which unregisters its ring buffer. -/
def dropSlot (machine : Machine) (position pick : ℕ) : Option (Except Panic Machine) :=
  machine.calls[position]?.bind fun call =>
    match call.stage with
    | .tearing slots =>
        slots[pick]?.map fun (_, id) =>
          match remove machine.channel.registry id with
          | none => .error .lengthAssertion
          | some registry =>
              .ok (machine.goto { machine.channel with registry := registry } position call
                (.removed id (slots.eraseIdx pick)))
    | .created _ | .registered _ | .slotted _ | .flushed | .removed _ _ => none

/-- Performs one action; `none` when it cannot happen here. -/
def perform (machine : Machine) : CallAction → Option (Except Panic Machine)
  | .push handle value => (machine.push handle value).map .ok
  | .clone handle => (machine.clone handle).map .ok
  | .enter handle site dropping => (machine.enter handle site dropping).map .ok
  | .advance position => machine.advance position
  | .dropSlot position pick => machine.dropSlot position pick
  | .sync => some (.ok { machine with channel := machine.channel.sync })
  | .pop => some (.ok { machine with channel := machine.channel.pop.2 })

def step (machine : Machine) (action : CallAction) : Option Machine :=
  (machine.perform action).bind Except.toOption

/-! ## Calls that are not interrupted -/

variable {channel next : Channel} {thread handle id value : ℕ} {dropping : Bool} {site : Site}
  {discards : List Discard} {batch : ArrayVec ℕ 16}

/-- The calls that are left when a flush is done: the rest of the drop that it is part of. -/
def afterFlush (thread handle : ℕ) (dropping : Bool) : List Call :=
  if dropping then [⟨thread, handle, dropping, .flushed⟩] else []

theorem slotted_reaches (held : channel.batch? handle = some batch) :
    Reaches step ⟨channel, [⟨thread, handle, dropping, .slotted id⟩]⟩
      ⟨(channel.enqueueMany id (toSimd batch.elems)).setBatch handle .new,
        afterFlush thread handle dropping⟩ := by
  apply Reaches.of_step (.advance 0)
  cases dropping <;> simp [step, perform, advance, held, goto, finish, afterFlush, Except.toOption]

theorem created_advance {registry : ArrayVec Spsc 4096}
    (pushed : channel.registry.tryPush ⟨id, []⟩ = some registry) :
    step ⟨channel, [⟨thread, handle, dropping, .created id⟩]⟩ (.advance 0) =
      some ⟨{ channel with registry := registry },
        [⟨thread, handle, dropping, .registered id⟩]⟩ := by
  simp [step, perform, advance, pushed, goto, Except.toOption]

theorem enter_of_slotted (held : channel.batch? handle = some batch) (nonempty : batch.elems ≠ [])
    (slotted : channel.perThread.lookup site.thread = some id) :
    step ⟨channel, []⟩ (.enter handle site dropping) =
      some ⟨channel, [⟨site.thread, handle, dropping, .slotted id⟩]⟩ := by
  simp [step, perform, enter, inUse, held, nonempty, slotted, Except.toOption]

theorem enter_of_fresh (wellFormed : channel.WellFormed)
    (held : channel.batch? handle = some batch) (nonempty : batch.elems ≠ [])
    (absent : channel.perThread.lookup site.thread = none)
    (fresh : site.address ∉ channel.registry.elems.map Spsc.id) :
    step ⟨channel, []⟩ (.enter handle site dropping) =
      some ⟨channel, [⟨site.thread, handle, dropping, .created site.address⟩]⟩ := by
  have no_producer : site.address ∉ producerHalves ⟨channel, []⟩ := by
    simpa [producerHalves, ← wellFormed.ids_eq] using fresh
  have no_consumer : site.address ∉ consumerHalves ⟨channel, []⟩ := by
    simpa [consumerHalves, registryIds] using fresh
  simp [step, perform, enter, inUse, held, nonempty, absent, no_producer, no_consumer,
    Except.toOption]

theorem flush_reaches (dropping : Bool) (wellFormed : channel.WellFormed)
    (flushed : channel.flush handle site = some (next, discards)) :
    Reaches step ⟨channel, []⟩ ⟨next, afterFlush site.thread handle dropping⟩ := by
  rcases Channel.flush_cases flushed with
    ⟨batch, held, ⟨empty, rfl, -⟩ | ⟨nonempty, middle, id, slotted, rfl, -⟩⟩
  · apply Reaches.of_step (.enter handle site dropping)
    cases dropping <;> simp [step, perform, enter, inUse, held, empty, afterFlush, Except.toOption]
  · have held' : middle.batch? handle = some batch :=
      (Channel.slot_batch? slotted handle).trans held
    apply Reaches.trans _ (slotted_reaches held')
    cases present : channel.perThread.lookup site.thread with
    | some found =>
        simp only [Channel.slot, present, Option.some.injEq, Prod.mk.injEq] at slotted
        rcases slotted with ⟨rfl, rfl⟩
        exact .of_step _ (enter_of_slotted held nonempty present)
    | none =>
        rcases Channel.slot_cases slotted with ⟨-, found⟩ | ⟨rfl, fresh, entries, same⟩
        · rw [present] at found
          contradiction
        · have room : channel.registry.elems.length < 4096 := by
            have bound := middle.registry.length_le
            rw [entries, List.length_append, List.length_singleton] at bound
            omega
          have pushed := ArrayVec.tryPush_eq_some.mpr ⟨room, entries⟩
          apply (Reaches.of_step _ (enter_of_fresh wellFormed held nonempty present fresh)).trans
          apply (Reaches.of_step (.advance 0) (created_advance pushed)).trans
          apply Reaches.of_step (.advance 0)
          rw [same]
          rfl

theorem teardown_reaches {slots : List (ℕ × ℕ)} {registry : ArrayVec Spsc 4096}
    (removed : removeAll channel.registry slots = some registry) :
    Reaches step ⟨channel, [⟨thread, handle, dropping, .tearing slots⟩]⟩
      ⟨{ channel with registry := registry }, []⟩ := by
  induction slots generalizing channel with
  | nil =>
      simp only [removeAll, Option.some.injEq] at removed
      subst registry
      exact .of_step (.advance 0) rfl
  | cons slot slots ih =>
      simp only [removeAll, Option.bind_eq_some_iff] at removed
      rcases removed with ⟨smaller, first, rest⟩
      have dropped : step ⟨channel, [⟨thread, handle, dropping, .tearing (slot :: slots)⟩]⟩
          (.dropSlot 0 0) = some ⟨{ channel with registry := smaller },
            [⟨thread, handle, dropping, .removed slot.2 slots⟩]⟩ := by
        simp [step, perform, dropSlot, first, goto, Except.toOption]
      apply (Reaches.of_step (.dropSlot 0 0) dropped).trans
      have freed : step ⟨{ channel with registry := smaller },
          [⟨thread, handle, dropping, .removed slot.2 slots⟩]⟩ (.advance 0) =
          some ⟨{ channel with registry := smaller },
            [⟨thread, handle, dropping, .tearing slots⟩]⟩ := rfl
      apply (Reaches.of_step (.advance 0) freed).trans
      exact ih rest

theorem drop_reaches (wellFormed : channel.WellFormed)
    (dropped : channel.drop handle site = some (next, discards)) :
    Reaches step ⟨channel, []⟩ ⟨next, []⟩ := by
  simp only [Channel.drop, Option.bind_eq_some_iff] at dropped
  rcases dropped with ⟨⟨middle, lost⟩, flushed, dropped⟩
  apply (flush_reaches true wellFormed flushed).trans
  by_cases others : Channel.alive { middle with producers := middle.producers.set handle none }
  · rw [if_pos others, Option.some.injEq, Prod.mk.injEq] at dropped
    rcases dropped with ⟨rfl, -⟩
    apply Reaches.of_step (.advance 0)
    simp [step, perform, advance, afterFlush, others, finish, Except.toOption]
  · rw [if_neg others, Option.map_eq_some_iff] at dropped
    rcases dropped with ⟨registry, removed, same⟩
    have released : step ⟨middle, afterFlush site.thread handle true⟩ (.advance 0) =
        some ⟨{ middle with producers := middle.producers.set handle none, perThread := [] },
          [⟨site.thread, handle, true, .tearing middle.perThread⟩]⟩ := by
      simp [step, perform, advance, afterFlush, others, goto, Except.toOption]
    apply (Reaches.of_step (.advance 0) released).trans
    rw [Prod.mk.injEq] at same
    rw [← same.1]
    exact teardown_reaches removed

theorem push_reaches (wellFormed : channel.WellFormed)
    (pushed : channel.push handle site value = some (next, discards)) :
    Reaches step ⟨channel, []⟩ ⟨next, []⟩ := by
  simp only [Channel.push, Option.bind_eq_some_iff] at pushed
  rcases pushed with ⟨batch, held, pushed⟩
  cases stored : batch.tryPush value with
  | some grown =>
      simp only [stored, Option.some.injEq, Prod.mk.injEq] at pushed
      apply Reaches.of_step (.push handle value)
      simp [step, perform, push, inUse, held, stored, pushed.1, Except.toOption]
  | none =>
      simp only [stored, Option.bind_eq_some_iff, Option.map_eq_some_iff, Prod.mk.injEq] at pushed
      rcases pushed with ⟨⟨middle, lost⟩, flushed, grown, ⟨empty, held', stored'⟩, rfl, -⟩
      apply (flush_reaches false wellFormed flushed).trans
      apply Reaches.of_step (.push handle value)
      simp [step, perform, push, inUse, afterFlush, held', stored', Except.toOption]

/-- An operation that is not interrupted is a run of the calls. -/
theorem reaches_of_step {ledger next : Ledger} {action : Action} (sound : ledger.Sound)
    (performed : ledger.step action = some next) :
    Reaches step ⟨ledger.channel, []⟩ ⟨next.channel, []⟩ := by
  have wellFormed := sound.wellFormed
  cases action with
  | push handle site value =>
      simp only [Ledger.step, Option.map_eq_some_iff] at performed
      rcases performed with ⟨⟨channel, discards⟩, pushed, rfl⟩
      exact push_reaches wellFormed pushed
  | flush handle site =>
      simp only [Ledger.step, Option.map_eq_some_iff] at performed
      rcases performed with ⟨⟨channel, discards⟩, flushed, rfl⟩
      exact flush_reaches false wellFormed flushed
  | clone handle =>
      simp only [Ledger.step, Option.map_eq_some_iff] at performed
      rcases performed with ⟨channel, cloned, rfl⟩
      apply Reaches.of_step (.clone handle)
      simp [step, perform, clone, inUse, cloned, Ledger.enter, Except.toOption]
  | drop handle site =>
      simp only [Ledger.step, Option.map_eq_some_iff] at performed
      rcases performed with ⟨⟨channel, discards⟩, dropped, rfl⟩
      exact drop_reaches wellFormed dropped
  | pop =>
      simp only [Ledger.step, Option.some.injEq] at performed
      subst next
      exact .of_step .pop rfl
  | sync =>
      simp only [Ledger.step, Option.some.injEq] at performed
      subst next
      exact .of_step .sync rfl

/-- The runs of the ledger are runs of the calls. -/
theorem reaches_of_run {size : ℕ} {actions : List Action} {ledger : Ledger}
    (performed : run Ledger.step (.start size) actions = some ledger) :
    Reaches step (start size) ⟨ledger.channel, []⟩ := by
  have matched : ∀ {ledger next : Ledger} {action : Action}, ledger.Sound →
      ledger.step action = some next →
      next.Sound ∧ Reaches step ⟨ledger.channel, []⟩ ⟨next.channel, []⟩ := by
    intro ledger next action sound stepped
    exact ⟨Ledger.step_sound sound stepped, reaches_of_step sound stepped⟩
  exact Reaches.of_run (fun ledger : Ledger => (⟨ledger.channel, []⟩ : Machine)) Ledger.Sound
    matched (Ledger.start_sound size) performed

end Machine

end Nethuns.Mpsc
