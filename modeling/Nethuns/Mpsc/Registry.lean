import Mathlib.Data.List.Flatten
import Nethuns.Mpsc.Calls

/-!
# The consumer registry

The registry lists the ring buffers by address, and forgets one when the slot of its thread is
dropped. Here it is compared with the slots in every state of every interleaving of the calls, the
states inside `flush` and `drop` included. The ids in the registry are distinct, and are those of
the live `PerThreadInner` values: the slots of the threads, the value that a flush has registered
and not stored yet, and the slots that the last drop has yet to drop. So `ConsumerRegistry::remove`
finds one entry, its assertion holds, and the other entries stay as they are.

The number of live slots is the one thing that the code does not check: the registry has room for
4096 consumers, and a slot more is a panic.

As in the ledger, a direct `sync` on a cache whose length is not a multiple of 16 goes on here,
while the program crashes at its first store.
-/

namespace Nethuns.Mpsc

open Nethuns.Lib

/-- The ids of the `PerThreadInner` values that the call holds: the one on its way to the slot of
the thread, and those that are yet to be dropped. -/
def Stage.inners : Stage → List ℕ
  | .registered id => [id]
  | .tearing slots | .removed _ slots => slots.map Prod.snd
  | .created _ | .slotted _ | .flushed => []

/-- Whether the handle of the call is still alive. -/
def Stage.holdsHandle : Stage → Bool
  | .created _ | .registered _ | .slotted _ | .flushed => true
  | .tearing _ | .removed _ _ => false

/-- The thread whose empty slot the call is about to fill. -/
def Call.vacant (call : Call) : List ℕ :=
  match call.stage with
  | .created _ | .registered _ => [call.thread]
  | .slotted _ | .flushed | .tearing _ | .removed _ _ => []

namespace Machine

/-- The ids of the live `PerThreadInner` values. -/
def inners (machine : Machine) : List ℕ :=
  machine.channel.perThread.map Prod.snd ++ machine.calls.flatMap fun call => call.stage.inners

/-- The threads that have a slot, or are about to fill theirs. -/
def slotThreads (machine : Machine) : List ℕ :=
  machine.channel.perThread.map Prod.fst ++ machine.calls.flatMap Call.vacant

/-- There are at most 4096 live slots, those that are about to be filled included. -/
def FewSlots (machine : Machine) (_ : CallAction) : Prop :=
  (machine.inners ++ machine.calls.flatMap fun call => call.stage.consumerHalves).length ≤ 4096

instance (machine : Machine) (action : CallAction) : Decidable (machine.FewSlots action) :=
  inferInstanceAs (Decidable (_ ≤ _))

/-- The ring buffer whose entry in the registry the action works on. -/
def target (machine : Machine) : CallAction → Option ℕ
  | .advance position =>
      machine.calls[position]?.bind fun call =>
        match call.stage with
        | .created id | .slotted id => some id
        | .registered _ | .flushed | .tearing _ | .removed _ _ => none
  | .dropSlot position pick =>
      machine.calls[position]?.bind fun call =>
        match call.stage with
        | .tearing slots => slots[pick]?.map Prod.snd
        | .created _ | .registered _ | .slotted _ | .flushed | .removed _ _ => none
  | .push _ _ | .clone _ | .enter _ _ _ | .sync | .pop => none

/-- The entries of the registry, except the one of the given ring buffer. -/
def entriesExcept (machine : Machine) (target : Option ℕ) : List Spsc :=
  machine.channel.registry.elems.filter fun spsc => some spsc.id ≠ target

/-- What the registry is at every moment. -/
structure Exact (machine : Machine) : Prop where
  distinct : machine.registryIds.Nodup
  exact : machine.registryIds.Perm machine.inners
  /-- No thread has two slots, and none fills a slot that is taken. -/
  oneSlot : machine.slotThreads.Nodup
  /-- While no slot is being stored or dropped, the registry has the slots of the threads. -/
  settled : (∀ call ∈ machine.calls, call.stage.inners = []) →
    machine.registryIds.Perm (machine.channel.perThread.map Prod.snd)

/-- What an action does to the registry. -/
structure Safe (machine : Machine) (action : CallAction) : Prop where
  no_panic : ∀ panic, machine.perform action ≠ some (.error panic)
  /-- `ConsumerRegistry::remove` finds one entry, and takes out this one only. -/
  one_entry : ∀ position pick call slots slot, action = .dropSlot position pick →
    machine.calls[position]? = some call → call.stage = .tearing slots →
    slots[pick]? = some slot →
    ∃ before spsc after next, machine.channel.registry.elems = before ++ spsc :: after ∧
      spsc.id = slot.2 ∧ slot.2 ∉ (before ++ after).map Spsc.id ∧
      machine.step action = some next ∧ next.channel.registry.elems = before ++ after
  /-- The handles leave the entries of the other ring buffers as they are. -/
  others : ∀ next, machine.step action = some next → action ≠ .sync → action ≠ .pop →
    next.entriesExcept (machine.target action) = machine.entriesExcept (machine.target action)
  /-- The consumer empties queues, and leaves the list of the ring buffers as it is. -/
  consumer : ∀ next, machine.step action = some next → action = .sync ∨ action = .pop →
    next.registryIds = machine.registryIds
  /-- No call is stuck: it takes its next step, or drops any of the slots it has left. -/
  goes_on : ∀ position call, machine.calls[position]? = some call →
    (∃ next, machine.step (.advance position) = some next) ∨
      ∃ slots, call.stage = .tearing slots ∧ slots ≠ [] ∧
        ∀ pick < slots.length, ∃ next, machine.step (.dropSlot position pick) = some next

/-! ## What a step of a call does -/

/-- The machine after a step of the given call. -/
inductive Advanced (machine : Machine) (position : ℕ) (call : Call) : Machine → Prop
  | registers {id : ℕ} {registry : ArrayVec Spsc 4096} (stage : call.stage = .created id)
      (entries : registry.elems = machine.channel.registry.elems ++ [⟨id, []⟩]) :
      Advanced machine position call
        (machine.goto { machine.channel with registry := registry } position call (.registered id))
  | stores {id : ℕ} (stage : call.stage = .registered id) :
      Advanced machine position call
        (machine.goto { machine.channel with
            perThread := machine.channel.perThread ++ [(call.thread, id)] }
          position call (.slotted id))
  | flushes {id : ℕ} {blocks : List Simd} (stage : call.stage = .slotted id)
      (dropping : call.dropping = true) :
      Advanced machine position call
        (machine.goto ((machine.channel.enqueueMany id blocks).setBatch call.handle .new)
          position call .flushed)
  | returns {id : ℕ} {blocks : List Simd} (stage : call.stage = .slotted id) :
      Advanced machine position call
        (machine.finish ((machine.channel.enqueueMany id blocks).setBatch call.handle .new)
          position)
  | releases (stage : call.stage = .flushed) :
      Advanced machine position call
        (machine.finish { machine.channel with
            producers := machine.channel.producers.set call.handle none } position)
  | tears (stage : call.stage = .flushed) :
      Advanced machine position call
        (machine.goto { machine.channel with
            producers := machine.channel.producers.set call.handle none
            perThread := [] }
          position call (.tearing machine.channel.perThread))
  | ends (stage : call.stage = .tearing []) :
      Advanced machine position call (machine.finish machine.channel position)
  | frees {id : ℕ} {slots : List (ℕ × ℕ)} (stage : call.stage = .removed id slots) :
      Advanced machine position call
        (machine.goto machine.channel position call (.tearing slots))

variable {machine next : Machine} {action : CallAction} {position : ℕ} {call : Call}

theorem step_eq_some :
    machine.step action = some next ↔ machine.perform action = some (.ok next) := by
  simp only [step, Option.bind_eq_some_iff]
  constructor
  · rintro ⟨_ | after, performed, same⟩
    · simp [Except.toOption] at same
    · simp only [Except.toOption, Option.some.injEq] at same
      rw [performed, same]
  · intro performed
    exact ⟨.ok next, performed, rfl⟩

theorem map_ok_eq_some {outcome : Option Machine} :
    outcome.map (Except.ok : Machine → Except Panic Machine) = some (.ok next) ↔
      outcome = some next := by
  simp [Option.map_eq_some_iff]

theorem advanced_of_advance (advanced : machine.advance position = some (.ok next)) :
    ∃ call, machine.calls[position]? = some call ∧ machine.Advanced position call next := by
  simp only [advance, Option.bind_eq_some_iff] at advanced
  rcases advanced with ⟨call, found, advanced⟩
  refine ⟨call, found, ?_⟩
  split at advanced
  · rename_i id stage
    split at advanced
    · simp at advanced
    · rename_i registry pushed
      simp only [Option.some.injEq, Except.ok.injEq] at advanced
      exact advanced ▸ .registers stage (ArrayVec.tryPush_eq_some.mp pushed).2
  · rename_i id stage
    simp only [Option.some.injEq, Except.ok.injEq] at advanced
    exact advanced ▸ .stores stage
  · rename_i id stage
    simp only [Option.map_eq_some_iff, Except.ok.injEq] at advanced
    rcases advanced with ⟨batch, -, rfl⟩
    cases dropping : call.dropping with
    | false => exact .returns stage
    | true => exact .flushes stage dropping
  · rename_i stage
    simp only [Option.some.injEq, Except.ok.injEq] at advanced
    subst next
    split
    · exact .releases stage
    · exact .tears stage
  · rename_i stage
    simp only [Option.some.injEq, Except.ok.injEq] at advanced
    exact advanced ▸ .ends stage
  · simp at advanced
  · rename_i id slots stage
    simp only [Option.some.injEq, Except.ok.injEq] at advanced
    exact advanced ▸ .frees stage

theorem dropSlot_cases {pick : ℕ} {outcome : Except Panic Machine}
    (dropped : machine.dropSlot position pick = some outcome) :
    ∃ call slots slot, machine.calls[position]? = some call ∧ call.stage = .tearing slots ∧
      slots[pick]? = some slot := by
  simp only [dropSlot, Option.bind_eq_some_iff] at dropped
  rcases dropped with ⟨call, found, dropped⟩
  split at dropped
  · rename_i slots stage
    simp only [Option.map_eq_some_iff] at dropped
    rcases dropped with ⟨slot, picked, -⟩
    exact ⟨call, slots, slot, found, stage, picked⟩
  all_goals simp at dropped

/-! ## The invariant -/

/-- A producer half is held once. The slots and the values on their way to or from a slot are
those that the registry lists, and the calls that still have a handle have one of their own. -/
structure Consistent (machine : Machine) : Prop where
  listed : (machine.registryIds : Multiset ℕ) = machine.inners
  halves : machine.producerHalves.Nodup
  threads : machine.slotThreads.Nodup
  handles : (machine.calls.map Call.handle).Nodup
  held : ∀ call ∈ machine.calls, call.stage.holdsHandle = true →
    (machine.channel.batch? call.handle).isSome = true

theorem start_consistent (size : ℕ) : (start size).Consistent := by
  constructor <;> simp [start, Mpsc.channel, registryIds, inners, producerHalves, slotThreads]

theorem inners_le_producerHalves (stage : Stage) :
    (stage.inners : Multiset ℕ) ≤ stage.producerHalves := by
  cases stage with
  | removed id slots => exact Multiset.le_cons_self _ id
  | created | registered | slotted | flushed | tearing =>
      simp [Stage.inners, Stage.producerHalves]

theorem Consistent.registryIds_nodup (consistent : machine.Consistent) :
    machine.registryIds.Nodup := by
  have part : (machine.inners : Multiset ℕ) ≤ machine.producerHalves := by
    simp only [inners, producerHalves, ← Multiset.coe_add]
    apply add_le_add_right
    induction machine.calls with
    | nil => simp
    | cons call calls ih =>
        simp only [List.flatMap_cons, ← Multiset.coe_add]
        exact add_le_add (inners_le_producerHalves call.stage) ih
  rw [← Multiset.coe_nodup, consistent.listed]
  exact Multiset.nodup_of_le part (Multiset.coe_nodup.mpr consistent.halves)

/-- A step that moves no slot, and takes no handle from a call. -/
theorem Consistent.of_channel {channel : Channel} (consistent : machine.Consistent)
    (ids : channel.registry.elems.map Spsc.id = machine.registryIds)
    (slots : channel.perThread = machine.channel.perThread)
    (held : ∀ call ∈ machine.calls, call.stage.holdsHandle = true →
      (machine.channel.batch? call.handle).isSome = true →
      (channel.batch? call.handle).isSome = true) :
    Consistent ⟨channel, machine.calls⟩ := by
  refine ⟨?_, ?_, ?_, consistent.handles, ?_⟩
  · have listed := consistent.listed
    simpa only [registryIds, inners, ids, slots] using listed
  · simpa only [producerHalves, slots] using consistent.halves
  · simpa only [slotThreads, slots] using consistent.threads
  · intro call member holds
    exact held call member holds (consistent.held call member holds)

/-- A call goes on. What it adds to the registry and to the slots is what its new stage holds
more than the old one. -/
theorem Consistent.goto {channel : Channel} {stage : Stage} (consistent : machine.Consistent)
    (found : machine.calls[position]? = some call)
    (listed : (↑(channel.registry.elems.map Spsc.id) +
        ↑(machine.channel.perThread.map Prod.snd) + ↑call.stage.inners : Multiset ℕ) =
      ↑machine.registryIds + ↑(channel.perThread.map Prod.snd) + ↑stage.inners)
    (halves : (↑(channel.perThread.map Prod.snd) + ↑stage.producerHalves : Multiset ℕ) ≤
      ↑(machine.channel.perThread.map Prod.snd) + ↑call.stage.producerHalves)
    (threads : (↑(channel.perThread.map Prod.fst) +
        ↑(Call.vacant { call with stage := stage }) : Multiset ℕ) ≤
      ↑(machine.channel.perThread.map Prod.fst) + ↑call.vacant)
    (held : ∀ other ∈ machine.calls.set position { call with stage := stage },
      other.stage.holdsHandle = true → (channel.batch? other.handle).isSome = true) :
    (machine.goto channel position call stage).Consistent := by
  refine ⟨?_, ?_, ?_, ?_, held⟩
  · have before := consistent.listed
    simp only [inners, ← Multiset.coe_add] at before
    simp only [registryIds, inners, Machine.goto, ← Multiset.coe_add]
    exact eq_add_flatMap_set (fun call : Call => call.stage.inners) found before listed
  · rw [← Multiset.coe_nodup]
    apply Multiset.nodup_of_le _ (Multiset.coe_nodup.mpr consistent.halves)
    simp only [producerHalves, Machine.goto, ← Multiset.coe_add]
    exact add_flatMap_set_le (fun call : Call => call.stage.producerHalves) found halves
  · rw [← Multiset.coe_nodup]
    apply Multiset.nodup_of_le _ (Multiset.coe_nodup.mpr consistent.threads)
    simp only [slotThreads, Machine.goto, ← Multiset.coe_add]
    exact add_flatMap_set_le Call.vacant found threads
  · have same : (machine.calls.set position { call with stage := stage }).map Call.handle =
        machine.calls.map Call.handle := by
      rcases List.getElem?_eq_some_iff.mp found with ⟨inRange, stored⟩
      apply List.ext_getElem?
      intro place
      simp only [List.getElem?_map, List.getElem?_set]
      split
      · rename_i here
        simp [← here, inRange, ← stored]
      · rfl
    exact same ▸ consistent.handles

/-- A call that holds no slot returns. -/
theorem Consistent.erase (consistent : machine.Consistent)
    (found : machine.calls[position]? = some call) (nothing : call.stage.inners = []) :
    Consistent ⟨machine.channel, machine.calls.eraseIdx position⟩ := by
  have fewer := List.eraseIdx_sublist machine.calls position
  refine ⟨?_, ?_, ?_, ?_, ?_⟩
  · have erased := flatMap_eraseIdx (fun call : Call => call.stage.inners) found
    rw [nothing, Multiset.coe_nil, add_zero] at erased
    have listed := consistent.listed
    simp only [registryIds, inners, ← Multiset.coe_add, erased] at listed ⊢
    exact listed
  · apply List.Nodup.sublist _ consistent.halves
    exact (List.Sublist.refl _).append (fewer.flatMap _)
  · apply List.Nodup.sublist _ consistent.threads
    exact (List.Sublist.refl _).append (fewer.flatMap _)
  · exact List.Nodup.sublist (fewer.map Call.handle) consistent.handles
  · intro other member
    exact consistent.held other (fewer.subset member)

/-- A call begins. -/
theorem Consistent.append (consistent : machine.Consistent) (nothing : call.stage.inners = [])
    (halves : (machine.producerHalves ++ call.stage.producerHalves).Nodup)
    (threads : (machine.slotThreads ++ call.vacant).Nodup)
    (free : machine.inUse call.handle = false)
    (held : (machine.channel.batch? call.handle).isSome = true) :
    Consistent ⟨machine.channel, machine.calls ++ [call]⟩ := by
  refine ⟨?_, ?_, ?_, ?_, ?_⟩
  · have listed := consistent.listed
    simpa [registryIds, inners, nothing] using listed
  · simpa [producerHalves] using halves
  · simpa [slotThreads] using threads
  · rw [List.map_append, List.nodup_append]
    refine ⟨consistent.handles, by simp, ?_⟩
    rintro handle handle_mem _ other_mem rfl
    simp only [List.map_cons, List.map_nil, List.mem_singleton] at other_mem
    rcases List.mem_map.mp handle_mem with ⟨other, member, same⟩
    have unused := List.any_eq_false.mp free other member
    exact unused (decide_eq_true (same.trans other_mem))
  · intro other member holds
    rcases List.mem_append.mp member with old | new
    · exact consistent.held other old holds
    · exact List.mem_singleton.mp new ▸ held

theorem enter_cases {handle : ℕ} {site : Site} {dropping : Bool}
    (entered : machine.enter handle site dropping = some next) :
    next = machine ∨ ∃ stage, machine.inUse handle = false ∧
      (∀ call ∈ machine.calls, call.thread ≠ site.thread) ∧
      (machine.channel.batch? handle).isSome = true ∧
      next = ⟨machine.channel, machine.calls ++ [⟨site.thread, handle, dropping, stage⟩]⟩ ∧
      ((stage = .flushed ∨ ∃ id, stage = .slotted id) ∨
        (stage = .created site.address ∧ machine.channel.perThread.lookup site.thread = none ∧
          site.address ∉ machine.producerHalves)) := by
  unfold enter at entered
  split at entered
  · simp at entered
  · rename_i free
    simp only [not_or, Bool.not_eq_true, List.any_eq_false, decide_eq_true_eq] at free
    simp only [Option.bind_eq_some_iff] at entered
    rcases entered with ⟨batch, held, entered⟩
    have live : (machine.channel.batch? handle).isSome = true := by simp [held]
    split at entered
    · split at entered
      · simp only [Option.some.injEq] at entered
        exact Or.inr ⟨.flushed, free.1, free.2, live, entered.symm, Or.inl (Or.inl rfl)⟩
      · simp only [Option.some.injEq] at entered
        exact Or.inl entered.symm
    · split at entered
      · rename_i id present
        simp only [Option.some.injEq] at entered
        exact Or.inr ⟨.slotted id, free.1, free.2, live, entered.symm, Or.inl (Or.inr ⟨id, rfl⟩)⟩
      · rename_i absent
        split at entered
        · simp at entered
        · rename_i fresh
          simp only [Option.some.injEq] at entered
          refine Or.inr ⟨.created site.address, free.1, free.2, live, entered.symm,
            Or.inr ⟨rfl, absent, ?_⟩⟩
          exact fun member => fresh (List.mem_append_left _ member)

theorem eq_of_mem_vacant {thread : ℕ} (vacant : thread ∈ call.vacant) : thread = call.thread := by
  unfold Call.vacant at vacant
  split at vacant
  · exact List.mem_singleton.mp vacant
  · exact List.mem_singleton.mp vacant
  all_goals simp at vacant

theorem Consistent.enter {handle : ℕ} {site : Site} {dropping : Bool}
    (consistent : machine.Consistent)
    (entered : machine.enter handle site dropping = some next) : next.Consistent := by
  rcases enter_cases entered with
    rfl | ⟨stage, free, alone, held, rfl, ((rfl | ⟨id, rfl⟩) | ⟨rfl, absent, fresh⟩)⟩
  · exact consistent
  · apply consistent.append rfl _ _ free held
    · simpa [Stage.producerHalves] using consistent.halves
    · simpa [Call.vacant] using consistent.threads
  · apply consistent.append rfl _ _ free held
    · simpa [Stage.producerHalves] using consistent.halves
    · simpa [Call.vacant] using consistent.threads
  · apply consistent.append rfl _ _ free held
    · simp only [Stage.producerHalves, List.nodup_append]
      refine ⟨consistent.halves, by simp, ?_⟩
      rintro id member _ new rfl
      exact fresh (List.mem_singleton.mp new ▸ member)
    · simp only [Call.vacant, List.nodup_append]
      refine ⟨consistent.threads, by simp, ?_⟩
      rintro thread member _ new rfl
      rw [List.mem_singleton] at new
      subst thread
      simp only [slotThreads, List.mem_append, List.mem_map, List.mem_flatMap] at member
      rcases member with ⟨slot, slot_mem, same⟩ | ⟨call, call_mem, same⟩
      · have other := List.lookup_eq_none_iff.mp absent slot slot_mem
        simp [same] at other
      · exact alone call call_mem (eq_of_mem_vacant same).symm

theorem Consistent.handle_ne {place : ℕ} {other : Call} (consistent : machine.Consistent)
    (found : machine.calls[position]? = some call) (found' : machine.calls[place]? = some other)
    (apart : place ≠ position) : other.handle ≠ call.handle := by
  intro same
  apply apart
  have inRange := (List.getElem?_eq_some_iff.mp found').1
  rw [← List.length_map Call.handle] at inRange
  apply (List.getElem?_inj inRange consistent.handles).mp
  simp [found, found', same]

theorem Consistent.held_of_live {channel : Channel} {stage : Stage}
    (consistent : machine.Consistent) (found : machine.calls[position]? = some call)
    (live : ∀ handle, (machine.channel.batch? handle).isSome = true →
      (channel.batch? handle).isSome = true)
    (earlier : stage.holdsHandle = true → call.stage.holdsHandle = true) :
    ∀ other ∈ machine.calls.set position { call with stage := stage },
      other.stage.holdsHandle = true → (channel.batch? other.handle).isSome = true := by
  intro other member holds
  apply live
  rcases List.mem_or_eq_of_mem_set member with old | rfl
  · exact consistent.held other old holds
  · exact consistent.held call (List.mem_of_getElem? found) (earlier holds)

/-- The handle of a call that is done is released, and no other call has it. -/
theorem Consistent.released (consistent : machine.Consistent)
    (found : machine.calls[position]? = some call) {place : ℕ} {other : Call}
    (found' : machine.calls[place]? = some other) (apart : place ≠ position)
    (live : (machine.channel.batch? other.handle).isSome = true) {channel : Channel}
    (producers : channel.producers = machine.channel.producers.set call.handle none) :
    (channel.batch? other.handle).isSome = true := by
  have different := consistent.handle_ne found found' apart
  rw [Channel.batch?, producers, List.getElem?_set_ne different.symm]
  exact live

theorem Consistent.advanced (consistent : machine.Consistent)
    (found : machine.calls[position]? = some call)
    (advanced : machine.Advanced position call next) : next.Consistent := by
  cases advanced with
  | @registers id registry stage entries =>
      apply consistent.goto found
      · simp only [entries, stage, Stage.inners, registryIds, List.map_append, List.map_cons,
          List.map_nil, ← Multiset.coe_add, Multiset.coe_nil]
        abel
      · simp [stage, Stage.producerHalves]
      · simp [Call.vacant, stage]
      · apply consistent.held_of_live found
        · exact fun _ live => live
        · simp [stage, Stage.holdsHandle]
  | @stores id stage =>
      apply consistent.goto found
      · simp only [stage, Stage.inners, registryIds, List.map_append, List.map_cons,
          List.map_nil, ← Multiset.coe_add, Multiset.coe_nil]
        abel
      · apply le_of_eq
        simp [stage, Stage.producerHalves, ← Multiset.coe_add]
      · apply le_of_eq
        simp [stage, Call.vacant, ← Multiset.coe_add]
      · apply consistent.held_of_live found
        · exact fun _ live => live
        · simp [stage, Stage.holdsHandle]
  | @flushes id blocks stage dropping =>
      apply consistent.goto found
      · have ids := Channel.enqueueMany_ids machine.channel id blocks
        simp only [Channel.setBatch, ids, stage]
        rfl
      · rw [stage]
        rfl
      · simp only [Call.vacant, stage]
        rfl
      · apply consistent.held_of_live found
        · exact fun _ live => Channel.setBatch_isSome live
        · simp [stage, Stage.holdsHandle]
  | @returns id blocks stage =>
      have erased := consistent.erase found (by simp [stage, Stage.inners])
      apply erased.of_channel
      · exact Channel.enqueueMany_ids _ _ _
      · rfl
      · exact fun _ _ _ live => Channel.setBatch_isSome live
  | releases stage =>
      have erased := consistent.erase found (by simp [stage, Stage.inners])
      apply erased.of_channel
      · rfl
      · rfl
      · intro other member _ live
        rcases List.mem_eraseIdx_iff_getElem?.mp member with ⟨place, apart, found'⟩
        exact consistent.released found found' apart live rfl
  | tears stage =>
      apply consistent.goto found
      · simp [stage, Stage.inners, registryIds]
      · simp [stage, Stage.producerHalves]
      · simp only [Call.vacant, stage]
        exact Multiset.zero_le _
      · intro other member holds
        rcases List.mem_iff_getElem?.mp member with ⟨place, found'⟩
        by_cases here : place = position
        · have inRange := (List.getElem?_eq_some_iff.mp found).1
          rw [here, List.getElem?_set_self inRange, Option.some.injEq] at found'
          simp [← found', Stage.holdsHandle] at holds
        · rw [List.getElem?_set_ne (Ne.symm here)] at found'
          have live := consistent.held other (List.mem_of_getElem? found') holds
          exact consistent.released found found' here live rfl
  | ends stage =>
      exact consistent.erase found (by simp [stage, Stage.inners])
  | @frees id slots stage =>
      apply consistent.goto found
      · rw [stage]
        rfl
      · rw [stage]
        exact add_le_add_right (Multiset.le_cons_self _ id) _
      · simp [Call.vacant, stage]
      · apply consistent.held_of_live found
        · exact fun _ live => live
        · simp [Stage.holdsHandle]

/-- A slot that is dropped has one entry in the registry. -/
theorem Consistent.dropSlot_spec {pick : ℕ} {slots : List (ℕ × ℕ)} {slot : ℕ × ℕ}
    (consistent : machine.Consistent) (found : machine.calls[position]? = some call)
    (stage : call.stage = .tearing slots) (picked : slots[pick]? = some slot) :
    ∃ before spsc after registry, machine.channel.registry.elems = before ++ spsc :: after ∧
      spsc.id = slot.2 ∧ slot.2 ∉ (before ++ after).map Spsc.id ∧
      registry.elems = before ++ after ∧
      machine.dropSlot position pick = some (.ok (machine.goto
        { machine.channel with registry := registry } position call
        (.removed slot.2 (slots.eraseIdx pick)))) := by
  have slot_mem := List.mem_map_of_mem (f := Prod.snd) (List.mem_of_getElem? picked)
  have inner : slot.2 ∈ machine.inners := by
    apply List.mem_append_right
    rw [List.mem_flatMap]
    exact ⟨call, List.mem_of_getElem? found, by simpa [stage, Stage.inners] using slot_mem⟩
  have listed : slot.2 ∈ machine.registryIds := by
    rw [← Multiset.mem_coe, consistent.listed]
    exact inner
  rcases List.mem_map.mp listed with ⟨spsc, registered, same⟩
  rcases List.append_of_mem registered with ⟨before, after, entries⟩
  rcases Channel.remove_of_split entries consistent.registryIds_nodup with
    ⟨registry, removed, rest, alone⟩
  refine ⟨before, spsc, after, registry, entries, same, same ▸ alone, rest, ?_⟩
  simp only [dropSlot, found, Option.bind_some, stage, picked, Option.map_some]
  rw [← same, removed]

theorem Consistent.dropSlot {pick : ℕ} (consistent : machine.Consistent)
    (dropped : machine.dropSlot position pick = some (.ok next)) : next.Consistent := by
  rcases dropSlot_cases dropped with ⟨call, slots, slot, found, stage, picked⟩
  rcases consistent.dropSlot_spec found stage picked with
    ⟨before, spsc, after, registry, entries, same, -, rest, performed⟩
  rw [performed, Option.some.injEq, Except.ok.injEq] at dropped
  subst next
  have fewer := coe_map_eraseIdx Prod.snd picked
  apply consistent.goto found
  · simp only [registryIds, entries, rest, stage, Stage.inners, List.map_append, List.map_cons,
      ← fewer, ← Multiset.coe_add, ← Multiset.cons_coe, ← Multiset.singleton_add, same]
    abel
  · apply le_of_eq
    simp only [stage, Stage.producerHalves, ← fewer, ← Multiset.cons_coe,
      ← Multiset.singleton_add]
    abel
  · simp [Call.vacant, stage]
  · apply consistent.held_of_live found
    · exact fun _ live => live
    · simp [Stage.holdsHandle]

theorem push_cases {handle value : ℕ} (pushed : machine.push handle value = some next) :
    ∃ batch, next = { machine with channel := machine.channel.setBatch handle batch } := by
  unfold push at pushed
  split at pushed
  · simp at pushed
  · simp only [Option.bind_eq_some_iff, Option.map_eq_some_iff] at pushed
    rcases pushed with ⟨_, -, batch, -, rfl⟩
    exact ⟨batch, rfl⟩

theorem clone_cases {handle : ℕ} (cloned : machine.clone handle = some next) :
    next = { machine with channel :=
      { machine.channel with producers := machine.channel.producers ++ [some .new] } } := by
  unfold clone at cloned
  split at cloned
  · simp at cloned
  · simp only [Option.map_eq_some_iff] at cloned
    rcases cloned with ⟨channel, cloned, rfl⟩
    rw [Channel.clone_eq_some cloned]

theorem step_consistent (consistent : machine.Consistent)
    (stepped : machine.step action = some next) : next.Consistent := by
  rw [step_eq_some] at stepped
  cases action with
  | push handle value =>
      rcases push_cases (map_ok_eq_some.mp stepped) with ⟨batch, rfl⟩
      apply consistent.of_channel
      · rfl
      · rfl
      · exact fun _ _ _ live => Channel.setBatch_isSome live
  | clone handle =>
      rw [clone_cases (map_ok_eq_some.mp stepped)]
      apply consistent.of_channel
      · rfl
      · rfl
      · intro call _ _ live
        rcases Option.isSome_iff_exists.mp live with ⟨batch, held⟩
        have inRange := Channel.batch?_lt held
        rwa [Channel.batch?, List.getElem?_append_left inRange]
  | enter handle site dropping => exact consistent.enter (map_ok_eq_some.mp stepped)
  | advance position =>
      rcases advanced_of_advance stepped with ⟨call, found, advanced⟩
      exact consistent.advanced found advanced
  | dropSlot position pick => exact consistent.dropSlot stepped
  | sync =>
      simp only [perform, Option.some.injEq, Except.ok.injEq] at stepped
      subst next
      apply consistent.of_channel
      · exact Channel.popAll_ids _ _
      · rfl
      · exact fun _ _ _ live => live
  | pop =>
      simp only [perform, Option.some.injEq, Except.ok.injEq] at stepped
      subst next
      apply consistent.of_channel
      · exact Channel.pop_ids machine.channel
      · simp only [Channel.pop]
        split <;> rfl
      · intro call _ _ live
        rwa [Channel.batch?, Channel.pop_producers]

/-! ## What follows from the invariant -/

theorem Consistent.exact (consistent : machine.Consistent) : machine.Exact := by
  refine ⟨consistent.registryIds_nodup, Multiset.coe_eq_coe.mp consistent.listed,
    consistent.threads, ?_⟩
  intro nothing
  have none_held : (machine.calls.flatMap fun call => call.stage.inners) = [] :=
    List.flatMap_eq_nil_iff.mpr nothing
  have listed := Multiset.coe_eq_coe.mp consistent.listed
  rwa [inners, none_held, List.append_nil] at listed

/-- A ring buffer that is being created has room in the registry. -/
theorem Consistent.room {id : ℕ} (consistent : machine.Consistent)
    (few : machine.FewSlots action) (found : machine.calls[position]? = some call)
    (stage : call.stage = .created id) : machine.channel.registry.elems.length < 4096 := by
  have one := length_le_length_flatMap (fun call : Call => call.stage.consumerHalves)
    (List.mem_of_getElem? found)
  have held : call.stage.consumerHalves.length = 1 := by rw [stage]; rfl
  have listed := congrArg Multiset.card consistent.listed
  simp only [FewSlots, List.length_append] at few
  rw [held] at one
  simp only [Multiset.coe_card, registryIds, List.length_map] at listed
  omega

theorem Consistent.goes_on (consistent : machine.Consistent) (few : machine.FewSlots action)
    (found : machine.calls[position]? = some call) :
    (∃ next, machine.step (.advance position) = some next) ∨
      ∃ slots, call.stage = .tearing slots ∧ slots ≠ [] ∧
        ∀ pick < slots.length, ∃ next, machine.step (.dropSlot position pick) = some next := by
  simp only [step_eq_some, perform]
  cases stage : call.stage with
  | created id =>
      have room := consistent.room few found stage
      simp [advance, found, stage, ArrayVec.tryPush, room]
  | registered id => simp [advance, found, stage]
  | slotted id =>
      have live := consistent.held call (List.mem_of_getElem? found)
        (by simp [stage, Stage.holdsHandle])
      rcases Option.isSome_iff_exists.mp live with ⟨batch, held⟩
      simp [advance, found, stage, held]
  | flushed => simp [advance, found, stage]
  | removed id slots => simp [advance, found, stage]
  | tearing slots =>
      cases slots with
      | nil => simp [advance, found, stage]
      | cons slot slots =>
          right
          refine ⟨slot :: slots, rfl, by simp, ?_⟩
          intro pick inRange
          rcases consistent.dropSlot_spec found stage (List.getElem?_eq_getElem inRange) with
            ⟨-, -, -, registry, -, -, -, -, performed⟩
          exact ⟨_, performed⟩

theorem Consistent.no_panic (consistent : machine.Consistent) (few : machine.FewSlots action)
    (panic : Panic) : machine.perform action ≠ some (.error panic) := by
  intro performed
  cases action with
  | push | clone | enter => simp [perform] at performed
  | sync | pop => simp [perform] at performed
  | advance position =>
      simp only [perform, advance, Option.bind_eq_some_iff] at performed
      rcases performed with ⟨call, found, performed⟩
      split at performed
      · rename_i id stage
        split at performed
        · rename_i refused
          have full := ArrayVec.tryPush_eq_none.mp refused
          have room := consistent.room few found stage
          omega
        · simp at performed
      all_goals simp at performed
  | dropSlot position pick =>
      rcases dropSlot_cases performed with ⟨call, slots, slot, found, stage, picked⟩
      rcases consistent.dropSlot_spec found stage picked with
        ⟨-, -, -, registry, -, -, -, -, dropped⟩
      rw [perform, dropped] at performed
      simp at performed

theorem filter_enqueueMany (channel : Channel) (id : ℕ) (blocks : List Simd) :
    ((channel.enqueueMany id blocks).registry.elems.filter fun spsc => some spsc.id ≠ some id) =
      channel.registry.elems.filter fun spsc => some spsc.id ≠ some id := by
  simp only [Channel.enqueueMany]
  induction channel.registry.elems with
  | nil => rfl
  | cons spsc registry ih =>
      by_cases same : spsc.id = id
      · simpa [same, Spsc.enqueueMany] using ih
      · simpa [same] using ih

theorem Advanced.entriesExcept (advanced : machine.Advanced position call next)
    (found : machine.calls[position]? = some call) :
    next.entriesExcept (machine.target (.advance position)) =
      machine.entriesExcept (machine.target (.advance position)) := by
  cases advanced with
  | @registers id registry stage entries =>
      simp [Machine.entriesExcept, target, found, stage, Machine.goto, entries]
  | @flushes id blocks stage dropping =>
      simp only [Machine.entriesExcept, target, found, Option.bind_some, stage]
      exact filter_enqueueMany machine.channel id blocks
  | @returns id blocks stage =>
      simp only [Machine.entriesExcept, target, found, Option.bind_some, stage]
      exact filter_enqueueMany machine.channel id blocks
  | stores | releases | tears | ends | frees => rfl

theorem Consistent.safe (consistent : machine.Consistent) (few : machine.FewSlots action) :
    machine.Safe action := by
  refine ⟨consistent.no_panic few, ?_, ?_, ?_, fun _ _ => consistent.goes_on few⟩
  · intro position pick call slots slot dropping found stage picked
    rcases consistent.dropSlot_spec found stage picked with
      ⟨before, spsc, after, registry, entries, same, alone, rest, performed⟩
    subst action
    exact ⟨before, spsc, after, _, entries, same, alone, step_eq_some.mpr performed, rest⟩
  · intro next stepped not_sync not_pop
    rw [step_eq_some] at stepped
    cases action with
    | push handle value =>
        rcases push_cases (map_ok_eq_some.mp stepped) with ⟨batch, rfl⟩
        rfl
    | clone handle =>
        rw [clone_cases (map_ok_eq_some.mp stepped)]
        rfl
    | enter handle site dropping =>
        rcases enter_cases (map_ok_eq_some.mp stepped) with rfl | ⟨stage, -, -, -, rfl, -⟩
        · rfl
        · rfl
    | advance position =>
        rcases advanced_of_advance stepped with ⟨call, found, advanced⟩
        exact advanced.entriesExcept found
    | dropSlot position pick =>
        rcases dropSlot_cases stepped with ⟨call, slots, slot, found, stage, picked⟩
        rcases consistent.dropSlot_spec found stage picked with
          ⟨before, spsc, after, registry, entries, same, alone, rest, performed⟩
        rw [perform, performed, Option.some.injEq, Except.ok.injEq] at stepped
        subst next
        simp [entriesExcept, target, found, stage, picked, Machine.goto, entries, rest, same]
    | sync => exact absurd rfl not_sync
    | pop => exact absurd rfl not_pop
  · rintro next stepped (rfl | rfl)
    · simp only [step_eq_some, perform, Option.some.injEq, Except.ok.injEq] at stepped
      subst next
      exact Channel.popAll_ids _ _
    · simp only [step_eq_some, perform, Option.some.injEq, Except.ok.injEq] at stepped
      subst next
      exact Channel.pop_ids machine.channel

/-! ## Runs -/

/-- In every state of every interleaving, the registry lists the live slots, each once, and no
step panics or touches the entry of another ring buffer. -/
theorem registry_consistent {size : ℕ} {actions : List CallAction}
    (few : RunMeets step FewSlots (start size) actions) :
    RunMeets step (fun machine action => machine.Exact ∧ machine.Safe action) (start size)
        actions ∧
      ∀ final, run step (start size) actions = some final → final.Exact := by
  constructor
  · apply few.imp Consistent _ _ (start_consistent size)
    · intro machine action consistent few
      exact ⟨consistent.exact, consistent.safe few⟩
    · intro machine next action consistent _ stepped
      exact step_consistent consistent stepped
  · intro final performed
    apply Consistent.exact
    exact run_invariant_of_step Consistent step_consistent (start_consistent size) performed

/-- Two threads fill their slots at the same time, and the first flush returns after the handle
of the other thread is dropped. The last drop unregisters the slots in the opposite order. -/
def twoThreads : List CallAction :=
  [.clone 0, .push 0 7, .push 1 8, .enter 0 ⟨1, 64⟩ false, .enter 1 ⟨2, 128⟩ true, .advance 1,
    .advance 0, .advance 1, .advance 1, .advance 1, .advance 0, .advance 0, .sync,
    .enter 0 ⟨3, 192⟩ true, .advance 0, .dropSlot 0 1, .advance 0, .dropSlot 0 0]

theorem registry_consistent_twoThreads :
    RunMeets step (fun machine action => machine.Exact ∧ machine.Safe action) (start 4)
        twoThreads ∧
      (run step (start 4) twoThreads).map registryIds = some [] := by
  have few : RunMeets step FewSlots (start 4) twoThreads := by decide +kernel
  exact ⟨(registry_consistent few).1, by decide +kernel⟩

end Machine

end Nethuns.Mpsc
