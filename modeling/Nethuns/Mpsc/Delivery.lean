import Nethuns.Mpsc.Ledger

/-!
# Delivery

The consumer reaches every value in its cache and in the registered queues by popping: `pop`
fails only when both are empty. With the ledger this gives the delivery result for handles that
push multiples of 16 values. The argument counts pushes: without explicit flushes the length of
a live batch is the number of pushes of its handle modulo 16, and a dropped handle pushes no
more, so a short batch can only be lost by a handle whose count is not a multiple of 16.

The values do not reach the consumer at once: a handle keeps its last full batch until it pushes
again, flushes or is dropped, so what the consumer receives lacks the batches of the handles
still live.
-/

namespace Nethuns.Mpsc

open Nethuns.Lib

namespace Channel

/-- Pops up to `count` values, as a consumer that stops at the first `None`. -/
def receive : ℕ → Channel → List ℕ × Channel
  | 0, channel => ([], channel)
  | count + 1, channel =>
      match channel.pop with
      | (none, channel) => ([], channel)
      | (some value, channel) =>
          let (values, channel) := receive count channel
          (value :: values, channel)

theorem popAll_nonempty_of_vec {cap : ℕ} {vec : ArrayVec ℕ cap} (registry : List Spsc)
    (nonempty : vec.elems ≠ []) : (popAll registry vec).2.elems ≠ [] := by
  induction registry generalizing vec with
  | nil => exact nonempty
  | cons spsc rest ih =>
      simp only [popAll]
      apply ih
      simp [drainInto, nonempty]

theorem popAll_nonempty {cap : ℕ} {registry : List Spsc} {vec : ArrayVec ℕ cap}
    (empty : vec.elems = []) (room : 16 ≤ cap)
    (queued : registry.flatMap (fun spsc => Simd.flatten spsc.queue) ≠ []) :
    (popAll registry vec).2.elems ≠ [] := by
  induction registry generalizing vec with
  | nil => simp at queued
  | cons spsc rest ih =>
      have some_room : 0 < (cap - vec.len) / 16 := by
        simp only [ArrayVec.len, empty, List.length_nil, Nat.sub_zero]
        omega
      simp only [popAll]
      cases blocks : spsc.queue with
      | nil =>
          apply ih
          · simp [drainInto, blocks, empty]
          · simpa [blocks] using queued
      | cons block others =>
          apply popAll_nonempty_of_vec
          rcases Nat.exists_eq_succ_of_ne_zero some_room.ne' with ⟨count, remaining⟩
          have lanes : block.lanes ≠ [] := by
            intro none_left
            have := block.length_lanes
            simp [none_left] at this
          simp [drainInto, blocks, remaining, lanes]

theorem card_contents (channel : Channel) :
    channel.contents.card = channel.available + channel.batchedValues.length := by
  simp [contents, available, Nat.add_assoc]

theorem pop_batchedValues (channel : Channel) :
    channel.pop.2.batchedValues = channel.batchedValues := by
  simp only [pop]
  split <;> rfl

theorem restocked_nonempty {channel : Channel} (some_left : 0 < channel.available) :
    (if channel.cached.isEmpty then channel.sync else channel).cached.elems ≠ [] := by
  split
  · rename_i empty
    have cache_empty := channel.cached.isEmpty_iff.mp empty
    apply popAll_nonempty cache_empty (by omega)
    intro none_queued
    simp only [available, cache_empty, queuedValues, none_queued, List.length_nil] at some_left
    omega
  · rename_i nonempty
    simpa using nonempty

theorem pop_isSome {channel : Channel} (some_left : 0 < channel.available) :
    ∃ value, channel.pop.1 = some value := by
  have filled := restocked_nonempty some_left
  simp only [pop, ArrayVec.pop]
  exact Option.ne_none_iff_exists'.mp (by simpa using filled)

theorem available_pop {channel : Channel} {value : ℕ} (popped : channel.pop.1 = some value) :
    channel.pop.2.available + 1 = channel.available := by
  have moved := congrArg Multiset.card (pop_contents channel)
  simp only [Multiset.card_add, card_contents, pop_batchedValues, popped, poppedValues,
    Option.toList_some, Multiset.coe_singleton, Multiset.card_singleton] at moved
  omega

theorem pop_eq_none_iff (channel : Channel) : channel.pop.1 = none ↔ channel.available = 0 := by
  constructor
  · intro failed
    by_contra some_left
    rcases pop_isSome (Nat.pos_of_ne_zero some_left) with ⟨value, popped⟩
    simp [failed] at popped
  · intro nothing
    cases popped : channel.pop.1 with
    | none => rfl
    | some value =>
        have := available_pop popped
        omega

theorem receive_of_some {channel : Channel} {value : ℕ} (popped : channel.pop.1 = some value)
    (count : ℕ) :
    receive (count + 1) channel =
      (value :: (receive count channel.pop.2).1, (receive count channel.pop.2).2) := by
  rw [receive]
  cases whole : channel.pop with
  | mk first later =>
      rw [whole] at popped
      subst popped
      rfl

theorem receive_of_none {channel : Channel} (popped : channel.pop.1 = none) (count : ℕ) :
    receive (count + 1) channel = ([], channel.pop.2) := by
  rw [receive]
  cases whole : channel.pop with
  | mk first later =>
      rw [whole] at popped
      subst popped
      rfl

theorem length_receive (channel : Channel) (count : ℕ) :
    (receive count channel).1.length = min count channel.available ∧
      (receive count channel).2.available + (receive count channel).1.length =
        channel.available := by
  induction count generalizing channel with
  | zero => simp [receive]
  | succ count ih =>
      cases popped : channel.pop.1 with
      | none =>
          have nothing := (pop_eq_none_iff channel).mp popped
          have kept : channel.pop.2.available = channel.available := by
            have moved := congrArg Multiset.card (pop_contents channel)
            simp only [Multiset.card_add, card_contents, pop_batchedValues, popped, poppedValues,
              Option.toList_none, Multiset.coe_nil, Multiset.card_zero] at moved
            omega
          simp [receive_of_none popped, kept, nothing]
      | some value =>
          have rest := available_pop popped
          have later := ih channel.pop.2
          rw [receive_of_some popped]
          simp only [List.length_cons]
          omega

theorem receive_contents (channel : Channel) (count : ℕ) :
    (receive count channel).2.contents + ↑(receive count channel).1 = channel.contents := by
  induction count generalizing channel with
  | zero => simp [receive]
  | succ count ih =>
      have moved := pop_contents channel
      cases popped : channel.pop.1 with
      | none =>
          rw [receive_of_none popped, ← moved, popped]
          rfl
      | some value =>
          rw [receive_of_some popped, ← moved, ← ih channel.pop.2, popped]
          simp only [poppedValues, Option.toList_some, ← Multiset.cons_coe,
            ← Multiset.singleton_add, Multiset.coe_nil, add_zero]
          abel

theorem available_sync (channel : Channel) : channel.sync.available = channel.available := by
  have same := congrArg Multiset.card (sync_contents channel)
  have batched : channel.sync.batchedValues = channel.batchedValues := rfl
  simp only [card_contents, batched] at same
  omega

theorem receive_sync {channel : Channel} (empty : channel.cached.elems = []) (count : ℕ) :
    (receive count channel.sync).1 = (receive count channel).1 := by
  cases count with
  | zero => rfl
  | succ count =>
      have is_empty := channel.cached.isEmpty_iff.mpr empty
      by_cases some_left : 0 < channel.available
      · have filled := restocked_nonempty some_left
        rw [if_pos is_empty] at filled
        have nonempty : channel.sync.cached.isEmpty = false := by
          rw [Bool.eq_false_iff]
          intro still_empty
          exact filled (channel.sync.cached.isEmpty_iff.mp still_empty)
        have same : channel.sync.pop = channel.pop := by
          simp only [pop, is_empty, nonempty, if_true, Bool.false_eq_true, if_false]
        simp only [receive, same]
      · have nothing : channel.available = 0 := by omega
        have synced := (available_sync channel).trans nothing
        rw [receive_of_none ((pop_eq_none_iff _).mpr nothing),
          receive_of_none ((pop_eq_none_iff _).mpr synced)]

/-- Popping as often as values are available yields them all, and leaves the local batches. -/
theorem receive_available (channel : Channel) :
    (↑(receive channel.available channel).1 : Multiset ℕ) + ↑channel.batchedValues =
        channel.contents ∧
      (receive channel.available channel).2.pop.1 = none := by
  generalize count_eq : channel.available = count
  induction count generalizing channel with
  | zero =>
      refine ⟨?_, (pop_eq_none_iff channel).mpr count_eq⟩
      have nothing : channel.cached.elems = [] ∧ channel.queuedValues = [] := by
        simp only [available, Nat.add_eq_zero_iff, List.length_eq_zero_iff] at count_eq
        exact count_eq
      simp [receive, contents, nothing]
  | succ count ih =>
      rcases pop_isSome (show 0 < channel.available by omega) with ⟨value, popped⟩
      have rest := available_pop popped
      have moved := pop_contents channel
      rcases ih channel.pop.2 (by omega) with ⟨received, last⟩
      rw [receive_of_some popped]
      refine ⟨?_, last⟩
      rw [pop_batchedValues] at received
      rw [← moved, ← received, popped]
      simp only [poppedValues, Option.toList_some, ← Multiset.cons_coe,
        ← Multiset.singleton_add, Multiset.coe_nil, add_zero]
      abel

end Channel

namespace Ledger

/-- The number of values a handle has pushed. -/
def pushCount (handle : ℕ) (actions : List Action) : ℕ :=
  actions.countP fun action =>
    match action with
    | .push pusher _ _ => pusher == handle
    | _ => false

/-- The action is not an explicit flush. -/
def NotFlush (action : Action) : Prop := ∀ handle site, action ≠ .flush handle site

/-- What the number of pushes of each handle says about its batch and its losses. -/
structure Tally (ledger : Ledger) : Prop where
  unborn : ∀ handle, ledger.channel.producers.length ≤ handle →
    pushCount handle ledger.history = 0
  live : ∀ handle batch, ledger.channel.batch? handle = some batch →
    batch.elems.length % 16 = pushCount handle ledger.history % 16 ∧
      batch.elems.length ≤ pushCount handle ledger.history
  short : ∀ loss ∈ ledger.losses, ∀ values, loss.discard = .shortBatch values →
    ∃ handle, handle < ledger.channel.producers.length ∧
      ledger.channel.batch? handle = none ∧ pushCount handle ledger.history % 16 ≠ 0
  orphan : ∀ loss ∈ ledger.losses, ∀ block, loss.discard = .orphaned block →
    ledger.channel.alive = false

theorem pushCount_append (handle : ℕ) (history : List Action) (action : Action) :
    pushCount handle (history ++ [action]) =
      pushCount handle history + pushCount handle [action] := by
  simp [pushCount]

theorem pushCount_push (handle pusher value : ℕ) (site : Site) :
    pushCount handle [.push pusher site value] = if pusher = handle then 1 else 0 := by
  simp [pushCount, List.countP_cons]

theorem start_tally (size : ℕ) : (start size).Tally where
  unborn := by simp [start, pushCount]
  live := by
    intro handle batch held
    have stored := Channel.batch?_eq_some.mp held
    simp only [start, Mpsc.channel] at stored
    cases handle with
    | zero =>
        simp only [List.getElem?_cons_zero, Option.some.injEq] at stored
        simp [start, pushCount, ← stored]
    | succ handle => simp at stored
  short := by simp [start]
  orphan := by simp [start]

theorem Tally.short_of_set {ledger : Ledger} {loss : Loss} {values : List ℕ} {handle : ℕ}
    {batch : ArrayVec ℕ 16} {entry : Option (ArrayVec ℕ 16)} {channel : Channel}
    {action : Action} (tally : ledger.Tally) (loss_mem : loss ∈ ledger.losses)
    (lost : loss.discard = .shortBatch values)
    (held : ledger.channel.batch? handle = some batch)
    (producers : channel.producers = ledger.channel.producers.set handle entry)
    (silent : ∀ other, other ≠ handle → pushCount other [action] = 0) :
    ∃ other, other < channel.producers.length ∧ channel.batch? other = none ∧
      pushCount other (ledger.history ++ [action]) % 16 ≠ 0 := by
  rcases tally.short loss loss_mem values lost with ⟨other, inRange, dropped, count⟩
  have different : other ≠ handle := by
    rintro rfl
    rw [held] at dropped
    simp at dropped
  refine ⟨other, by simpa [producers] using inRange, ?_, ?_⟩
  · rw [Channel.batch?, producers, List.getElem?_set_ne (Ne.symm different)]
    exact dropped
  · rw [pushCount_append, silent other different, Nat.add_zero]
    exact count

/-- An action that changes the entry of one live handle keeps the tally, when the books are right
for this handle. -/
theorem Tally.enter_of_set {ledger : Ledger} {handle : ℕ} {old : ArrayVec ℕ 16}
    {entry : Option (ArrayVec ℕ 16)} {channel : Channel} {action : Action}
    {pushed popped : List ℕ} {discards : List Discard} (tally : ledger.Tally)
    (held : ledger.channel.batch? handle = some old)
    (producers : channel.producers = ledger.channel.producers.set handle entry)
    (silent : ∀ other, other ≠ handle → pushCount other [action] = 0)
    (live : ∀ batch, entry = some batch →
      batch.elems.length % 16 = pushCount handle (ledger.history ++ [action]) % 16 ∧
        batch.elems.length ≤ pushCount handle (ledger.history ++ [action]))
    (short : ∀ values, .shortBatch values ∈ discards →
      entry = none ∧ pushCount handle (ledger.history ++ [action]) % 16 ≠ 0)
    (orphan : ∀ block, .orphaned block ∈ discards → channel.alive = false) :
    (ledger.enter action channel pushed popped discards).Tally := by
  have inRange := Channel.batch?_lt held
  have here : channel.batch? handle = entry := by
    rw [Channel.batch?, producers, List.getElem?_set_self inRange, Option.join_some]
  have elsewhere : ∀ other, other ≠ handle →
      channel.batch? other = ledger.channel.batch? other := by
    intro other different
    rw [Channel.batch?, producers, List.getElem?_set_ne (Ne.symm different), Channel.batch?]
  constructor
  · intro other outOfRange
    simp only [enter, producers, List.length_set] at outOfRange ⊢
    rw [pushCount_append, silent other (by omega), tally.unborn other outOfRange]
  · intro other batch otherLive
    simp only [enter] at otherLive ⊢
    by_cases same : other = handle
    · subst other
      exact live batch (here.symm.trans otherLive)
    · rw [pushCount_append, silent other same, Nat.add_zero]
      exact tally.live other batch (elsewhere other same ▸ otherLive)
  · intro loss loss_mem values lost
    simp only [enter, List.mem_append, List.mem_map] at loss_mem ⊢
    rcases loss_mem with earlier | ⟨discard, discard_mem, rfl⟩
    · exact tally.short_of_set earlier lost held producers silent
    · simp only at lost
      subst discard
      rcases short values discard_mem with ⟨dropped, count⟩
      exact ⟨handle, by simpa [producers] using inRange, here.trans dropped, count⟩
  · intro loss loss_mem block lost
    simp only [enter, List.mem_append, List.mem_map] at loss_mem ⊢
    rcases loss_mem with earlier | ⟨discard, discard_mem, rfl⟩
    · have dead := tally.orphan loss earlier block lost
      rw [Channel.batch?_eq_none_of_not_alive dead] at held
      simp at held
    · simp only at lost
      subst discard
      exact orphan block discard_mem

theorem Tally.enter_of_same {ledger : Ledger} {channel : Channel} {action : Action}
    {popped : List ℕ} (tally : ledger.Tally)
    (producers : channel.producers = ledger.channel.producers)
    (silent : ∀ handle, pushCount handle [action] = 0) :
    (ledger.enter action channel [] popped []).Tally := by
  refine ⟨?_, ?_, ?_, ?_⟩ <;>
    simp only [enter, Channel.batch?, Channel.alive, producers, pushCount_append, silent,
      Nat.add_zero, List.map_nil, List.append_nil]
  · exact tally.unborn
  · exact tally.live
  · exact tally.short
  · exact tally.orphan

theorem push_tally {ledger : Ledger} {channel : Channel} {handle value : ℕ} {site : Site}
    {discards : List Discard} (sound : ledger.Sound) (tally : ledger.Tally)
    (pushed : ledger.channel.push handle site value = some (channel, discards)) :
    (ledger.enter (.push handle site value) channel [value] [] discards).Tally := by
  rcases Channel.push_producers pushed with ⟨old, grown, held, producers, length, length_le⟩
  rcases Channel.push_discards sound.wellFormed pushed with ⟨_, _, only_refused⟩
  apply tally.enter_of_set held producers
  · intro other different
    rw [pushCount_push, if_neg (Ne.symm different)]
  · intro batch stored
    rw [Option.some.injEq] at stored
    subst batch
    have before := tally.live handle old held
    rw [pushCount_append, pushCount_push, if_pos rfl]
    exact ⟨by omega, by omega⟩
  · intro values lost
    rcases only_refused _ lost with ⟨block, impossible, -⟩
    simp at impossible
  · intro block lost
    rcases only_refused _ lost with ⟨other, impossible, -⟩
    simp at impossible

theorem drop_tally {ledger : Ledger} {channel : Channel} {handle : ℕ} {site : Site}
    {discards : List Discard} (sound : ledger.Sound) (tally : ledger.Tally)
    (dropped : ledger.channel.drop handle site = some (channel, discards)) :
    (ledger.enter (.drop handle site) channel [] [] discards).Tally := by
  have silent : ∀ other, pushCount other [.drop handle site] = 0 := by simp [pushCount]
  have producers := Channel.drop_producers sound.wellFormed dropped
  rcases Channel.drop_discards sound.wellFormed dropped with ⟨batch, held, ways⟩
  apply tally.enter_of_set held producers
  · exact fun other _ => silent other
  · simp
  · intro values lost
    refine ⟨rfl, ?_⟩
    -- The batch lost here is that of the handle, whose number of pushes it betrays.
    rcases ways _ lost with ⟨-, short, nonempty⟩ | ⟨block, impossible⟩ | ⟨block, impossible, -⟩
    · have before := tally.live handle batch held
      have some_left := List.length_pos_iff.mpr nonempty
      rw [pushCount_append, silent, Nat.add_zero]
      omega
    · simp at impossible
    · simp at impossible
  · intro block lost
    rcases ways _ lost with ⟨impossible, -⟩ | ⟨other, impossible⟩ | ⟨other, -, nobody⟩
    · simp at impossible
    · simp at impossible
    · exact nobody

theorem clone_tally {ledger : Ledger} {channel : Channel} {handle : ℕ} (tally : ledger.Tally)
    (cloned : ledger.channel.clone handle = some channel) :
    (ledger.enter (.clone handle) channel [] [] []).Tally := by
  have producers : channel.producers = ledger.channel.producers ++ [some .new] := by
    rw [Channel.clone_eq_some cloned]
  have silent : ∀ other, pushCount other [.clone handle] = 0 := by simp [pushCount]
  have live_parent : ledger.channel.batch? handle ≠ none := by
    intro dropped
    simp [Channel.clone, dropped] at cloned
  constructor
  · intro other outOfRange
    simp only [enter, producers, List.length_append, List.length_singleton] at outOfRange ⊢
    rw [pushCount_append, silent, tally.unborn other (by omega)]
  · intro other batch live
    simp only [enter] at live ⊢
    rw [pushCount_append, silent, Nat.add_zero]
    rw [Channel.batch?, producers] at live
    rcases Nat.lt_or_ge other ledger.channel.producers.length with old | new
    · rw [List.getElem?_append_left old] at live
      exact tally.live other batch live
    · -- The new handle starts with an empty batch and without pushes.
      rw [tally.unborn other new]
      rw [List.getElem?_append_right new, Option.join_eq_some_iff,
        List.getElem?_singleton] at live
      split at live
      · simp only [Option.some.injEq] at live
        simp [← live]
      · simp at live
  · intro loss loss_mem values lost
    simp only [enter, List.map_nil, List.append_nil] at loss_mem ⊢
    rcases tally.short loss loss_mem values lost with ⟨other, inRange, dropped, count⟩
    refine ⟨other, by simp only [producers, List.length_append]; omega, ?_, ?_⟩
    · rw [Channel.batch?, producers, List.getElem?_append_left inRange]
      exact dropped
    · rw [pushCount_append, silent, Nat.add_zero]
      exact count
  · intro loss loss_mem block lost
    simp only [enter, List.map_nil, List.append_nil] at loss_mem
    have dead := tally.orphan loss loss_mem block lost
    exact absurd (Channel.batch?_eq_none_of_not_alive dead handle) live_parent

theorem step_tally {ledger next : Ledger} {action : Action} (sound : ledger.Sound)
    (tally : ledger.Tally) (notFlush : NotFlush action)
    (performed : ledger.step action = some next) : next.Tally := by
  cases action with
  | push handle site value =>
      simp only [step, Option.map_eq_some_iff] at performed
      rcases performed with ⟨⟨channel, discards⟩, pushed, rfl⟩
      exact push_tally sound tally pushed
  | flush handle site => exact absurd rfl (notFlush handle site)
  | clone handle =>
      simp only [step, Option.map_eq_some_iff] at performed
      rcases performed with ⟨channel, cloned, rfl⟩
      exact clone_tally tally cloned
  | drop handle site =>
      simp only [step, Option.map_eq_some_iff] at performed
      rcases performed with ⟨⟨channel, discards⟩, dropped, rfl⟩
      exact drop_tally sound tally dropped
  | pop =>
      simp only [step, Option.some.injEq] at performed
      subst next
      have silent : ∀ handle, pushCount handle [.pop] = 0 := by simp [pushCount]
      exact tally.enter_of_same (Channel.pop_producers ledger.channel) silent
  | sync =>
      simp only [step, Option.some.injEq] at performed
      subst next
      have silent : ∀ handle, pushCount handle [.sync] = 0 := by simp [pushCount]
      exact tally.enter_of_same rfl silent

theorem step_history {ledger next : Ledger} {action : Action}
    (performed : ledger.step action = some next) : next.history = ledger.history ++ [action] := by
  cases action <;> simp only [step, Option.map_eq_some_iff, Option.some.injEq] at performed
  case push | flush | drop =>
    rcases performed with ⟨⟨channel, discards⟩, -, rfl⟩
    rfl
  case clone =>
    rcases performed with ⟨channel, -, rfl⟩
    rfl
  all_goals
    subst next
    rfl

theorem run_history {ledger final : Ledger} {actions : List Action}
    (performed : run step ledger actions = some final) :
    final.history = ledger.history ++ actions := by
  induction actions generalizing ledger with
  | nil =>
      simp only [run_nil, Option.some.injEq] at performed
      simp [performed]
  | cons action actions ih =>
      rcases run_cons_eq_some.mp performed with ⟨next, stepped, rest⟩
      rw [ih rest, step_history stepped, List.append_assoc]
      rfl

theorem run_sound {size : ℕ} {actions : List Action} {ledger : Ledger}
    (performed : run step (start size) actions = some ledger) : ledger.Sound :=
  run_invariant_of_step Sound step_sound (start_sound size) performed

theorem run_tally {size : ℕ} {actions : List Action} {ledger : Ledger}
    (performed : run step (start size) actions = some ledger)
    (notFlush : ∀ action ∈ actions, NotFlush action) : ledger.Tally := by
  have meets : RunMeets step (fun _ => NotFlush) (start size) actions := by
    apply runMeets_of_forall
    intro action action_mem _
    exact notFlush action action_mem
  have both : ledger.Sound ∧ ledger.Tally := by
    apply run_invariant (fun ledger : Ledger => ledger.Sound ∧ ledger.Tally) _
      ⟨start_sound size, start_tally size⟩ meets performed
    rintro ledger next action ⟨sound, tally⟩ condition stepped
    exact ⟨step_sound sound stepped, step_tally sound tally condition stepped⟩
  exact both.2

/-- The values the consumer has received when it has popped all it can reach. -/
def received (ledger : Ledger) : List ℕ :=
  ledger.popped ++ (Channel.receive ledger.channel.available ledger.channel).1

/-- Without losses the consumer receives all that no live batch withholds. -/
theorem received_add_batchedValues {ledger : Ledger} (balanced : ledger.Balanced)
    (nothing_lost : ledger.losses = []) :
    (↑ledger.received : Multiset ℕ) + ↑ledger.channel.batchedValues = ↑ledger.pushed := by
  rcases Channel.receive_available ledger.channel with ⟨reached, -⟩
  rw [balanced, received, ← Multiset.coe_add, add_assoc, reached, lostValues, nothing_lost]
  simp

/-- Handles that push whole blocks lose nothing as long as the queues have room and some handle is
alive. -/
theorem Tally.nothing_lost {ledger : Ledger} (tally : ledger.Tally)
    (multiples : ∀ handle, 16 ∣ pushCount handle ledger.history)
    (no_overflow : ∀ loss ∈ ledger.losses, ∀ block, loss.discard ≠ .refused block)
    (alive : ledger.channel.alive = true) : ledger.losses = [] := by
  apply List.eq_nil_iff_forall_not_mem.mpr
  intro loss loss_mem
  cases lost : loss.discard with
  | shortBatch values =>
      rcases tally.short loss loss_mem values lost with ⟨handle, -, -, count⟩
      exact count (Nat.mod_eq_zero_of_dvd (multiples handle))
  | refused block => exact no_overflow loss loss_mem block lost
  | orphaned block =>
      rw [tally.orphan loss loss_mem block lost] at alive
      simp at alive

theorem Tally.batchedValues_eq_nil {ledger : Ledger} (tally : ledger.Tally)
    (unused : ∀ handle, ledger.channel.batch? handle ≠ none →
      pushCount handle ledger.history = 0) : ledger.channel.batchedValues = [] := by
  simp only [Channel.batchedValues, List.flatMap_eq_nil_iff]
  intro producer producer_mem
  cases producer with
  | none => rfl
  | some batch =>
      rcases List.getElem?_of_mem producer_mem with ⟨handle, stored⟩
      have held := Channel.batch?_eq_some.mpr stored
      have live := tally.live handle batch held
      rw [unused handle (by simp [held])] at live
      exact List.length_eq_zero_iff.mp (Nat.le_zero.mp live.2)

end Ledger

open Ledger in
/-- The ledger of a channel, and delivery for handles that push multiples of 16 values. -/
theorem channel_ledger {size : ℕ} {actions : List Action} {ledger : Ledger}
    (performed : run Ledger.step (Ledger.start size) actions = some ledger) :
    (↑ledger.pushed : Multiset ℕ) = ↑ledger.popped + (↑ledger.channel.cached.elems +
        ↑ledger.channel.queuedValues + ↑ledger.channel.batchedValues) + ledger.lostValues ∧
      (∀ loss ∈ ledger.losses, loss.Justified) ∧
      (↑ledger.popped : Multiset ℕ) ≤ ↑ledger.pushed ∧
      ((∀ action ∈ actions, NotFlush action) →
        (∀ handle, 16 ∣ pushCount handle actions) →
        (∀ loss ∈ ledger.losses, ∀ block, loss.discard ≠ .refused block) →
        ledger.channel.alive = true →
          (↑ledger.received : Multiset ℕ) + ↑ledger.channel.batchedValues = ↑ledger.pushed ∧
          (∀ handle batch, ledger.channel.batch? handle = some batch →
            batch.elems.length = 0 ∨ batch.elems.length = 16) ∧
          ((∀ handle, ledger.channel.batch? handle ≠ none → pushCount handle actions = 0) →
            (↑ledger.received : Multiset ℕ) = ↑ledger.pushed)) := by
  have sound := run_sound performed
  have balanced := sound.balanced
  refine ⟨balanced, sound.justified, ?_, ?_⟩
  · rw [balanced, add_assoc]
    exact Multiset.le_add_right _ _
  intro notFlush multiples no_overflow alive
  have tally := run_tally performed notFlush
  have history : ledger.history = actions := by simpa [start] using run_history performed
  rw [← history] at multiples ⊢
  have delivered := received_add_batchedValues balanced
    (tally.nothing_lost multiples no_overflow alive)
  refine ⟨delivered, ?_, ?_⟩
  · intro handle batch held
    have live := tally.live handle batch held
    have := batch.length_le
    rw [Nat.mod_eq_zero_of_dvd (multiples handle)] at live
    omega
  · intro unused
    simpa [tally.batchedValues_eq_nil unused] using delivered

/-- A handle that pushes 16 values and is dropped, while the handle it was cloned from lives. -/
def pushAndDrop : List Action :=
  .clone 0 :: (List.range 16).map (fun value => .push 1 ⟨0, 7⟩ value) ++ [.drop 1 ⟨0, 7⟩]

theorem pushCount_pushAndDrop (handle : ℕ) :
    Ledger.pushCount handle pushAndDrop = if handle = 1 then 16 else 0 := by
  by_cases pusher : handle = 1
  · subst handle
    decide
  · simp [pushAndDrop, Ledger.pushCount, List.countP_eq_zero, pusher, Ne.symm pusher]

theorem channel_ledger_pushAndDrop :
    ∃ ledger, run Ledger.step (Ledger.start 4) pushAndDrop = some ledger ∧
      ledger.pushed = List.range 16 ∧
      (↑ledger.received : Multiset ℕ) = ↑ledger.pushed := by
  refine ⟨_, rfl, rfl, ?_⟩
  have performed : run Ledger.step (Ledger.start 4) pushAndDrop = some _ := rfl
  refine ((channel_ledger performed).2.2.2 ?_ ?_ ?_ rfl).2.2 ?_
  · intro action action_mem handle site flushes
    subst action
    simp [pushAndDrop] at action_mem
  · intro handle
    rw [pushCount_pushAndDrop]
    split <;> simp
  · intro loss loss_mem
    change loss ∈ [] at loss_mem
    simp at loss_mem
  · intro handle live
    rw [pushCount_pushAndDrop]
    split
    · subst handle
      exact absurd rfl live
    · rfl

/-- A handle that pushes 16 values and stays alive. -/
def pushAndKeep : List Action :=
  (List.range 16).map fun value => .push 0 ⟨0, 7⟩ value

/-- The full batch of a live handle is not delivered: the consumer finds nothing to pop. -/
theorem pushAndKeep_not_received :
    ∃ ledger, run Ledger.step (Ledger.start 4) pushAndKeep = some ledger ∧
      (∀ action ∈ pushAndKeep, Ledger.NotFlush action) ∧
      (∀ handle, 16 ∣ Ledger.pushCount handle pushAndKeep) ∧
      ledger.losses = [] ∧ ledger.channel.alive = true ∧
      ledger.channel.pop.1 = none ∧
      (↑ledger.received : Multiset ℕ) ≠ ↑ledger.pushed := by
  refine ⟨_, rfl, ?_, ?_, rfl, rfl, rfl, by decide⟩
  · intro action action_mem handle site flushes
    subst action
    simp [pushAndKeep] at action_mem
  · intro handle
    by_cases pusher : handle = 0
    · subst handle
      decide
    · have none_pushed : Ledger.pushCount handle pushAndKeep = 0 := by
        simp [pushAndKeep, Ledger.pushCount, List.countP_eq_zero, Ne.symm pusher]
      simp [none_pushed]

end Nethuns.Mpsc
