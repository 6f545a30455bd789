import Nethuns.AfXdp.Xsk
import Nethuns.ArrayVec
import Nethuns.Lib.Run

/-!
# The receive ring of an AF_XDP socket

`RxRing` takes up to 32 descriptors from the ring at once, stores them in reverse order in a
cache, releases them to the kernel and then pops them from the cache one by one. It runs over
the batch with a range of `u32` indices, whose end is computed modulo `2 ^ 32`: a batch that
reaches the end of the index space has an empty range. The cache is then empty and popping it
unchecked is undefined behaviour, while the descriptors of the batch have been released. This
file shows that nothing else can go wrong: the descriptors returned are those published by the
kernel, in order, in exactly the runs without such a batch.
-/

namespace Nethuns.AfXdp

open Nethuns.Lib

/-- `xdp_desc` and its copy `XdpDescData`. -/
structure XdpDesc where
  addr : UInt64
  len : UInt32
  options : UInt32
deriving DecidableEq

structure RxRing where
  rx : XskRing XdpDesc
  cached : ArrayVec XdpDesc 32

namespace RxRing

/-- `RxRing::advance`: `none` is undefined behaviour, pushing onto a full cache or popping an
empty one unchecked. -/
def advance (ring : RxRing) : Option (Option XdpDesc × RxRing) :=
  match ring.cached.pop with
  | (some desc, cached) => some (some desc, { ring with cached := cached })
  | (none, _) =>
      let (rcvd, idxRx, rx) := ring.rx.consPeek 32 0
      if rcvd = 0 then
        some (none, { ring with rx := rx })
      else
        let batch := (indices idxRx (rcvd + idxRx)).reverse.map rx.entry
        if room : batch.length ≤ 32 then
          match (ArrayVec.mk batch room).pop with
          | (none, _) => none
          | (some desc, cached) => some (some desc, ⟨rx.consRelease rcvd, cached⟩)
        else
          none

/-- How many descriptors the next call takes from the ring: those it knows of, or else those
published, and at most 32. -/
def batch (ring : RxRing) : ℕ := ring.rx.available 32

/-- The next call does not take a batch that reaches the end of the index space. -/
def NoWrap (ring : RxRing) : Prop :=
  ring.cached.elems = [] → ring.batch ≠ 0 → ring.rx.cachedCons.toNat + ring.batch < 2 ^ 32

instance (ring : RxRing) : Decidable ring.NoWrap :=
  inferInstanceAs (Decidable (_ → _ → _))

/-- The descriptors that are still to be returned: those in the cache and those in the ring. -/
def waiting (ring : RxRing) : List XdpDesc := ring.cached.elems.reverse ++ ring.rx.pending

variable {ring next : RxRing}

theorem advance_cached {desc : XdpDesc} {rest : List XdpDesc} (consuming : ring.rx.Consuming)
    (cached : ring.cached.elems = rest ++ [desc]) :
    ∃ next, ring.advance = some (some desc, next) ∧ next.rx.Consuming ∧
      ring.waiting = desc :: next.waiting := by
  have rest_le : rest.length ≤ 32 := by
    have := ring.cached.length_le
    simp only [cached, List.length_append, List.length_singleton] at this
    omega
  have popped : ring.cached.pop = (some desc, ⟨rest, rest_le⟩) :=
    ArrayVec.pop_of_elems_append cached
  refine ⟨{ ring with cached := ⟨rest, rest_le⟩ }, ?_, consuming, ?_⟩
  · simp only [advance, popped]
  · simp [waiting, cached]

theorem pop_empty (cached : ring.cached.elems = []) : ∃ rest, ring.cached.pop = (none, rest) :=
  ⟨ring.cached.pop.2, by simp [ArrayVec.pop, cached]⟩

theorem advance_empty (consuming : ring.rx.Consuming) (cached : ring.cached.elems = [])
    (nothing : ring.batch = 0) :
    ∃ next, ring.advance = some (none, next) ∧ next.rx.Consuming ∧ ring.waiting = [] ∧
      next.waiting = [] := by
  rcases pop_empty cached with ⟨rest, popped⟩
  rcases ring.rx.consPeek_spec 32 0 with ⟨entries, count, peeked⟩
  replace count : entries.toNat = ring.batch := count
  have none_taken : entries = 0 := by
    rw [← UInt32.toNat_inj, count, nothing]
    rfl
  subst entries
  have pending := consuming.pending_eq_nil (by decide) nothing
  have within : (0 : UInt32).toNat ≤ (ring.rx.known - ring.rx.cachedCons).toNat := Nat.zero_le _
  rcases consuming.take within with ⟨consuming', pending'⟩
  have same : (ring.rx.peeked 0).consRelease 0 = ring.rx.peeked 0 := by
    simp [XskRing.consRelease]
  rw [same] at consuming' pending'
  refine ⟨{ ring with rx := ring.rx.peeked 0 }, ?_, consuming', ?_, ?_⟩
  · simp only [advance, popped, peeked, if_true]
  · simp [waiting, cached, pending]
  · rw [pending] at pending'
    simpa [waiting, cached] using pending'.symm

/-- A batch that does not reach the end of the index space is returned from its first
descriptor on. -/
theorem advance_batch (consuming : ring.rx.Consuming) (cached : ring.cached.elems = [])
    (some_left : ring.batch ≠ 0) (noWrap : ring.rx.cachedCons.toNat + ring.batch < 2 ^ 32) :
    ∃ desc next, ring.advance = some (some desc, next) ∧ next.rx.Consuming ∧
      ring.waiting = desc :: next.waiting := by
  rcases pop_empty cached with ⟨rest, popped⟩
  rcases ring.rx.consPeek_spec 32 0 with ⟨entries, count, peeked⟩
  replace count : entries.toNat = ring.batch := count
  have nonzero : entries ≠ 0 := by
    rintro rfl
    exact some_left count.symm
  have few : entries.toNat ≤ 32 := by
    rw [count]
    exact Nat.min_le_left _ _
  have within : entries.toNat ≤ (ring.rx.known - ring.rx.cachedCons).toNat := by
    rw [count]
    exact Nat.min_le_right _ _
  rcases consuming.take within with ⟨consuming', pending⟩
  -- The ring after the peek has the same entries, so the batch is a window of them.
  have read : (indices ring.rx.cachedCons (entries + ring.rx.cachedCons)).map
      (ring.rx.peeked entries).entry =
      window ring.rx.ring ring.rx.size.toNat ring.rx.cachedCons.toNat entries.toNat := by
    rw [← consuming.wellFormed.map_entry (by rw [count]; exact noWrap)]
    rfl
  cases taken : window ring.rx.ring ring.rx.size.toNat ring.rx.cachedCons.toNat entries.toNat with
  | nil =>
      have length := congrArg List.length taken
      simp only [length_window, List.length_nil] at length
      exact absurd (count.symm.trans length) some_left
  | cons desc later =>
      have length := congrArg List.length taken
      simp only [length_window, List.length_cons] at length
      have later_le : later.reverse.length ≤ 32 := by
        simp only [List.length_reverse]
        omega
      have room : (later.reverse ++ [desc]).length ≤ 32 := by
        simp only [List.length_append, List.length_reverse, List.length_singleton]
        omega
      have first : (ArrayVec.mk _ room).pop = (some desc, ⟨later.reverse, later_le⟩) :=
        ArrayVec.pop_of_elems_append rfl
      refine ⟨desc, ⟨(ring.rx.peeked entries).consRelease entries, ⟨later.reverse, later_le⟩⟩, ?_,
        consuming', ?_⟩
      · simp only [advance, popped, peeked, if_neg nonzero, List.map_reverse, read, taken,
          List.reverse_cons, dif_pos room, first]
      · simp [waiting, cached, pending, taken]

theorem advance_wrap (cached : ring.cached.elems = []) (some_left : ring.batch ≠ 0)
    (wraps : 2 ^ 32 ≤ ring.rx.cachedCons.toNat + ring.batch) : ring.advance = none := by
  rcases pop_empty cached with ⟨rest, popped⟩
  rcases ring.rx.consPeek_spec 32 0 with ⟨entries, count, peeked⟩
  replace count : entries.toNat = ring.batch := count
  have nonzero : entries ≠ 0 := by
    rintro rfl
    exact some_left count.symm
  have unread : indices ring.rx.cachedCons (entries + ring.rx.cachedCons) = [] := by
    apply XskRing.indices_of_wrap
    rw [count]
    exact wraps
  simp only [advance, popped, peeked, if_neg nonzero, unread]
  rfl

theorem advance_cases (consuming : ring.rx.Consuming) (noWrap : ring.NoWrap) :
    (∃ next, ring.advance = some (none, next) ∧ next.rx.Consuming ∧ ring.waiting = [] ∧
        next.waiting = []) ∨
      ∃ desc next, ring.advance = some (some desc, next) ∧ next.rx.Consuming ∧
        ring.waiting = desc :: next.waiting := by
  rcases List.eq_nil_or_concat ring.cached.elems with cached | ⟨rest, desc, cached⟩
  · by_cases nothing : ring.batch = 0
    · exact Or.inl (advance_empty consuming cached nothing)
    · exact Or.inr (advance_batch consuming cached nothing (noWrap cached nothing))
  · rw [List.concat_eq_append] at cached
    exact Or.inr ⟨desc, advance_cached consuming cached⟩

/-- When nothing waits, a call is defined and returns nothing. -/
theorem advance_silent (consuming : ring.rx.Consuming) (silent : ring.waiting = []) :
    ∃ next, ring.advance = some (none, next) ∧ next.rx.Consuming ∧ next.waiting = [] := by
  simp only [waiting, List.append_eq_nil_iff, List.reverse_eq_nil_iff] at silent
  have nothing : ring.batch = 0 := by
    have length := congrArg List.length silent.2
    simp only [XskRing.pending, length_window, List.length_nil] at length
    have known_le := consuming.known_le
    rw [consuming.released, length] at known_le
    simp only [batch, XskRing.available, consuming.released]
    omega
  rcases advance_empty consuming silent.1 nothing with ⟨next, advanced, consuming', -, waiting⟩
  exact ⟨next, advanced, consuming', waiting⟩

/-- A call that is defined returns the first of the waiting descriptors. -/
theorem advance_spec {found : Option XdpDesc} (consuming : ring.rx.Consuming)
    (advanced : ring.advance = some (found, next)) :
    next.rx.Consuming ∧ ring.waiting = found.toList ++ next.waiting := by
  have noWrap : ring.NoWrap := by
    intro cached some_left
    by_contra wraps
    rw [advance_wrap cached some_left (Nat.not_lt.mp wraps)] at advanced
    simp at advanced
  rcases advance_cases consuming noWrap with
    ⟨next', advanced', consuming', waiting, waiting'⟩ |
    ⟨desc, next', advanced', consuming', waiting⟩
  all_goals
    rw [advanced', Option.some.injEq, Prod.mk.injEq] at advanced
    rcases advanced with ⟨rfl, rfl⟩
  · simp [consuming', waiting, waiting']
  · simp [consuming', waiting]

end RxRing

/-! ## Runs of the kernel and of the receiver -/

/-- The receive ring with the descriptors published by the kernel and returned by `next` so
far. -/
structure RxTrace where
  ring : RxRing
  published : List XdpDesc
  returned : List XdpDesc

/-- The kernel publishes a descriptor, or user space asks for one. -/
inductive RxAction
  | publish (desc : XdpDesc)
  | next

namespace RxTrace

/-- One step; `none` when it is not possible or undefined. -/
def step (trace : RxTrace) : RxAction → Option RxTrace
  | .publish desc =>
      (trace.ring.rx.kernelPublish desc).map fun rx =>
        { trace with
          ring := { trace.ring with rx := rx }
          published := trace.published ++ [desc] }
  | .next =>
      trace.ring.advance.map fun (found, ring) =>
        { trace with ring := ring, returned := trace.returned ++ found.toList }

/-- The call of `next` is defined; what it returns continues the published sequence, and it
returns nothing only when the whole sequence has been returned. -/
def Faithful (trace : RxTrace) : RxAction → Prop
  | .publish _ => True
  | .next =>
      match trace.ring.advance with
      | none => False
      | some (none, _) => trace.returned = trace.published
      | some (some desc, _) => trace.returned ++ [desc] <+: trace.published

/-- The call of `next` takes no batch that reaches the end of the index space. -/
def NoWrap (trace : RxTrace) : RxAction → Prop
  | .publish _ => True
  | .next => trace.ring.NoWrap

instance (trace : RxTrace) (action : RxAction) : Decidable (trace.NoWrap action) :=
  match action with
  | .publish _ => .isTrue trivial
  | .next => inferInstanceAs (Decidable trace.ring.NoWrap)

/-- What has been returned and what is waiting make up what was published. -/
structure Sound (trace : RxTrace) : Prop where
  consuming : trace.ring.rx.Consuming
  stream : trace.published = trace.returned ++ trace.ring.waiting

variable {trace next : RxTrace}

theorem faithful_iff_noWrap {action : RxAction} (sound : trace.Sound) :
    trace.Faithful action ↔ trace.NoWrap action := by
  cases action with
  | publish desc => exact Iff.rfl
  | next =>
      constructor
      · intro faithful cached some_left
        by_contra wraps
        have undefined := RxRing.advance_wrap cached some_left (Nat.not_lt.mp wraps)
        simp [Faithful, undefined] at faithful
      · intro noWrap
        rcases RxRing.advance_cases sound.consuming noWrap with
          ⟨ring, advanced, -, waiting, -⟩ | ⟨desc, ring, advanced, -, waiting⟩
        · simp [Faithful, advanced, sound.stream, waiting]
        · simp only [Faithful, advanced, sound.stream, waiting]
          exact ⟨ring.waiting, by simp⟩

theorem step_sound {action : RxAction} (sound : trace.Sound)
    (stepped : trace.step action = some next) : next.Sound := by
  cases action with
  | publish desc =>
      simp only [step, Option.map_eq_some_iff] at stepped
      rcases stepped with ⟨rx, published, rfl⟩
      rcases sound.consuming.publish published with ⟨consuming, pending⟩
      refine ⟨consuming, ?_⟩
      simp [sound.stream, RxRing.waiting, pending]
  | next =>
      simp only [step, Option.map_eq_some_iff] at stepped
      rcases stepped with ⟨⟨found, ring⟩, advanced, rfl⟩
      rcases RxRing.advance_spec sound.consuming advanced with ⟨consuming, waiting⟩
      refine ⟨consuming, ?_⟩
      simp [sound.stream, waiting]

end RxTrace

/-- Whatever the counters of the ring are at first: in every interleaving of the kernel with the
receiver, the calls of `next` are defined and return the published descriptors in order, exactly
when none of them takes a batch that reaches the end of the index space. -/
theorem rx_stream_iff_noWrap {ring : RxRing} (actions : List RxAction)
    (consuming : ring.rx.Consuming) (empty : ring.cached.elems = []) :
    RunMeets RxTrace.step RxTrace.Faithful ⟨ring, ring.rx.pending, []⟩ actions ↔
      RunMeets RxTrace.step RxTrace.NoWrap ⟨ring, ring.rx.pending, []⟩ actions := by
  apply runMeets_iff RxTrace.Sound
  · exact RxTrace.faithful_iff_noWrap
  · exact fun sound _ => RxTrace.step_sound sound
  · refine ⟨consuming, ?_⟩
    simp [RxRing.waiting, empty]

/-- An empty receive ring of 8 descriptors with its counters at a given value. -/
def emptyRxRing (counter : UInt32) : RxRing where
  rx := ⟨counter, counter, 7, 8, counter, counter, fun _ => ⟨0, 0, 0⟩⟩
  cached := .new

theorem emptyRxRing_consuming (counter : UInt32) : (emptyRxRing counter).rx.Consuming := by
  refine ⟨⟨⟨3, by decide, rfl⟩, rfl, ?_⟩, rfl, ?_⟩
  · simp [emptyRxRing]
  · simp [emptyRxRing]

theorem rx_stream_two :
    RunMeets RxTrace.step RxTrace.Faithful
      ⟨emptyRxRing 0xfffffff0, (emptyRxRing 0xfffffff0).rx.pending, []⟩
      [.publish ⟨4096, 60, 0⟩, .publish ⟨8192, 61, 0⟩, .next, .next, .next] := by
  rw [rx_stream_iff_noWrap _ (emptyRxRing_consuming _) rfl]
  decide

/-- A single descriptor published at the last index of the index space is never returned: the
call is undefined. -/
theorem rx_stream_lost :
    ¬RunMeets RxTrace.step RxTrace.Faithful
        ⟨emptyRxRing 0xffffffff, (emptyRxRing 0xffffffff).rx.pending, []⟩
        [.publish ⟨4096, 60, 0⟩, .next] ∧
      ∃ trace, RxTrace.step ⟨emptyRxRing 0xffffffff, (emptyRxRing 0xffffffff).rx.pending, []⟩
          (.publish ⟨4096, 60, 0⟩) = some trace ∧ trace.ring.rx.pending = [⟨4096, 60, 0⟩] ∧
        trace.ring.advance = none := by
  have undefined : ∃ trace, RxTrace.step
      ⟨emptyRxRing 0xffffffff, (emptyRxRing 0xffffffff).rx.pending, []⟩
        (.publish ⟨4096, 60, 0⟩) = some trace ∧ trace.ring.rx.pending = [⟨4096, 60, 0⟩] ∧
      trace.ring.advance = none := ⟨_, rfl, rfl, rfl⟩
  refine ⟨?_, undefined⟩
  rintro ⟨-, later⟩
  rcases undefined with ⟨trace, stepped, -, undefined⟩
  have faithful := (later trace stepped).1
  simp [RxTrace.Faithful, undefined] at faithful

end Nethuns.AfXdp
