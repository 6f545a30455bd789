import Nethuns.Api.PoolIds

/-!
# The receive meter with several sockets

`meter2` makes 63 clones of the context of each of its sockets, and keeps those of all sockets in
one list. It asks the sockets for a token in turn, and makes the token a payload with the next
context of the list, which need not be a context of the socket that the token is from. With the
wrong context `Context::packet` panics. This file determines the runs in which the loop does not
panic: those in which the first 63 packets are from the first socket, the next 63 from the second
one, and so on.
-/

namespace Nethuns.Examples

open Nethuns.Lib Nethuns.Api

/-- The meter: the process with its sockets, the socket that is asked next, and the context that is
used next, by its position in `ctxs`. -/
structure Meter2 where
  process : Process
  i : ℕ
  j : ℕ

/-- The positions of `ctxs` in the list of all contexts: each socket has its own context, and then
the 63 clones. -/
def ctxAt (j : ℕ) : ℕ := j / 63 * 64 + 1 + j % 63

namespace Meter2

/-- Clones the context at a position. -/
def cloneCtx (ctx : ℕ) : ℕ → Process → Option Process
  | 0, process => some process
  | count + 1, process => (process.step (.cloneCtx ctx)).bind (cloneCtx ctx count)

/-- Creates the sockets with the clones of their contexts. -/
def create (backend : Backend) : ℕ → Process → Option Process
  | 0, process => some process
  | count + 1, process =>
      (process.create backend .succeeds).bind fun created =>
        (cloneCtx process.contexts.length (64 - 1) created).bind (create backend count)

def new (backend : Backend) (sockets : ℕ) : Option Meter2 :=
  (create backend sockets .start).map fun process => ⟨process, 0, 0⟩

/-- The closure in the loop: a token of the socket becomes a payload, which is dropped. -/
def receive (meter : Meter2) (idx : ℕ) (len : UInt32) : Option Meter2 :=
  (meter.process.step (.recvToken meter.i idx len)).bind fun process =>
    (process.step (.consume (process.tokens.length - 1) (ctxAt meter.j))).bind fun process =>
      (process.step (.dropPayload (process.payloads.length - 1))).map fun process =>
        { meter with
          process := process
          j := (meter.j + 1) % (63 * meter.process.sockets.length) }

/-- The next socket is asked, which has a packet or not. -/
def step (meter : Meter2) (arrival : Option (ℕ × UInt32)) : Option Meter2 :=
  match arrival with
  | none => some { meter with i := (meter.i + 1) % meter.process.sockets.length }
  | some (idx, len) => (meter.receive idx len).map fun next =>
      { next with i := (meter.i + 1) % meter.process.sockets.length }

/-- The sockets from which packets are received, in order, where the one given is asked first. -/
def sources (sockets : ℕ) : ℕ → List (Option (ℕ × UInt32)) → List ℕ
  | _, [] => []
  | i, none :: arrivals => sources sockets ((i + 1) % sockets) arrivals
  | i, some _ :: arrivals => i :: sources sockets ((i + 1) % sockets) arrivals

/-- The context of a socket of the meter. -/
def ctx (backend : Backend) (socket : ℕ) : PoolCtx :=
  ⟨backend, socket, .ofNat (backend.first + socket)⟩

/-- The process has the given number of sockets, each with its clones, and no token or payload. -/
structure Stocked (backend : Backend) (count : ℕ) (process : Process) : Prop where
  sockets : process.sockets = (List.range count).map (ctx backend)
  contexts : ∀ j < 63 * count, process.contexts[ctxAt j]? = some (ctx backend (j / 63))
  tokens : process.tokens = []
  payloads : process.payloads = []

section Create

variable {backend : Backend} {process next : Process} {count : ℕ}

theorem cloneCtx_spec {position : ℕ} {context : PoolCtx}
    (present : process.contexts[position]? = some context)
    (cloned : cloneCtx position count process = some next) :
    next = { process with contexts := process.contexts ++ List.replicate count context } := by
  induction count generalizing process with
  | zero =>
      rw [cloneCtx, Option.some.injEq] at cloned
      simp [← cloned]
  | succ count ih =>
      simp only [cloneCtx, Process.step, present, Option.map_some, Option.bind_some] at cloned
      rcases List.getElem?_eq_some_iff.mp present with ⟨inside, _⟩
      have still : (process.contexts ++ [context])[position]? = some context := by
        rw [List.getElem?_append_left inside, present]
      rw [ih still cloned]
      simp [List.replicate_succ]

/-- The process while its sockets are created. -/
structure Creating (backend : Backend) (made : ℕ) (process : Process) : Prop extends
    Stocked backend made process where
  counters : process.counters = .after (Function.update (fun _ => 0) backend made)
  length : process.contexts.length = 64 * made

theorem Creating.succ {made : ℕ} {created : Process} (creating : Creating backend made process)
    (creation : process.create backend .succeeds = some created)
    (cloned : cloneCtx process.contexts.length (64 - 1) created = some next) :
    Creating backend (made + 1) next := by
  have number := Counters.fetchAdd_after (Function.update (fun _ => 0) backend made) backend
  rw [Function.update_self, Function.update_idem] at number
  simp only [Process.create, creating.counters, number] at creation
  split at creation
  · rw [Option.some.injEq] at creation
    have fresh : (⟨backend, process.sockets.length, .ofNat (backend.first + made)⟩ : PoolCtx) =
        ctx backend made := by
      rw [creating.sockets, List.length_map, List.length_range, ctx]
    rw [fresh] at creation
    subst created
    have clones := @cloneCtx_spec _ _ _ _ (ctx backend made) (by simp) cloned
    subst next
    refine ⟨⟨?_, ?_, creating.tokens, creating.payloads⟩, rfl, ?_⟩
    · simp only [creating.sockets, List.range_succ, List.map_append, List.map_singleton]
    · intro j inside
      simp only [ctxAt]
      by_cases before : j < 63 * made
      · rw [List.append_assoc, List.getElem?_append_left (by have := creating.length; omega)]
        exact creating.contexts j before
      · have last : j / 63 = made := by omega
        rw [List.getElem?_append_right (by
          rw [List.length_append, creating.length, List.length_singleton]
          omega), List.getElem?_replicate, if_pos (by
          rw [List.length_append, creating.length, List.length_singleton]
          omega), last]
    · simp only [List.length_append, creating.length, List.length_singleton,
        List.length_replicate]
      omega
  · cases creation

theorem create_stocked {made : ℕ} (creating : Creating backend made process)
    (created : create backend count process = some next) : Stocked backend (made + count) next := by
  induction count generalizing process made with
  | zero =>
      rw [create, Option.some.injEq] at created
      exact created ▸ creating.toStocked
  | succ count ih =>
      simp only [create, Option.bind_eq_some_iff] at created
      rcases created with ⟨first, creation, cloned, clones, rest⟩
      have later := ih (creating.succ creation clones) rest
      rwa [Nat.add_assoc, Nat.add_comm 1 count] at later

end Create

section Run

variable {backend : Backend} {count received : ℕ} {meter next : Meter2}

/-- The meter after as many packets as given. -/
structure Ready (backend : Backend) (count received : ℕ) (meter : Meter2) : Prop where
  stocked : Stocked backend count meter.process
  asked : meter.i < count
  turn : meter.j = received % (63 * count)

theorem Ready.length (ready : Ready backend count received meter) :
    meter.process.sockets.length = count := by
  rw [ready.stocked.sockets, List.length_map, List.length_range]

/-- The next context is of the socket that is due. -/
theorem Ready.context (ready : Ready backend count received meter) :
    meter.process.contexts[ctxAt meter.j]? =
      some (ctx backend (received % (63 * count) / 63)) := by
  have positive := ready.asked
  rw [ready.turn]
  exact ready.stocked.contexts _ (Nat.mod_lt _ (by omega))

theorem ctx_index_inj {left right : ℕ} (few : count ≤ UInt32.size) (left_lt : left < count)
    (right_lt : right < count) :
    (ctx backend left).index = (ctx backend right).index ↔ left = right := by
  constructor
  · intro same
    have numbers := congrArg UInt32.toNat same
    simp only [ctx, UInt32.toNat_ofNat'] at numbers
    simp only [UInt32.size] at few
    omega
  · intro same
    rw [same]

theorem step_none (ready : Ready backend count received meter)
    (stepped : meter.step none = some next) : Ready backend count received next := by
  rw [step, Option.some.injEq] at stepped
  subst next
  refine ⟨ready.stocked, ?_, ready.turn⟩
  rw [ready.length]
  exact Nat.mod_lt _ (by have := ready.asked; omega)

/-- A packet is taken if the next context is of the socket that it is from; otherwise the loop
panics. -/
theorem step_some {idx : ℕ} {len : UInt32} (few : count ≤ UInt32.size)
    (ready : Ready backend count received meter) :
    (meter.i = received % (63 * count) / 63 →
      ∃ next, meter.step (some (idx, len)) = some next ∧ next.i = (meter.i + 1) % count ∧
        Ready backend count (received + 1) next) ∧
      (meter.i ≠ received % (63 * count) / 63 → meter.step (some (idx, len)) = none) := by
  have asked := ready.asked
  have due : received % (63 * count) / 63 < count := by
    have bound := Nat.mod_lt received (show 63 * count > 0 by omega)
    omega
  have socket : meter.process.sockets[meter.i]? = some (ctx backend meter.i) := by
    rw [ready.stocked.sockets, List.getElem?_map, List.getElem?_range asked, Option.map_some]
  have checks : (ctx backend (received % (63 * count) / 63)).checkToken
      ⟨idx, len, (ctx backend meter.i).index⟩ = true ↔
        received % (63 * count) / 63 = meter.i := by
    rw [Process.checkToken_eq_true, ctx_index_inj few due asked]
  constructor
  · intro same
    have accepted := checks.mpr same.symm
    refine ⟨_, by
      simp only [step, receive, Process.step, Process.consume, socket, ready.context, accepted,
        ready.stocked.tokens, ready.stocked.payloads, Option.map_some, Option.bind_some, if_true,
        List.nil_append, List.length_singleton, Nat.sub_self, List.getElem?_cons_zero]
      rfl, ?_, ?_⟩
    · simp only [ready.length]
    · have asked' : (meter.i + 1) % count < count := Nat.mod_lt _ (by omega)
      refine ⟨⟨ready.stocked.sockets, ready.stocked.contexts, ?_, ?_⟩, ?_, ?_⟩
      · simp
      · simp
      · simpa only [ready.length] using asked'
      · simp only [ready.length, ready.turn, Nat.mod_add_mod]
  · intro different
    have refused := mt checks.mp (Ne.symm different)
    simp only [step, receive, Process.step, Process.consume, socket, ready.context, refused,
      ready.stocked.tokens, Option.map_some, Option.bind_some, List.nil_append,
      List.length_singleton, Nat.sub_self, List.getElem?_cons_zero]
    rfl

theorem run_isSome_iff (few : count ≤ UInt32.size) (ready : Ready backend count received meter)
    (arrivals : List (Option (ℕ × UInt32))) :
    (run step meter arrivals).isSome = true ↔
      ∀ n source, (sources count meter.i arrivals)[n]? = some source →
        source = (received + n) % (63 * count) / 63 := by
  induction arrivals generalizing meter received with
  | nil => simp [sources]
  | cons arrival arrivals ih =>
      cases arrival with
      | none =>
          have stepped : meter.step none =
              some { meter with i := (meter.i + 1) % meter.process.sockets.length } := rfl
          rw [run, stepped, Option.bind_some, ih (step_none ready stepped), sources, ready.length]
      | some packet =>
          rcases step_some few ready with ⟨fits, panics⟩
          by_cases same : meter.i = received % (63 * count) / 63
          · rcases fits same with ⟨next, stepped, asked, ready'⟩
            rw [run, stepped, Option.bind_some, ih ready', sources, asked]
            constructor
            · intro later n source found
              cases n with
              | zero =>
                  rw [List.getElem?_cons_zero, Option.some.injEq] at found
                  rw [← found, Nat.add_zero, same]
              | succ n =>
                  rw [List.getElem?_cons_succ] at found
                  rw [later n source found, Nat.add_assoc, Nat.add_comm 1 n]
            · intro all n source found
              rw [all (n + 1) source (by rw [List.getElem?_cons_succ, found]), Nat.add_assoc,
                Nat.add_comm 1 n]
          · rw [run, panics same, Option.bind_none]
            apply iff_of_false
            · exact Bool.false_ne_true
            · intro all
              exact same (all 0 meter.i rfl)

end Run

/-- For every number of sockets of one backend, and however the packets arrive: the loop does not
panic exactly when each packet is from the socket that is due, which changes every 63 packets. -/
theorem meter2_continues_iff {backend : Backend} {count : ℕ} {meter : Meter2}
    (some_socket : 0 < count) (few : count ≤ UInt32.size)
    (created : new backend count = some meter) (arrivals : List (Option (ℕ × UInt32))) :
    (run step meter arrivals).isSome = true ↔
      ∀ n source, (sources count 0 arrivals)[n]? = some source →
        source = n % (63 * count) / 63 := by
  simp only [new, Option.map_eq_some_iff] at created
  rcases created with ⟨process, created, rfl⟩
  have creating : Creating backend 0 .start := by
    refine ⟨⟨rfl, ?_, rfl, rfl⟩, ?_, rfl⟩
    · intro j inside
      omega
    · rw [Function.update_eq_self_iff.mpr rfl]
      rfl
  have stocked := create_stocked creating created
  rw [Nat.zero_add] at stocked
  have ready : Ready backend count 0 ⟨process, 0, 0⟩ :=
    ⟨stocked, some_socket, (Nat.zero_mod _).symm⟩
  simpa only [Nat.zero_add] using run_isSome_iff few ready arrivals

/-- Two sockets with a packet each: the second packet ends the meter. -/
theorem meter2_continues_iff_twoSockets :
    ∃ meter, new .netmap 2 = some meter ∧ run step meter [some (5, 60), some (9, 60)] = none := by
  have created : (new .netmap 2).isSome = true := by decide +kernel
  rcases Option.isSome_iff_exists.mp created with ⟨meter, created⟩
  refine ⟨meter, created, ?_⟩
  rw [← Option.not_isSome_iff_eq_none,
    meter2_continues_iff (by decide) (by decide) created [some (5, 60), some (9, 60)]]
  intro all
  exact absurd (all 1 1 rfl) (by decide)

end Meter2

end Nethuns.Examples
