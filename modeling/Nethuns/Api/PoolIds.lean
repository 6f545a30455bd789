import Nethuns.Api.Pool

/-!
# Pool ids across the backends

A token does not say which backend it is from. `Context::check_token` compares the id in the token
with the `pool_id` of the context, and the ids come from a counter of each backend: those of
AF_XDP, netmap and DPDK start with 0, that of pcap with 1. Two pools of one backend have
different ids, but two pools of different backends can have the same. A context then accepts
a token of another pool, and the buffer is released into a pool that it is not from.

This file models a process that creates sockets of all the backends, and determines for which
sequences of creations the ids identify the pools. A pool is named by the number of the socket
that it was made for.
-/

namespace Nethuns.Api

open Nethuns.Lib

inductive Backend
  | afXdp
  | netmap
  | dpdk
  | pcap
deriving DecidableEq

/-- The counters of the backends: three `AtomicU32`, and `NEXT_POOL_ID`, an `AtomicUsize`. -/
structure Counters where
  afXdp : UInt32
  netmap : UInt32
  dpdk : UInt32
  nextPoolId : UInt64
deriving DecidableEq

namespace Counters

/-- The initial values of the counters. -/
def new : Counters := ⟨0, 0, 0, 1⟩

/-- The `fetch_add` of `Ctx::new` and of `PcapContext::new`. -/
def fetchAdd (counters : Counters) : Backend → UInt32 × Counters
  | .afXdp => (counters.afXdp, { counters with afXdp := counters.afXdp + 1 })
  | .netmap => (counters.netmap, { counters with netmap := counters.netmap + 1 })
  | .dpdk => (counters.dpdk, { counters with dpdk := counters.dpdk + 1 })
  | .pcap =>
      (counters.nextPoolId.toUInt32, { counters with nextPoolId := counters.nextPoolId + 1 })

end Counters

/-- A context: the pool that it gives access to, and its `pool_id`. -/
structure PoolCtx where
  backend : Backend
  pool : ℕ
  index : UInt32
deriving DecidableEq

/-- `Context::check_token`. -/
def PoolCtx.checkToken (ctx : PoolCtx) (token : Token) : Bool := token.bufferPool == ctx.index

/-- How `Socket::create` ends. -/
inductive Creation
  /-- With an error, before it has made a context. -/
  | failsEarly
  /-- With an error, after it has made a context. -/
  | failsLate
  | succeeds
deriving DecidableEq

/-- The ends that the creation of a socket can have: pcap makes its context first, netmap and DPDK
make theirs when nothing can fail any more. -/
def Backend.canEnd : Backend → Creation → Bool
  | .pcap, .failsEarly => false
  | .netmap, .failsLate => false
  | .dpdk, .failsLate => false
  | _, _ => true

/-- A token with the pool that it was received from. -/
structure Received where
  token : Token
  origin : ℕ
deriving DecidableEq

/-- A process with its sockets. -/
structure Process where
  counters : Counters
  /-- The contexts inside the sockets. -/
  sockets : List PoolCtx
  /-- These contexts and their clones. -/
  contexts : List PoolCtx
  tokens : List Received
  payloads : List (Received × PoolCtx)
  /-- The pools that buffers came from and were released into. -/
  released : List (ℕ × ℕ)
deriving DecidableEq

inductive ProcessAction
  | create (backend : Backend) (creation : Creation)
  | cloneCtx (ctx : ℕ)
  | recvToken (socket idx : ℕ) (len : UInt32)
  | consume (token ctx : ℕ)
  | intoToken (payload : ℕ)
  | dropPayload (payload : ℕ)
deriving DecidableEq

namespace Process

def start : Process := ⟨.new, [], [], [], [], []⟩

/-- `Socket::create`. -/
def create (process : Process) (backend : Backend) (creation : Creation) : Option Process :=
  if backend.canEnd creation then
    match creation with
    | .failsEarly => some process
    | .failsLate => some { process with counters := (process.counters.fetchAdd backend).2 }
    | .succeeds =>
        let (index, counters) := process.counters.fetchAdd backend
        let ctx : PoolCtx := ⟨backend, process.sockets.length, index⟩
        some { process with
          counters := counters
          sockets := process.sockets ++ [ctx]
          contexts := process.contexts ++ [ctx] }
  else
    none

/-- `Token::consume`: `none` is the panic of `Context::packet`. -/
def consume (process : Process) (token ctx : ℕ) : Option Process :=
  process.tokens[token]?.bind fun received =>
    process.contexts[ctx]?.bind fun context =>
      if context.checkToken received.token then
        some { process with
          tokens := process.tokens.eraseIdx token
          payloads := process.payloads ++ [(received, context)] }
      else
        none

/-- Performs one action; `none` when it panics, or is not possible. -/
def step (process : Process) : ProcessAction → Option Process
  | .create backend creation => process.create backend creation
  | .cloneCtx ctx =>
      process.contexts[ctx]?.map fun context =>
        { process with contexts := process.contexts ++ [context] }
  | .recvToken socket idx len =>
      process.sockets[socket]?.map fun ctx =>
        { process with tokens := process.tokens ++ [⟨⟨idx, len, ctx.index⟩, ctx.pool⟩] }
  | .consume token ctx => process.consume token ctx
  | .intoToken payload =>
      process.payloads[payload]?.map fun (received, _) =>
        { process with
          tokens := process.tokens ++ [received]
          payloads := process.payloads.eraseIdx payload }
  | .dropPayload payload =>
      process.payloads[payload]?.map fun (received, context) =>
        { process with
          payloads := process.payloads.eraseIdx payload
          released := process.released ++ [(received.origin, context.pool)] }

/-- The ids identify the pools: contexts have the same id when they are of one pool only, a token
is accepted by the contexts of the pool that it was received from and by no others, and every
buffer was released into its own pool. -/
structure Identified (process : Process) : Prop where
  contexts : ∀ first ∈ process.contexts, ∀ second ∈ process.contexts,
    (first.index = second.index ↔ first.pool = second.pool)
  checks : ∀ received ∈ process.tokens, ∀ context ∈ process.contexts,
    (context.checkToken received.token = true ↔ context.pool = received.origin)
  consumes : ∀ token ctx received context, process.tokens[token]? = some received →
    process.contexts[ctx]? = some context →
      ((process.consume token ctx).isSome = true ↔ context.pool = received.origin)
  releases : ∀ release ∈ process.released, release.1 = release.2

end Process

/-! ## The numbers of the sockets -/

/-- The first value of the counter of a backend. -/
def Backend.first : Backend → ℕ
  | .pcap => 1
  | _ => 0

/-- The backend and the number of each socket that a sequence of actions creates: the first value
of the counter, and how many contexts of the backend were made before. -/
def numbers (made : Backend → ℕ) : List ProcessAction → List (Backend × ℕ)
  | [] => []
  | .create backend .succeeds :: actions =>
      (backend, backend.first + made backend) ::
        numbers (Function.update made backend (made backend + 1)) actions
  | .create backend .failsLate :: actions =>
      numbers (Function.update made backend (made backend + 1)) actions
  | _ :: actions => numbers made actions

/-- How many sockets the actions try to create. -/
def creations (actions : List ProcessAction) : ℕ :=
  actions.countP fun action =>
    match action with
    | .create _ _ => true
    | _ => false

/-- No two sockets of different backends have the same number. -/
def Apart (actions : List ProcessAction) : Prop :=
  (numbers (fun _ => 0) actions).Pairwise fun left right => left.2 = right.2 → left.1 = right.1

instance (actions : List ProcessAction) : Decidable (Apart actions) :=
  inferInstanceAs (Decidable (List.Pairwise _ _))

/-- The counters after the given number of contexts of each backend. -/
def Counters.after (made : Backend → ℕ) : Counters :=
  ⟨.ofNat (made .afXdp), .ofNat (made .netmap), .ofNat (made .dpdk), .ofNat (1 + made .pcap)⟩

theorem Counters.fetchAdd_after (made : Backend → ℕ) (backend : Backend) :
    (Counters.after made).fetchAdd backend =
      (.ofNat (backend.first + made backend),
        Counters.after (Function.update made backend (made backend + 1))) := by
  cases backend with
  | afXdp | netmap | dpdk =>
      simp [fetchAdd, after, Backend.first, UInt32.ofNat_add]
  | pcap =>
      simp [fetchAdd, after, Backend.first, UInt64.ofNat_add, UInt64.add_assoc]

theorem update_made_le (made : Backend → ℕ) (backend other : Backend) :
    made other ≤ Function.update made backend (made backend + 1) other ∧
      Function.update made backend (made backend + 1) other ≤ made other + 1 := by
  by_cases same : other = backend
  · simp [same]
  · simp [Function.update_of_ne same]

theorem numbers_le {made : Backend → ℕ} {actions : List ProcessAction} {number : Backend × ℕ}
    (number_mem : number ∈ numbers made actions) :
    number.1.first + made number.1 ≤ number.2 ∧
      number.2 < number.1.first + made number.1 + creations actions := by
  fun_induction numbers with
  | case1 made => simp at number_mem
  | case2 made backend actions ih =>
      simp only [creations, List.countP_cons_of_pos] at ih ⊢
      rcases List.mem_cons.mp number_mem with rfl | later
      · simp only
        omega
      · have bounds := update_made_le made backend number.1
        have := ih later
        omega
  | case3 made backend actions ih =>
      simp only [creations, List.countP_cons_of_pos] at ih ⊢
      have bounds := update_made_le made backend number.1
      have := ih number_mem
      omega
  | case4 made action actions _ _ ih =>
      have := ih number_mem
      simp only [creations, List.countP_cons] at this ⊢
      omega

theorem numbers_increase (made : Backend → ℕ) (actions : List ProcessAction) :
    (numbers made actions).Pairwise fun left right => left.1 = right.1 → left.2 < right.2 := by
  fun_induction numbers with
  | case1 made => exact List.Pairwise.nil
  | case2 made backend actions ih =>
      refine List.pairwise_cons.mpr ⟨?_, ih⟩
      intro number number_mem same
      have := (numbers_le number_mem).1
      simp only at same
      simp only [← same, Function.update_self] at this ⊢
      omega
  | case3 made backend actions ih => exact ih
  | case4 made action actions _ _ ih => exact ih

theorem apart_iff (actions : List ProcessAction) :
    Apart actions ↔ ((numbers (fun _ => 0) actions).map Prod.snd).Nodup := by
  have increase := numbers_increase (fun _ => 0) actions
  rw [Apart, List.Nodup, List.pairwise_map]
  constructor
  · intro apart
    apply (apart.and increase).imp
    rintro left right ⟨apart, increase⟩ same
    exact Nat.ne_of_lt (increase (apart same)) same
  · intro distinct
    exact distinct.imp fun different same => absurd same different

namespace Process

variable {process next final : Process} {action : ProcessAction} {actions : List ProcessAction}

/-- A creation that gets to the point numbers a context. -/
theorem step_sockets {made : Backend → ℕ} (counted : process.counters = .after made)
    (stepped : process.step action = some next) (rest : List ProcessAction) :
    ∃ made', next.counters = .after made' ∧
      process.sockets.map PoolCtx.index ++
          (numbers made (action :: rest)).map (fun number => UInt32.ofNat number.2) =
        next.sockets.map PoolCtx.index ++
          (numbers made' rest).map fun number => UInt32.ofNat number.2 := by
  cases action with
  | create backend creation =>
      have added := Counters.fetchAdd_after made backend
      simp only [step, create] at stepped
      split at stepped
      · cases creation with
        | failsEarly =>
            simp only [Option.some.injEq] at stepped
            subst next
            exact ⟨made, counted, rfl⟩
        | failsLate =>
            simp only [Option.some.injEq] at stepped
            subst next
            refine ⟨_, ?_, rfl⟩
            simp only [counted, added]
        | succeeds =>
            simp only [counted, added, Option.some.injEq] at stepped
            subst next
            refine ⟨_, rfl, ?_⟩
            simp [numbers]
      · simp at stepped
  | consume token ctx =>
      simp only [step, consume, Option.bind_eq_some_iff] at stepped
      rcases stepped with ⟨received, -, context, -, consumed⟩
      split at consumed
      · simp only [Option.some.injEq] at consumed
        subst next
        exact ⟨made, counted, rfl⟩
      · simp at consumed
  | cloneCtx _ | recvToken _ _ _ | intoToken _ | dropPayload _ =>
      simp only [step, Option.map_eq_some_iff] at stepped
      rcases stepped with ⟨_, -, rfl⟩
      exact ⟨made, counted, rfl⟩

theorem run_sockets {made : Backend → ℕ} (counted : process.counters = .after made)
    (performed : run step process actions = some final) :
    process.sockets.map PoolCtx.index ++
        (numbers made actions).map (fun number => UInt32.ofNat number.2) =
      final.sockets.map PoolCtx.index := by
  induction actions generalizing process made with
  | nil =>
      simp only [run_nil, Option.some.injEq] at performed
      subst final
      simp [numbers]
  | cons action actions ih =>
      rcases run_cons_eq_some.mp performed with ⟨next, stepped, rest⟩
      rcases step_sockets counted stepped actions with ⟨made', counted', same⟩
      rw [same, ih counted' rest]

/-! ## What the ids are compared for -/

/-- Contexts are those of the sockets, tokens carry the id of a socket, and a payload has a
context with the id of its token. -/
structure Coherent (process : Process) : Prop where
  pools : process.sockets.map PoolCtx.pool = List.range process.sockets.length
  mem_contexts : ∀ context, context ∈ process.contexts ↔ context ∈ process.sockets
  tokens : ∀ received ∈ process.tokens, ∃ ctx ∈ process.sockets,
    ctx.index = received.token.bufferPool ∧ ctx.pool = received.origin
  payloads : ∀ payload ∈ process.payloads, ∃ ctx ∈ process.sockets,
    ctx.index = payload.1.token.bufferPool ∧ ctx.pool = payload.1.origin ∧
      payload.2 ∈ process.sockets ∧ payload.2.index = ctx.index
  released : ∀ release ∈ process.released, ∃ ctx ∈ process.sockets, ∃ other ∈ process.sockets,
    ctx.index = other.index ∧ release = (ctx.pool, other.pool)

theorem start_coherent : start.Coherent :=
  ⟨rfl, by simp [start], by simp [start], by simp [start], by simp [start]⟩

theorem Coherent.pool_inj (coherent : process.Coherent) {left right : PoolCtx}
    (left_mem : left ∈ process.sockets) (right_mem : right ∈ process.sockets)
    (same : left.pool = right.pool) : left = right := by
  have distinct : (process.sockets.map PoolCtx.pool).Nodup := by
    rw [coherent.pools]
    exact List.nodup_range
  exact List.inj_on_of_nodup_map distinct left_mem right_mem same

theorem checkToken_eq_true {ctx : PoolCtx} {token : Token} :
    ctx.checkToken token = true ↔ ctx.index = token.bufferPool := by
  rw [PoolCtx.checkToken, beq_iff_eq]
  exact eq_comm

/-- The ids identify the pools exactly when the sockets have different ids. -/
theorem Coherent.identified_iff (coherent : process.Coherent) :
    process.Identified ↔ (process.sockets.map PoolCtx.index).Nodup := by
  constructor
  · intro identified
    have sockets : process.sockets.Nodup := by
      apply List.Nodup.of_map PoolCtx.pool
      rw [coherent.pools]
      exact List.nodup_range
    apply sockets.map_on
    intro left left_mem right right_mem same
    apply coherent.pool_inj left_mem right_mem
    exact (identified.contexts left ((coherent.mem_contexts left).mpr left_mem) right
      ((coherent.mem_contexts right).mpr right_mem)).mp same
  · intro distinct
    have index_inj : ∀ left ∈ process.sockets, ∀ right ∈ process.sockets,
        (left.index = right.index ↔ left.pool = right.pool) := by
      intro left left_mem right right_mem
      constructor
      · intro same
        rw [List.inj_on_of_nodup_map distinct left_mem right_mem same]
      · intro same
        rw [coherent.pool_inj left_mem right_mem same]
    have checks : ∀ received ∈ process.tokens, ∀ context ∈ process.contexts,
        (context.checkToken received.token = true ↔ context.pool = received.origin) := by
      intro received received_mem context context_mem
      rcases coherent.tokens received received_mem with ⟨ctx, ctx_mem, index, pool⟩
      rw [checkToken_eq_true, ← index, ← pool]
      exact index_inj context ((coherent.mem_contexts context).mp context_mem) ctx ctx_mem
    refine ⟨?_, checks, ?_, ?_⟩
    · intro left left_mem right right_mem
      exact index_inj left ((coherent.mem_contexts left).mp left_mem) right
        ((coherent.mem_contexts right).mp right_mem)
    · intro token ctx received context at_token at_ctx
      rw [← checks received (List.mem_of_getElem? at_token) context (List.mem_of_getElem? at_ctx)]
      simp only [consume, at_token, at_ctx, Option.bind_some]
      split <;> simp_all
    · intro release release_mem
      rcases coherent.released release release_mem with ⟨ctx, ctx_mem, other, other_mem, index, rfl⟩
      exact (index_inj ctx ctx_mem other other_mem).mp index

/-- A new socket has a pool of its own. -/
theorem Coherent.create {backend : Backend} {creation : Creation} (coherent : process.Coherent)
    (created : process.create backend creation = some next) : next.Coherent := by
  simp only [Process.create] at created
  split at created
  · cases creation with
    | failsEarly | failsLate =>
        simp only [Option.some.injEq] at created
        subst next
        exact { coherent with }
    | succeeds =>
        simp only [Option.some.injEq] at created
        subst next
        refine ⟨?_, ?_, ?_, ?_, ?_⟩
        · simp only [List.map_append, coherent.pools, List.map_cons, List.map_nil,
            List.length_append, List.length_singleton, List.range_succ]
        · intro context
          simp only [List.mem_append, coherent.mem_contexts]
        · intro received received_mem
          rcases coherent.tokens received received_mem with ⟨ctx, ctx_mem, same⟩
          exact ⟨ctx, List.mem_append_left _ ctx_mem, same⟩
        · intro payload payload_mem
          rcases coherent.payloads payload payload_mem with
            ⟨ctx, ctx_mem, index, pool, other_mem, same⟩
          exact ⟨ctx, List.mem_append_left _ ctx_mem, index, pool,
            List.mem_append_left _ other_mem, same⟩
        · intro release release_mem
          rcases coherent.released release release_mem with ⟨ctx, ctx_mem, other, other_mem, same⟩
          exact ⟨ctx, List.mem_append_left _ ctx_mem, other, List.mem_append_left _ other_mem,
            same⟩
  · simp at created

theorem Coherent.cloneCtx {ctx : ℕ} (coherent : process.Coherent)
    (stepped : process.step (.cloneCtx ctx) = some next) : next.Coherent := by
  simp only [step, Option.map_eq_some_iff] at stepped
  rcases stepped with ⟨context, at_ctx, rfl⟩
  have cloned := (coherent.mem_contexts context).mp (List.mem_of_getElem? at_ctx)
  refine { coherent with mem_contexts := ?_ }
  intro other
  simp only [List.mem_append, List.mem_singleton, coherent.mem_contexts]
  constructor
  · rintro (old | rfl)
    · exact old
    · exact cloned
  · exact Or.inl

theorem Coherent.recvToken {socket idx : ℕ} {len : UInt32} (coherent : process.Coherent)
    (stepped : process.step (.recvToken socket idx len) = some next) : next.Coherent := by
  simp only [step, Option.map_eq_some_iff] at stepped
  rcases stepped with ⟨ctx, at_socket, rfl⟩
  refine { coherent with tokens := ?_ }
  intro received received_mem
  rcases List.mem_append.mp received_mem with old | new
  · exact coherent.tokens received old
  · rw [List.mem_singleton.mp new]
    exact ⟨ctx, List.mem_of_getElem? at_socket, rfl, rfl⟩

/-- The context of a new payload has the id of a socket, but may be of another one. -/
theorem Coherent.consume {token ctx : ℕ} (coherent : process.Coherent)
    (consumed : process.consume token ctx = some next) : next.Coherent := by
  simp only [Process.consume, Option.bind_eq_some_iff] at consumed
  rcases consumed with ⟨received, at_token, context, at_ctx, consumed⟩
  split at consumed
  · rename_i accepted
    simp only [Option.some.injEq] at consumed
    subst next
    refine { coherent with tokens := ?_, payloads := ?_ }
    · intro other other_mem
      exact coherent.tokens other (List.mem_of_mem_eraseIdx other_mem)
    · intro payload payload_mem
      rcases List.mem_append.mp payload_mem with old | new
      · exact coherent.payloads payload old
      · rw [List.mem_singleton.mp new]
        rcases coherent.tokens received (List.mem_of_getElem? at_token) with
          ⟨source, source_mem, index, pool⟩
        refine ⟨source, source_mem, index, pool,
          (coherent.mem_contexts context).mp (List.mem_of_getElem? at_ctx), ?_⟩
        rw [index]
        exact checkToken_eq_true.mp accepted
  · simp at consumed

theorem Coherent.intoToken {payload : ℕ} (coherent : process.Coherent)
    (stepped : process.step (.intoToken payload) = some next) : next.Coherent := by
  simp only [step, Option.map_eq_some_iff] at stepped
  rcases stepped with ⟨⟨received, context⟩, at_payload, rfl⟩
  rcases coherent.payloads _ (List.mem_of_getElem? at_payload) with
    ⟨source, source_mem, index, pool, -⟩
  refine { coherent with tokens := ?_, payloads := ?_ }
  · intro other other_mem
    rcases List.mem_append.mp other_mem with old | new
    · exact coherent.tokens other old
    · rw [List.mem_singleton.mp new]
      exact ⟨source, source_mem, index, pool⟩
  · intro other other_mem
    exact coherent.payloads other (List.mem_of_mem_eraseIdx other_mem)

theorem Coherent.dropPayload {payload : ℕ} (coherent : process.Coherent)
    (stepped : process.step (.dropPayload payload) = some next) : next.Coherent := by
  simp only [step, Option.map_eq_some_iff] at stepped
  rcases stepped with ⟨⟨received, context⟩, at_payload, rfl⟩
  rcases coherent.payloads _ (List.mem_of_getElem? at_payload) with
    ⟨source, source_mem, -, pool, context_mem, same⟩
  refine { coherent with payloads := ?_, released := ?_ }
  · intro other other_mem
    exact coherent.payloads other (List.mem_of_mem_eraseIdx other_mem)
  · intro release release_mem
    rcases List.mem_append.mp release_mem with old | new
    · exact coherent.released release old
    · refine ⟨source, source_mem, context, context_mem, same.symm, ?_⟩
      rw [List.mem_singleton.mp new, pool]

theorem Coherent.step (coherent : process.Coherent) (stepped : process.step action = some next) :
    next.Coherent := by
  cases action with
  | create backend creation => exact coherent.create stepped
  | cloneCtx ctx => exact coherent.cloneCtx stepped
  | recvToken socket idx len => exact coherent.recvToken stepped
  | consume token ctx => exact coherent.consume stepped
  | intoToken payload => exact coherent.intoToken stepped
  | dropPayload payload => exact coherent.dropPayload stepped

/-- With fewer than `2 ^ 32` creations the ids identify the pools exactly when no two
sockets of different backends have the same number. -/
theorem poolIds_identify_iff (short : creations actions < 2 ^ 32)
    (performed : run step start actions = some final) : final.Identified ↔ Apart actions := by
  have coherent : final.Coherent :=
    run_invariant_of_step Coherent Coherent.step start_coherent performed
  have counted : start.counters = .after fun _ => 0 := rfl
  have sockets := run_sockets counted performed
  have indices : (final.sockets.map PoolCtx.index) =
      ((numbers (fun _ => 0) actions).map Prod.snd).map UInt32.ofNat := by
    rw [← sockets, List.map_map]
    rfl
  have small : ∀ number ∈ (numbers (fun _ => 0) actions).map Prod.snd, number < 2 ^ 32 := by
    intro number number_mem
    rcases List.mem_map.mp number_mem with ⟨⟨backend, value⟩, value_mem, rfl⟩
    have bound := (numbers_le value_mem).2
    have first : backend.first ≤ 1 := by cases backend <;> decide
    simp only at bound
    omega
  rw [coherent.identified_iff, apart_iff, indices]
  refine ⟨List.Nodup.of_map _, ?_⟩
  apply List.Nodup.map_on
  intro left left_mem right right_mem same
  have equal := congrArg UInt32.toNat same
  rw [UInt32.toNat_ofNat', UInt32.toNat_ofNat', Nat.mod_eq_of_lt (small left left_mem),
    Nat.mod_eq_of_lt (small right right_mem)] at equal
  exact equal

/-- An AF_XDP socket and a pcap socket, and a packet received on the first. -/
def afXdpThenPcap : List ProcessAction :=
  [.create .afXdp .succeeds, .create .pcap .succeeds, .recvToken 0 7 60, .cloneCtx 0,
    .consume 0 2, .dropPayload 0]

/-- The ids of these sockets are 0 and 1. -/
theorem poolIds_identify_afXdpThenPcap :
    ∃ final, run step start afXdpThenPcap = some final ∧ final.Identified := by
  have short : creations afXdpThenPcap < 2 ^ 32 := by decide
  have apart : Apart afXdpThenPcap := by decide
  exact ⟨_, rfl, (poolIds_identify_iff short rfl).mpr apart⟩

/-- A netmap socket and an AF_XDP socket; a packet received on the first is consumed through the
context of the second. -/
def netmapThenAfXdp : List ProcessAction :=
  [.create .netmap .succeeds, .create .afXdp .succeeds, .recvToken 0 5 60, .consume 0 1,
    .dropPayload 0]

/-- The context of the AF_XDP socket accepts the token of the netmap socket, and the buffer is
released into the wrong pool. -/
theorem netmapToken_released_by_afXdp :
    ∃ final, run step start netmapThenAfXdp = some final ∧ final.released = [(0, 1)] ∧
      ¬final.Identified := by
  refine ⟨_, rfl, rfl, ?_⟩
  intro identified
  have own := identified.releases (0, 1) (by decide)
  simp at own

end Process

end Nethuns.Api
