import Nethuns.Mpsc.Capacity

/-!
# Tokens, payloads and the buffer pool of a socket

A socket hands out buffers as tokens. A token is consumed through a context, which yields a
payload; a payload returns its buffer to the free channel when it is dropped, through the
producer of its context, or is turned back into a token. Contexts can be cloned and the clones
dropped, on any thread. All of this is the same for every backend with a free channel: the
state is the channel, the live tokens and the live payloads.

Contexts are numbered like the handles of the channel, the one inside the socket being 0. A
clone cannot be dropped while a payload borrows it, and the context of the socket lives as long
as the socket. A token does not return its buffer when it is dropped; the runs considered here
drop none.
-/

namespace Nethuns.Api

open Nethuns.Lib Nethuns.Mpsc

structure Token where
  idx : ℕ
  len : UInt32
  bufferPool : UInt32
deriving DecidableEq

/-- `Payload`: a token and the context it borrows. -/
structure Payload where
  token : Token
  ctx : ℕ
deriving DecidableEq

/-- The free channel of a socket with the buffers that its users hold. -/
structure Pool where
  channel : Channel
  /-- `pool_id` of the context and of its clones. -/
  index : UInt32
  tokens : List Token
  payloads : List Payload
deriving DecidableEq

/-- What the users of a socket do with its contexts, tokens and payloads. -/
inductive PoolAction
  | consume (token ctx : ℕ)
  | intoToken (payload : ℕ)
  | dropPayload (payload : ℕ) (site : Site)
  | cloneCtx (ctx : ℕ)
  | dropCtx (ctx : ℕ) (site : Site)
deriving DecidableEq

namespace Pool

/-- A new token of this pool. -/
def give (pool : Pool) (idx : ℕ) (len : UInt32) : Pool :=
  { pool with tokens := pool.tokens ++ [⟨idx, len, pool.index⟩] }

/-- `Token::consume`: `none` is the panic of `Context::packet` on a foreign token. -/
def consume (pool : Pool) (position ctx : ℕ) : Option Pool :=
  (pool.channel.batch? ctx).bind fun _ =>
    pool.tokens[position]?.bind fun token =>
      if token.bufferPool = pool.index then
        some { pool with
          tokens := pool.tokens.eraseIdx position
          payloads := pool.payloads ++ [⟨token, ctx⟩] }
      else
        none

/-- `Payload::into_token`. -/
def intoToken (pool : Pool) (position : ℕ) : Option Pool :=
  pool.payloads[position]?.map fun payload =>
    { pool with
      tokens := pool.tokens ++ [payload.token]
      payloads := pool.payloads.eraseIdx position }

/-- `Payload::drop`, that is, `Context::release` of its buffer. -/
def dropPayload (pool : Pool) (position : ℕ) (site : Site) : Option (Pool × List Discard) :=
  pool.payloads[position]?.bind fun payload =>
    (pool.channel.push payload.ctx site payload.token.idx).map fun (channel, discards) =>
      ({ pool with channel := channel, payloads := pool.payloads.eraseIdx position }, discards)

/-- `Ctx::clone`. -/
def cloneCtx (pool : Pool) (ctx : ℕ) : Option Pool :=
  (pool.channel.clone ctx).map fun channel => { pool with channel := channel }

/-- The drop of a cloned context that no payload borrows. -/
def dropCtx (pool : Pool) (ctx : ℕ) (site : Site) : Option (Pool × List Discard) :=
  if ctx = 0 ∨ ctx ∈ pool.payloads.map Payload.ctx then
    none
  else
    (pool.channel.drop ctx site).map fun (channel, discards) =>
      ({ pool with channel := channel }, discards)

/-- Performs one action, with what the channel throws away. -/
def step (pool : Pool) : PoolAction → Option (Pool × List Discard)
  | .consume token ctx => (pool.consume token ctx).map fun pool => (pool, [])
  | .intoToken payload => (pool.intoToken payload).map fun pool => (pool, [])
  | .dropPayload payload site => pool.dropPayload payload site
  | .cloneCtx ctx => (pool.cloneCtx ctx).map fun pool => (pool, [])
  | .dropCtx ctx site => pool.dropCtx ctx site

/-- The buffers in the hands of the users. -/
def issued (pool : Pool) : Multiset ℕ :=
  ↑(pool.tokens.map Token.idx) + ↑(pool.payloads.map fun payload => payload.token.idx)

/-- The tokens that the users hold, those inside payloads included. -/
def liveTokens (pool : Pool) : List Token := pool.tokens ++ pool.payloads.map Payload.token

/-- All the buffers of the pool: with the users, or free. -/
def held (pool : Pool) : Multiset ℕ := pool.issued + pool.channel.contents

/-- The channel is well formed, and the context of the socket is live. -/
structure Sane (pool : Pool) : Prop where
  wellFormed : pool.channel.WellFormed
  live : ∃ batch, pool.channel.batch? 0 = some batch

/-- A cloned context is dropped with an empty or a full batch. -/
def WholeBatch (pool : Pool) : PoolAction → Prop
  | .dropCtx ctx _ =>
      ∀ batch, pool.channel.batch? ctx = some batch → batch.elems.length % 16 = 0
  | _ => True

variable {pool next : Pool} {action : PoolAction} {discards : List Discard}

theorem give_held (pool : Pool) (idx : ℕ) (len : UInt32) :
    (pool.give idx len).held = pool.held + {idx} := by
  simp only [give, held, issued, List.map_append, List.map_cons, List.map_nil,
    ← Multiset.coe_add, Multiset.coe_singleton]
  abel

theorem give_liveTokens {idx : ℕ} {len : UInt32} {token : Token}
    (live : token ∈ (pool.give idx len).liveTokens) :
    token ∈ pool.liveTokens ∨ token = ⟨idx, len, pool.index⟩ := by
  simp only [give, liveTokens, List.mem_append, List.mem_singleton] at live ⊢
  tauto

/-- The pool after a pop of its consumer. -/
def popped (pool : Pool) : Pool := { pool with channel := pool.channel.pop.2 }

theorem popped_held (pool : Pool) :
    pool.popped.held + Channel.poppedValues pool.channel.pop.1 = pool.held := by
  simp only [popped, held, issued, add_assoc, Channel.pop_contents]

theorem popped_held_some {idx : ℕ} (found : pool.channel.pop.1 = some idx) :
    pool.popped.held + {idx} = pool.held := by
  simpa [found, Channel.poppedValues] using pool.popped_held

theorem popped_held_none (failed : pool.channel.pop.1 = none) :
    pool.popped.held = pool.held := by
  simpa [failed, Channel.poppedValues] using pool.popped_held

theorem popped_sane (sane : pool.Sane) : pool.popped.Sane := by
  refine ⟨Channel.pop_wellFormed sane.wellFormed, ?_⟩
  rcases sane.live with ⟨batch, live⟩
  refine ⟨batch, ?_⟩
  simpa only [popped, Channel.batch?_eq_some, Channel.pop_producers] using live

theorem issued_eq_map (pool : Pool) :
    pool.issued = Multiset.map Token.idx ↑pool.liveTokens := by
  simp [issued, liveTokens, Function.comp_def]

/-- What an action can do: move a token between the tokens and the payloads, release the buffer of
a payload, clone a context, or drop a clone. -/
theorem step_cases (stepped : pool.step action = some (next, discards)) :
    next.index = pool.index ∧
      (((↑next.liveTokens : Multiset Token) = ↑pool.liveTokens ∧ next.channel = pool.channel ∧
          discards = [] ∧ pool.WholeBatch action) ∨
        (∃ position site, ∃ payload : Payload, action = .dropPayload position site ∧
          (↑next.liveTokens : Multiset Token) + {payload.token} = ↑pool.liveTokens ∧
          pool.channel.push payload.ctx site payload.token.idx = some (next.channel, discards)) ∨
        (∃ ctx, action = .cloneCtx ctx ∧ next.liveTokens = pool.liveTokens ∧
          pool.channel.clone ctx = some next.channel ∧ discards = []) ∨
        ∃ ctx site, action = .dropCtx ctx site ∧ ctx ≠ 0 ∧ next.liveTokens = pool.liveTokens ∧
          pool.channel.drop ctx site = some (next.channel, discards)) := by
  cases action with
  | consume token ctx =>
      simp only [step, consume, Option.map_eq_some_iff, Option.bind_eq_some_iff,
        Prod.mk.injEq] at stepped
      rcases stepped with ⟨_, ⟨-, -, taken, present, consumed⟩, rfl, rfl⟩
      split at consumed
      · simp only [Option.some.injEq] at consumed
        subst consumed
        refine ⟨rfl, Or.inl ⟨?_, rfl, rfl, trivial⟩⟩
        simp only [liveTokens, List.map_append, List.map_cons, List.map_nil, ← Multiset.coe_add,
          Multiset.coe_singleton, ← coe_eraseIdx present]
        abel
      · simp at consumed
  | intoToken payload =>
      simp only [step, intoToken, Option.map_eq_some_iff, Prod.mk.injEq] at stepped
      rcases stepped with ⟨_, ⟨taken, present, rfl⟩, rfl, rfl⟩
      refine ⟨rfl, Or.inl ⟨?_, rfl, rfl, trivial⟩⟩
      simp only [liveTokens, ← Multiset.coe_add, Multiset.coe_singleton,
        ← coe_map_eraseIdx Payload.token present]
      abel
  | dropPayload position site =>
      simp only [step, dropPayload, Option.bind_eq_some_iff, Option.map_eq_some_iff,
        Prod.mk.injEq] at stepped
      rcases stepped with ⟨taken, present, ⟨channel, lost⟩, pushed, rfl, rfl⟩
      refine ⟨rfl, Or.inr (Or.inl ⟨position, site, taken, rfl, ?_, pushed⟩)⟩
      simp only [liveTokens, ← Multiset.coe_add, add_assoc, coe_map_eraseIdx Payload.token present]
  | cloneCtx ctx =>
      simp only [step, cloneCtx, Option.map_eq_some_iff, Prod.mk.injEq] at stepped
      rcases stepped with ⟨_, ⟨channel, cloned, rfl⟩, rfl, rfl⟩
      exact ⟨rfl, Or.inr (Or.inr (Or.inl ⟨ctx, rfl, rfl, cloned, rfl⟩))⟩
  | dropCtx ctx site =>
      simp only [step, dropCtx] at stepped
      split at stepped
      · simp at stepped
      · rename_i foreign
        simp only [Option.map_eq_some_iff, Prod.mk.injEq] at stepped
        rcases stepped with ⟨⟨channel, lost⟩, dropped, rfl, rfl⟩
        refine ⟨rfl, Or.inr (Or.inr (Or.inr ⟨ctx, site, rfl, ?_, rfl, dropped⟩))⟩
        intro own
        exact foreign (Or.inl own)

theorem step_held (sane : pool.Sane) (stepped : pool.step action = some (next, discards)) :
    next.held + discardedValues discards = pool.held := by
  simp only [held, issued_eq_map]
  rcases step_cases stepped with ⟨-, moved | released | cloned | dropped⟩
  · rcases moved with ⟨tokens, channel, rfl, -⟩
    simp only [tokens, channel, discardedValues_nil, add_zero]
  · rcases released with ⟨position, site, payload, -, tokens, pushed⟩
    simp only [← tokens, Multiset.map_add, Multiset.map_singleton, add_assoc,
      Channel.push_contents sane.wellFormed pushed]
    abel
  · rcases cloned with ⟨ctx, -, tokens, cloned, rfl⟩
    simp only [tokens, Channel.clone_contents cloned, discardedValues_nil, add_zero]
  · rcases dropped with ⟨ctx, site, -, -, tokens, dropped⟩
    simp only [tokens, add_assoc, Channel.drop_contents sane.wellFormed dropped]

theorem step_liveTokens (stepped : pool.step action = some (next, discards)) {token : Token}
    (live : token ∈ next.liveTokens) : token ∈ pool.liveTokens := by
  rw [← Multiset.mem_coe] at live ⊢
  rcases step_cases stepped with ⟨-, moved | released | cloned | dropped⟩
  · rcases moved with ⟨tokens, -⟩
    exact tokens ▸ live
  · rcases released with ⟨position, site, payload, -, tokens, -⟩
    rw [← tokens]
    exact Multiset.mem_add.mpr (Or.inl live)
  · rcases cloned with ⟨ctx, -, tokens, -⟩
    exact tokens ▸ live
  · rcases dropped with ⟨ctx, site, -, -, tokens, -⟩
    exact tokens ▸ live

/-- The batch of the socket's context after a step of the channel that leaves it live. -/
theorem live_of_set {channel after : Channel} {position : ℕ} {entry : Option (ArrayVec ℕ 16)}
    (live : ∃ batch, channel.batch? 0 = some batch)
    (producers : after.producers = channel.producers.set position entry)
    (kept : position = 0 → entry.isSome = true) : ∃ batch, after.batch? 0 = some batch := by
  rcases live with ⟨batch, live⟩
  simp only [Channel.batch?_eq_some] at live ⊢
  by_cases same : position = 0
  · subst position
    rcases Option.isSome_iff_exists.mp (kept rfl) with ⟨stored, rfl⟩
    rcases List.getElem?_eq_some_iff.mp live with ⟨inRange, -⟩
    exact ⟨stored, by simp [producers, inRange]⟩
  · refine ⟨batch, ?_⟩
    simp only [producers, List.getElem?_set_ne same, live]

theorem step_sane (sane : pool.Sane) (stepped : pool.step action = some (next, discards)) :
    next.Sane := by
  rcases sane with ⟨wellFormed, live⟩
  rcases step_cases stepped with ⟨-, moved | released | cloned | dropped⟩
  · rcases moved with ⟨-, channel, -, -⟩
    exact ⟨channel ▸ wellFormed, channel ▸ live⟩
  · rcases released with ⟨position, site, payload, -, -, pushed⟩
    rcases Channel.push_producers pushed with ⟨old, grown, -, producers, -⟩
    exact ⟨Channel.push_wellFormed wellFormed pushed, live_of_set live producers (by simp)⟩
  · rcases cloned with ⟨ctx, -, -, cloned, -⟩
    refine ⟨Channel.clone_wellFormed wellFormed cloned, ?_⟩
    rcases live with ⟨batch, live⟩
    rcases List.getElem?_eq_some_iff.mp (Channel.batch?_eq_some.mp live) with ⟨inRange, stored⟩
    refine ⟨batch, ?_⟩
    simp only [Channel.batch?_eq_some, Channel.clone_eq_some cloned,
      List.getElem?_append_left inRange, List.getElem?_eq_getElem inRange, stored]
  · rcases dropped with ⟨ctx, site, -, foreign, -, dropped⟩
    refine ⟨Channel.drop_wellFormed wellFormed dropped,
      live_of_set live (Channel.drop_producers wellFormed dropped) ?_⟩
    intro own
    exact absurd own foreign

theorem step_parameters (sane : pool.Sane) (stepped : pool.step action = some (next, discards)) :
    next.index = pool.index ∧ next.channel.singleSpscLen = pool.channel.singleSpscLen := by
  rcases step_cases stepped with ⟨index, moved | released | cloned | dropped⟩
  · rcases moved with ⟨-, channel, -, -⟩
    exact ⟨index, by rw [channel]⟩
  · rcases released with ⟨position, site, payload, -, -, pushed⟩
    exact ⟨index, Channel.push_singleSpscLen pushed⟩
  · rcases cloned with ⟨ctx, -, -, cloned, -⟩
    exact ⟨index, by rw [Channel.clone_eq_some cloned]⟩
  · rcases dropped with ⟨ctx, site, -, -, -, dropped⟩
    exact ⟨index, Channel.drop_singleSpscLen sane.wellFormed dropped⟩

/-- While all the buffers of the pool fit one queue, the only losses are the partial batches of
dropped contexts. -/
theorem step_lossless_iff (sane : pool.Sane)
    (roomy : pool.held.card ≤ 16 * pool.channel.singleSpscLen)
    (stepped : pool.step action = some (next, discards)) :
    discardedValues discards = 0 ↔ pool.WholeBatch action := by
  have room : pool.channel.Roomy := by
    simp only [held, Multiset.card_add] at roomy
    simp only [Channel.Roomy]
    omega
  rcases step_cases stepped with ⟨-, moved | released | cloned | dropped⟩
  · rcases moved with ⟨-, -, rfl, whole⟩
    exact ⟨fun _ => whole, fun _ => rfl⟩
  · rcases released with ⟨position, site, payload, rfl, -, pushed⟩
    simp [WholeBatch, Channel.push_lossless sane.wellFormed room pushed]
  · rcases cloned with ⟨ctx, rfl, -, -, rfl⟩
    simp [WholeBatch]
  · rcases dropped with ⟨ctx, site, rfl, foreign, -, dropped⟩
    rcases sane.live with ⟨own, live⟩
    rcases Channel.drop_cases sane.wellFormed dropped with ⟨middle, lost, flushed, -⟩
    rcases Channel.flush_cases flushed with ⟨batch, held, -⟩
    simp only [WholeBatch, held, Option.some.injEq, forall_eq']
    exact Channel.drop_lossless_iff sane.wellFormed room held (Ne.symm foreign) live dropped

end Pool

end Nethuns.Api
