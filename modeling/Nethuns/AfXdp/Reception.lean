import Nethuns.AfXdp.Frames

/-!
# Receiving through an AF_XDP socket

A call that receives takes a descriptor from the receive ring, after a refill of the fill ring
when it finds none at first. The refill reserves as many entries as it knows to be free, as soon
as there is one free frame in the cache: it succeeds, and only moves frames, when there is a free
frame for each of them. The actions of the users on what they received lose what the free channel
throws away.
-/

namespace Nethuns.AfXdp.Sock

open Nethuns.Lib Nethuns.Mpsc Nethuns.Api

variable {flags : AfXdpFlags} {confined : Prop} {sock next : Sock}

/-! ## Refilling the fill ring -/

/-- How many entries of the fill ring the next refill reserves: none without a free frame in the
cache, and else all the free entries, of which there may be more than free frames. -/
def refillCount (sock : Sock) : ℕ :=
  let wanted : UInt32 := .ofNat sock.restocked.pool.channel.availableLen
  if wanted = 0 then 0 else (sock.fq.prodNbFree wanted).1.toNat

/-- There is a free frame for each entry that the next refill reserves. -/
def RefillServed (sock : Sock) : Prop := sock.refillCount ≤ sock.pool.channel.available

theorem restocked_spec (sane : sock.pool.Sane) :
    ∃ pool, sock.restocked = { sock with pool := pool } ∧ pool.Sane ∧
      pool.liveTokens = sock.pool.liveTokens ∧ pool.held = sock.pool.held ∧
      pool.channel.available = sock.pool.channel.available ∧
      pool.channel.singleSpscLen = sock.pool.channel.singleSpscLen := by
  simp only [restocked]
  split
  · have contents := Channel.sync_contents sock.pool.channel
    refine ⟨{ sock.pool with channel := sock.pool.channel.sync }, rfl, ?_, rfl, ?_, ?_, rfl⟩
    · exact ⟨Channel.sync_wellFormed sane.wellFormed, sane.live⟩
    · simp only [Pool.held, Pool.issued, contents]
    · exact Channel.available_sync _
  · exact ⟨sock.pool, rfl, sane, rfl, rfl, rfl, rfl⟩

theorem toUInt64_ofNat_toNat {addr : ℕ} (small : addr < 2 ^ 32) :
    (UInt32.ofNat addr).toUInt64.toNat = addr := by
  rw [UInt32.toNat_toUInt64, UInt32.toNat_ofNat']
  exact Nat.mod_eq_of_lt small

theorem fillFrom_spec {ahead offset count : ℕ} {idx : UInt32} (sane : sock.pool.Sane)
    (small : ∀ addr ∈ sock.pool.held, addr < 2 ^ 32) (producing : sock.fq.Producing ahead)
    (reserved : offset + count ≤ ahead) (idx_eq : idx = sock.fq.producer + .ofNat offset)
    (enough : count ≤ sock.pool.channel.available) :
    ∃ (pool : Pool) (fq : XskRing UInt64) (values : List ℕ),
      sock.fillFrom idx count = (.ok (), { sock with pool := pool, fq := fq }) ∧
      pool.Sane ∧ pool.liveTokens = sock.pool.liveTokens ∧ pool.held + ↑values = sock.pool.held ∧
      pool.channel.available + count = sock.pool.channel.available ∧
      pool.channel.singleSpscLen = sock.pool.channel.singleSpscLen ∧ fq.Producing ahead ∧
      (fq.span (offset + count)).map UInt64.toNat =
        (sock.fq.span offset).map UInt64.toNat ++ values := by
  induction count generalizing sock idx offset with
  | zero =>
      exact ⟨sock.pool, sock.fq, [], rfl, sane, rfl, by simp, rfl, rfl, producing, by simp⟩
  | succ count ih =>
      rcases Channel.pop_isSome (show 0 < sock.pool.channel.available by omega) with
        ⟨addr, popped⟩
      have left := Channel.available_pop popped
      have held := Pool.popped_held_some popped
      have addr_lt : addr < 2 ^ 32 := by
        apply small
        simp [← held]
      have stored_toNat := toUInt64_ofNat_toNat addr_lt
      rcases producing.store (show offset < ahead by omega) (UInt32.ofNat addr).toUInt64 with
        ⟨stored, span, -⟩
      have next_idx : idx + 1 = sock.fq.producer + .ofNat (offset + 1) := by
        rw [idx_eq, UInt32.ofNat_add, UInt32.add_assoc]
        rfl
      rw [← idx_eq] at stored span
      have unfolded : sock.fillFrom idx (count + 1) =
          fillFrom { sock with
            pool := sock.pool.popped
            fq := sock.fq.store (sock.fq.cell idx) (UInt32.ofNat addr).toUInt64 } (idx + 1)
            count := by
        simp only [fillFrom, allocFrame, popped, Option.map_some]
      have small_left : ∀ addr ∈ sock.pool.popped.held, addr < 2 ^ 32 := by
        intro addr addr_mem
        apply small
        rw [← held]
        exact Multiset.mem_add.mpr (Or.inl addr_mem)
      rcases @ih { sock with
            pool := sock.pool.popped
            fq := sock.fq.store (sock.fq.cell idx) (UInt32.ofNat addr).toUInt64 } (offset + 1)
          (idx + 1) (Pool.popped_sane sane) small_left stored (by omega) next_idx
          (by simp only [Pool.popped]; omega) with
        ⟨pool, fq, values, filled, sane', tokens, held', available, capacity, producing', span'⟩
      refine ⟨pool, fq, addr :: values, unfolded.trans filled, sane', tokens, ?_, ?_, ?_,
        producing', ?_⟩
      · rw [← held, ← held', ← Multiset.cons_coe, ← Multiset.singleton_add]
        abel
      · simp only [Pool.popped] at available
        omega
      · exact capacity.trans (Channel.pop_singleSpscLen _)
      · rw [show offset + (count + 1) = offset + 1 + count by omega, span', span]
        simp [stored_toNat]

theorem fillAll_spec {free : UInt32} (sane : sock.pool.Sane)
    (small : ∀ addr ∈ sock.pool.held, addr < 2 ^ 32) (producing : sock.fq.Producing 0)
    (all : free = sock.fq.cachedCons - sock.fq.cachedProd)
    (enough : free.toNat ≤ sock.pool.channel.available) :
    ∃ (pool : Pool) (fq : XskRing UInt64) (values : List ℕ),
      fillFrom { sock with fq := { sock.fq with cachedProd := sock.fq.cachedProd + free } }
        sock.fq.cachedProd free.toNat = (.ok (), { sock with pool := pool, fq := fq }) ∧
      pool.Sane ∧ pool.liveTokens = sock.pool.liveTokens ∧ pool.held + ↑values = sock.pool.held ∧
      pool.channel.available + free.toNat = sock.pool.channel.available ∧
      pool.channel.singleSpscLen = sock.pool.channel.singleSpscLen ∧
      (fq.prodSubmit free).Producing 0 ∧
      (fq.prodSubmit free).pending.map UInt64.toNat =
        sock.fq.pending.map UInt64.toNat ++ values := by
  have first : sock.fq.cachedProd = sock.fq.producer + .ofNat 0 := producing.reserved
  rcases (producing.reserve_all all 0).2 with reserved
  rw [Nat.zero_add] at reserved
  rcases @fillFrom_spec { sock with fq := { sock.fq with cachedProd := sock.fq.cachedProd + free } }
      free.toNat 0 free.toNat sock.fq.cachedProd sane small reserved (by omega) first enough with
    ⟨pool, fq, values, filled, sane', tokens, held, available, capacity, producing', span⟩
  rcases producing'.submit (Nat.le_refl _) with ⟨submitted, grown⟩
  rw [Nat.sub_self] at submitted
  have pending : (fq.prodSubmit free).pending.map UInt64.toNat =
      sock.fq.pending.map UInt64.toNat ++ values := by
    rw [XskRing.pending_eq_span, XskRing.span_submit 0 grown, Nat.add_comm, span]
    rfl
  exact ⟨pool, fq, values, filled, sane', tokens, held, available, capacity, submitted, pending⟩

/-- An exchange of addresses between the free channel and the fill ring. -/
theorem Moves.of_exchange {pool : Pool} {fq : XskRing UInt64} (intact : sock.Intact flags confined)
    (sane : pool.Sane) (tokens : pool.liveTokens = sock.pool.liveTokens)
    (capacity : pool.channel.singleSpscLen = sock.pool.channel.singleSpscLen)
    (producing : fq.Producing 0)
    (same : { sock with pool := pool, fq := fq }.addresses = sock.addresses) :
    Moves flags confined sock { sock with pool := pool, fq := fq } 0 := by
  refine Moves.of_same_addresses intact ?_ capacity rfl (fun _ _ _ delivers => delivers) same
  exact { intact.toWorking with
    sane := sane
    fq := producing
    tokens_inside := tokens ▸ intact.tokens_inside }

/-- With enough free frames a refill succeeds and only moves frames. -/
theorem refillFillRing_spec (intact : sock.Intact flags confined) (fits : flags.Fits)
    (served : sock.RefillServed) :
    ∃ (pool : Pool) (fq : XskRing UInt64),
      sock.refillFillRing = (.ok (), { sock with pool := pool, fq := fq }) ∧
      Moves flags confined sock { sock with pool := pool, fq := fq } 0 ∧
      { sock with pool := pool, fq := fq }.addresses = sock.addresses ∧
      pool.channel.available + sock.refillCount = sock.pool.channel.available := by
  rcases restocked_spec intact.sane with
    ⟨pool, restocked, sane, tokens, held, available, capacity⟩
  simp only [refillFillRing, RefillServed, refillCount, restocked] at served ⊢
  generalize UInt32.ofNat pool.channel.availableLen = wanted at served ⊢
  by_cases nothing : wanted = 0
  · have same : { sock with pool := pool }.addresses = sock.addresses := by
      simp [addresses, ringAddresses, held]
    exact ⟨pool, sock.fq, by simp [nothing],
      Moves.of_exchange intact sane tokens capacity intact.fq same, same, by simpa [nothing]⟩
  · rcases intact.fq.nbFree wanted with ⟨free, cachedCons, counted, free_eq, producing⟩
    simp only [if_neg nothing, counted] at served ⊢
    have pending : { sock.fq with cachedCons := cachedCons }.pending = sock.fq.pending := rfl
    by_cases full : free = 0
    · have same :
          { sock with pool := pool, fq := { sock.fq with cachedCons := cachedCons } }.addresses =
          sock.addresses := by
        simp only [addresses, ringAddresses, held, pending]
      exact ⟨pool, { sock.fq with cachedCons := cachedCons }, by simp [full],
        Moves.of_exchange intact sane tokens capacity producing same, same, by simpa [full]⟩
    · have small : ∀ addr ∈ pool.held, addr < 2 ^ 32 := by
        intro addr addr_mem
        have := intact.addresses_lt addr (by simp [addresses, ringAddresses, ← held, addr_mem])
        exact this.trans fits
      rcases @fillAll_spec { sock with
            pool := pool
            fq := { sock.fq with cachedCons := cachedCons } } free sane small producing free_eq
          (by rw [available]; exact served) with
        ⟨pool', fq, values, filled, sane', tokens', held', available', capacity', producing',
          pending'⟩
      have granted := (producing.reserve_all free_eq 0).1
      have same : { sock with pool := pool', fq := fq.prodSubmit free }.addresses =
          sock.addresses := by
        simp only [addresses, ringAddresses, pending', ← held, ← held', pending,
          ← Multiset.coe_add]
        abel
      refine ⟨pool', fq.prodSubmit free, ?_, ?_, same, available'.trans available⟩
      · simp only [granted, if_neg full, ne_eq, not_true_eq_false, if_false]
        simp only [filled]
      · exact Moves.of_exchange intact sane' (tokens'.trans tokens) (capacity'.trans capacity)
          producing' same

theorem fillFrom_short {count : ℕ} {idx : UInt32}
    (short : sock.pool.channel.available < count) :
    ∃ error final, sock.fillFrom idx count = (.error error, final) := by
  induction count generalizing sock idx with
  | zero => omega
  | succ count ih =>
      cases popped : sock.pool.channel.pop.1 with
      | none =>
          simp only [fillFrom, allocFrame, popped, Option.map_none]
          exact ⟨_, _, rfl⟩
      | some addr =>
          have left := Channel.available_pop popped
          simp only [fillFrom, allocFrame, popped, Option.map_some]
          apply ih
          simp only [Pool.popped]
          omega

theorem refillCount_le (producing : sock.fq.Producing 0) :
    sock.refillCount ≤ sock.fq.size.toNat := by
  simp only [refillCount]
  generalize UInt32.ofNat _ = wanted
  split
  · exact Nat.zero_le _
  · rcases producing.nbFree wanted with ⟨free, cachedCons, counted, free_eq, refreshed⟩
    have credit := refreshed.credit
    simp only [← free_eq] at credit
    simp only [counted]
    omega

theorem refillServed_of_ok (sane : sock.pool.Sane) (producing : sock.fq.Producing 0)
    (refilled : sock.refillFillRing = (.ok (), next)) : sock.RefillServed := by
  rcases restocked_spec sane with ⟨pool, restocked, -, -, -, available, -⟩
  simp only [refillFillRing, RefillServed, refillCount, restocked] at refilled ⊢
  generalize UInt32.ofNat pool.channel.availableLen = wanted at refilled ⊢
  by_cases nothing : wanted = 0
  · simp [nothing]
  · rcases producing.nbFree wanted with ⟨free, cachedCons, counted, free_eq, refreshed⟩
    simp only [if_neg nothing, counted] at refilled ⊢
    by_contra short
    have some_free : free ≠ 0 := by
      rintro rfl
      exact short (Nat.zero_le _)
    have granted := (refreshed.reserve_all free_eq 0).1
    rcases @fillFrom_short { sock with
          pool := pool
          fq := { sock.fq with cachedCons := cachedCons, cachedProd := sock.fq.cachedProd + free } }
        free.toNat sock.fq.cachedProd (by rw [available]; omega) with ⟨error, final, failed⟩
    simp [granted, if_neg some_free, failed] at refilled

/-- Whatever comes of it, a refill touches the free channel and the fill ring only. -/
theorem fillFrom_users (sock : Sock) (idx : UInt32) (count : ℕ) :
    ∃ channel fq, sock.pool.channel.Drawn channel ∧ fq.size = sock.fq.size ∧
      (sock.fillFrom idx count).2 =
        { sock with pool := { sock.pool with channel := channel }, fq := fq } := by
  induction count generalizing sock idx with
  | zero => exact ⟨_, _, Channel.Drawn.refl _, rfl, rfl⟩
  | succ count ih =>
      have drawn := Channel.pop_drawn sock.pool.channel
      simp only [fillFrom, allocFrame]
      cases sock.pool.channel.pop.1 with
      | none => exact ⟨_, _, drawn, rfl, rfl⟩
      | some addr =>
          rcases ih { sock with
              pool := sock.pool.popped
              fq := sock.fq.store (sock.fq.cell idx) (UInt32.ofNat addr).toUInt64 } (idx + 1) with
            ⟨channel, fq, later, size, filled⟩
          exact ⟨channel, fq, drawn.trans later, size, filled⟩

theorem refillFillRing_users (sock : Sock) :
    ∃ channel fq, sock.pool.channel.Drawn channel ∧ fq.size = sock.fq.size ∧
      sock.refillFillRing.2 =
        { sock with pool := { sock.pool with channel := channel }, fq := fq } := by
  have restocked : ∃ channel : Channel, sock.pool.channel.Drawn channel ∧
      sock.restocked = { sock with pool := { sock.pool with channel := channel } } := by
    simp only [Sock.restocked]
    split
    · exact ⟨sock.pool.channel.sync, Channel.sync_drawn _, rfl⟩
    · exact ⟨sock.pool.channel, Channel.Drawn.refl _, rfl⟩
  rcases restocked with ⟨channel, drawn, restocked⟩
  simp only [refillFillRing, restocked]
  generalize UInt32.ofNat _ = wanted
  have counted := sock.fq.prodNbFree_size wanted
  split
  · exact ⟨_, _, drawn, rfl, rfl⟩
  · generalize sock.fq.prodNbFree wanted = free at counted ⊢
    have size := (free.2.prodReserve_size free.1 0).trans counted
    split
    · exact ⟨_, _, drawn, counted, rfl⟩
    · generalize free.2.prodReserve free.1 0 = reserved at size ⊢
      split
      · exact ⟨_, _, drawn, size, rfl⟩
      · generalize filled : fillFrom _ _ _ = outcome
        rcases filled ▸ fillFrom_users _ _ _ with ⟨channel', fq, later, kept, users⟩
        rcases outcome with ⟨error | _, final⟩
        · exact ⟨channel', fq, drawn.trans later, kept.trans size, users⟩
        · simp only at users
          subst final
          exact ⟨channel', fq.prodSubmit free.1, drawn.trans later, kept.trans size, rfl⟩

/-! ## Receiving -/

theorem advance_none_moves {rx : RxRing} (intact : sock.Intact flags confined)
    (advanced : sock.rx.advance = some (none, rx)) :
    Moves flags confined sock { sock with rx := rx } 0 := by
  rcases RxRing.advance_spec intact.rx advanced with ⟨consuming, waiting⟩
  simp only [Option.toList_none, List.nil_append] at waiting
  refine Moves.of_same_addresses intact ?_ rfl rfl (fun _ _ _ delivers => delivers) ?_
  · exact { intact.toWorking with
      rx := consuming
      waiting_inside := waiting ▸ intact.waiting_inside }
  · simp [addresses, ringAddresses, waiting]

theorem recvInner_moves {rx : RxRing} {slot : XdpDesc} (intact : sock.Intact flags confined)
    (advanced : sock.rx.advance = some (some slot, rx)) :
    Moves flags confined sock ({ sock with rx := rx }.recvInner slot) 0 := by
  rcases RxRing.advance_spec intact.rx advanced with ⟨consuming, waiting⟩
  simp only [Option.toList_some, List.singleton_append] at waiting
  have inside := intact.waiting_inside
  simp only [waiting, List.forall_mem_cons] at inside
  refine Moves.of_same_addresses intact ?_ rfl rfl (fun _ _ _ delivers => delivers) ?_
  · refine { intact.toWorking with
      sane := ⟨intact.sane.wellFormed, intact.sane.live⟩
      rx := consuming
      waiting_inside := fun known => (inside known).2
      tokens_inside := ?_ }
    intro known token token_live
    rcases Pool.give_liveTokens token_live with kept | rfl
    · exact intact.tokens_inside known token kept
    · exact (inside known).1
  · simp only [recvInner, addresses, ringAddresses, Pool.give_held, waiting, List.map_cons,
      ← Multiset.cons_coe, ← Multiset.singleton_add,
      XdpDesc.offset]
    abel

/-- The refill of the call, if it makes one, finds enough free frames. -/
def RecvServed (sock : Sock) (before : List KernelAction) : Prop :=
  ∀ rx middle, sock.rx.advance = some (none, rx) →
    kernelRun { sock with rx := rx } before = some middle → middle.RefillServed

/-- A call that receives only moves frames, when its refill finds enough of them. -/
theorem recvToken_moves {before after : List KernelAction} {result : Except Error Unit}
    (intact : sock.Intact flags confined) (fits : flags.Fits)
    (returns : KernelReturns flags confined before ∧ KernelReturns flags confined after)
    (served : sock.RecvServed before)
    (received : sock.recvToken before after = some (result, next)) :
    Moves flags confined sock next 0 := by
  simp only [recvToken, Option.bind_eq_some_iff] at received
  rcases received with ⟨⟨found, rx⟩, advanced, received⟩
  cases found with
  | some slot =>
      simp only [Option.some.injEq, Prod.mk.injEq] at received
      rcases received with ⟨-, rfl⟩
      exact recvInner_moves intact advanced
  | none =>
      simp only [Option.bind_eq_some_iff] at received
      rcases received with ⟨middle, ran, received⟩
      have first := advance_none_moves intact advanced
      have second := first.trans (kernelRun_moves first.intact returns.1 ran)
      rcases refillFillRing_spec second.intact fits (served rx middle advanced ran) with
        ⟨pool, fq, refilled, third, -⟩
      simp only [refilled, Option.bind_eq_some_iff, Option.map_eq_some_iff] at received
      rcases received with ⟨later, ranAfter, ⟨found, rx'⟩, advancedAgain, received⟩
      have fourth := (second.trans third).trans (kernelRun_moves third.intact returns.2 ranAfter)
      cases found with
      | none =>
          simp only [Prod.mk.injEq] at received
          rcases received with ⟨-, rfl⟩
          simpa using fourth.trans (advance_none_moves fourth.intact advancedAgain)
      | some slot =>
          simp only [Prod.mk.injEq] at received
          rcases received with ⟨-, rfl⟩
          simpa using fourth.trans (recvInner_moves fourth.intact advancedAgain)

/-! ## The users -/

/-- What the channel throws away is all that an action of the users loses. -/
theorem pool_moves {action : PoolAction} {pool : Pool} {discards : List Discard}
    (intact : sock.Intact flags confined)
    (stepped : sock.pool.step action = some (pool, discards)) :
    Moves flags confined sock { sock with pool := pool }
      ((discardedValues discards).map flags.frame) := by
  refine Moves.of_addresses intact ?_ ?_ rfl (fun _ _ _ delivers => delivers) ?_
  · refine { intact.toWorking with sane := Pool.step_sane intact.sane stepped, tokens_inside := ?_ }
    intro known token token_live
    exact intact.tokens_inside known token (Pool.step_liveTokens stepped token_live)
  · exact (Pool.step_parameters intact.sane stepped).2
  · simp only [addresses, ← Pool.step_held intact.sane stepped]
    exact add_right_comm _ _ _

theorem recv_moves {before after : List KernelAction} {result : Except Error Unit}
    (intact : sock.Intact flags confined) (fits : flags.Fits)
    (returns : KernelReturns flags confined before ∧ KernelReturns flags confined after)
    (served : sock.RecvServed before)
    (received : sock.recv before after = some (result, next)) :
    Moves flags confined sock next 0 := by
  simp only [recv, Option.bind_eq_some_iff] at received
  rcases received with ⟨⟨outcome, middle⟩, token, received⟩
  have moves := recvToken_moves intact fits returns served token
  cases outcome with
  | error error =>
      simp only [Option.some.injEq, Prod.mk.injEq] at received
      rcases received with ⟨-, rfl⟩
      exact moves
  | ok =>
      simp only [Option.map_eq_some_iff, Prod.mk.injEq] at received
      rcases received with ⟨pool, consumed, -, rfl⟩
      have stepped : middle.pool.step (.consume (middle.pool.tokens.length - 1) 0) =
          some (pool, []) := by
        simp [Pool.step, consumed]
      simpa using moves.trans (pool_moves moves.intact stepped)

/-- A user writes to a frame that is not waiting for the kernel. -/
theorem writePayload_moves {position : ℕ} {bytes : List UInt8} (intact : sock.Intact flags confined)
    (written : sock.writePayload position bytes = some next) :
    Moves flags confined sock next 0 := by
  simp only [writePayload, Option.bind_eq_some_iff] at written
  rcases written with ⟨payload, present, written⟩
  split at written
  · rename_i short
    simp only [Option.some.injEq] at written
    subst next
    refine Moves.of_same_addresses intact { intact.toWorking with } rfl rfl ?_ rfl
    intro known nodup sent delivers
    have member := List.mem_of_getElem? present
    have inside : flags.Inside payload.token.idx bytes.length := by
      have whole := intact.tokens_inside known payload.token (by
        simp only [Pool.liveTokens, List.mem_append, List.mem_map]
        exact Or.inr ⟨payload, member, rfl⟩)
      simp only [AfXdpFlags.Inside] at whole ⊢
      omega
    have held : payload.token.idx ∈ sock.pool.held + ↑(sock.kernelRx.map UInt64.toNat) := by
      simp only [Pool.held, Pool.issued, Multiset.mem_add, Multiset.mem_coe, List.mem_map]
      exact Or.inl (Or.inl (Or.inr ⟨payload, member, rfl⟩))
    exact delivers.of_write inside (fun entry => frame_ne_of_live nodup held) rfl rfl rfl
  · simp at written

end Nethuns.AfXdp.Sock
