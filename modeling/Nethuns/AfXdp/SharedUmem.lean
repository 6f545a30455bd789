import Nethuns.AfXdp.Libxdp

/-!
# Sockets that share a UMEM

All sockets of this file are created on one UMEM, with `xsk_socket__create_shared` or
`xsk_socket__create`, none of them with a program of libxdp, and deleted in any order. The contexts
of the UMEM, each taken as often as it is counted, are those of the sockets, and its own count is
the number of sockets, as long as no creation fails at opening a descriptor.
-/

namespace Nethuns.AfXdp

open Nethuns.Lib

/-! ## Contexts -/

/-- The keys of the contexts, each as often as the context is counted. -/
def holders (ctxList : List XskCtx) : List CtxKey :=
  ctxList.flatMap fun ctx => List.replicate ctx.refcount ctx.key

/-- Each context is counted once for each of its sockets, and there are no others. -/
structure Matches (ctxList : List XskCtx) (sockets : List XskSocket) : Prop where
  keys : (ctxList.map XskCtx.key).Nodup
  used : ∀ ctx ∈ ctxList, ctx.refcount ≠ 0
  counts : (holders ctxList : Multiset CtxKey) = (sockets.map XskSocket.ctx : List CtxKey)

variable {ctxList after : List XskCtx} {sockets : List XskSocket} {xsk : XskSocket}

theorem holders_filter (ctxList : List XskCtx) :
    holders (ctxList.filter (·.refcount ≠ 0)) = holders ctxList := by
  induction ctxList with
  | nil => rfl
  | cons ctx ctxList ih =>
      by_cases used : ctx.refcount = 0
      · rw [List.filter_cons_of_neg (by simpa using used), ih]
        simp only [holders, List.flatMap_cons, used, List.replicate_zero, List.nil_append]
      · rw [List.filter_cons_of_pos (by simpa using used)]
        simp only [holders, List.flatMap_cons] at ih ⊢
        rw [ih]

theorem map_key_update (key : CtxKey) (count : ℕ → ℕ) :
    (ctxList.map fun ctx =>
      if ctx.key = key then { ctx with refcount := count ctx.refcount } else ctx).map XskCtx.key =
      ctxList.map XskCtx.key := by
  rw [List.map_map]
  apply List.map_congr_left
  intro ctx listed
  simp only [Function.comp]
  split <;> rfl

theorem Matches.acquires (holds : Matches ctxList sockets)
    (acquires : Acquires xsk.ctx ctxList after) : Matches after (sockets ++ [xsk]) := by
  cases acquires with
  | shares ctx listed same =>
      have moved := flatMap_update_key (fun ctx : XskCtx => List.replicate ctx.refcount ctx.key)
        (fun ctx => { ctx with refcount := ctx.refcount + 1 }) holds.keys listed
      refine ⟨?_, ?_, ?_⟩
      · rw [map_key_update xsk.ctx (· + 1)]
        exact holds.keys
      · intro other member
        rcases List.mem_map.mp member with ⟨ctx, listed, rfl⟩
        split
        · exact Nat.succ_ne_zero _
        · exact holds.used ctx listed
      · rw [same, List.replicate_succ, ← Multiset.cons_coe, ← Multiset.singleton_add,
          ← add_assoc] at moved
        rw [holders, List.map_append, ← Multiset.coe_add, ← holds.counts]
        exact add_right_cancel moved
  | creates absent =>
      refine ⟨?_, ?_, ?_⟩
      · rw [List.map_cons, List.nodup_cons]
        refine ⟨?_, holds.keys⟩
        intro listed
        rcases List.mem_map.mp listed with ⟨ctx, listed, same⟩
        exact absent ctx listed same
      · rw [List.forall_mem_cons]
        exact ⟨Nat.one_ne_zero, holds.used⟩
      · rw [List.map_append, ← Multiset.coe_add, ← holds.counts, add_comm]
        rfl

theorem Matches.puts {umem : XskUmem} {position : ℕ} (holds : Matches umem.ctxList sockets)
    (listed : sockets[position]? = some xsk) :
    Matches (umem.putCtx xsk.ctx).ctxList (sockets.eraseIdx position) := by
  have held : xsk.ctx ∈ holders umem.ctxList := by
    rw [← Multiset.mem_coe, holds.counts, Multiset.mem_coe]
    exact List.mem_map_of_mem (List.mem_of_getElem? listed)
  rcases List.mem_flatMap.mp held with ⟨ctx, present, counted⟩
  have same := List.eq_of_mem_replicate counted
  have moved := flatMap_update_key (fun ctx : XskCtx => List.replicate ctx.refcount ctx.key)
    (fun ctx => { ctx with refcount := ctx.refcount - 1 }) holds.keys present
  have erased := coe_map_eraseIdx XskSocket.ctx listed
  refine ⟨?_, ?_, ?_⟩
  · apply List.Nodup.sublist (List.filter_sublist.map XskCtx.key)
    rw [map_key_update xsk.ctx (· - 1)]
    exact holds.keys
  · intro ctx kept
    exact of_decide_eq_true (List.mem_filter.mp kept).2
  · rcases Nat.exists_eq_succ_of_ne_zero (holds.used ctx present) with ⟨count, equal⟩
    rw [← same, equal, Nat.succ_sub_one, List.replicate_succ, ← Multiset.cons_coe,
      ← Multiset.singleton_add, ← add_assoc] at moved
    have less := add_right_cancel moved
    rw [XskUmem.putCtx, holders_filter]
    apply add_right_cancel (b := {xsk.ctx})
    rw [erased, ← holds.counts]
    exact less

theorem Matches.eq_nil (holds : Matches ctxList []) : ctxList = [] := by
  apply List.eq_nil_iff_forall_not_mem.mpr
  intro ctx listed
  have held : ctx.key ∈ holders ctxList :=
    List.mem_flatMap.mpr ⟨ctx, listed, List.mem_replicate.mpr ⟨holds.used ctx listed, rfl⟩⟩
  rw [← Multiset.mem_coe, holds.counts] at held
  cases held

theorem Descriptors.umemDelete_isServed (fds : Descriptors) (umem : XskUmem) :
    (fds.umemDelete umem).2 = true ↔ umem.refcount = 0 := by
  simp only [umemDelete]
  split
  · rename_i used
    simp only [Bool.false_eq_true, false_iff]
    exact used
  · rename_i unused
    simp only [true_iff]
    exact not_not.mp unused

/-! ## Runs -/

/-- A UMEM and its sockets. -/
structure SharedUmem where
  fds : Descriptors
  umem : XskUmem
  sockets : List XskSocket
deriving DecidableEq

inductive SharedAction
  | socketCreateShared (args : SocketArgs) (answers : SocketAnswers)
  | socketCreate (key : CtxKey) (rx tx : Bool) (answers : SocketAnswers)
  | socketDelete (position : ℕ)
deriving DecidableEq

namespace SharedUmem

/-- A UMEM after its creation. -/
def start (next : ℕ) : SharedUmem :=
  ⟨(Descriptors.mk [] next 0).socket, ⟨next, 0, [], true, false, false⟩, []⟩

/-- Adds what a creation returns. -/
def created (shared : SharedUmem) (result : Descriptors × XskUmem × Option XskSocket) :
    SharedUmem :=
  ⟨result.1, result.2.1, shared.sockets ++ result.2.2.toList⟩

def step (shared : SharedUmem) : SharedAction → Option SharedUmem
  | .socketCreateShared args answers =>
      some (shared.created (shared.fds.socketCreateShared shared.umem args answers))
  | .socketCreate key rx tx answers =>
      some (shared.created (shared.fds.socketCreate shared.umem key rx tx answers))
  | .socketDelete position =>
      shared.sockets[position]?.map fun xsk =>
        ⟨(shared.fds.socketDelete shared.umem xsk).1, (shared.fds.socketDelete shared.umem xsk).2,
          shared.sockets.eraseIdx position⟩

/-- The action is a creation that fails at opening a descriptor. -/
def Strands (shared : SharedUmem) : SharedAction → Prop
  | .socketCreateShared args answers => Descriptors.Strands shared.umem args answers
  | .socketCreate key rx tx answers =>
      Descriptors.Strands shared.umem ⟨key, rx, tx, shared.umem.fillSave⟩ answers
  | .socketDelete _ => False

structure Sound (shared : SharedUmem) (stranded : ℕ) : Prop where
  refcount : shared.umem.refcount = shared.sockets.length + stranded
  contexts : Matches shared.umem.ctxList shared.sockets
  distinct : (shared.sockets.map XskSocket.fd).Nodup
  opened : (shared.fds.opened : Multiset ℕ) = shared.umem.fd ::ₘ
    Multiset.filter (· ≠ shared.umem.fd) (shared.sockets.map XskSocket.fd : List ℕ)
  nodup : shared.fds.opened.Nodup
  below : ∀ fd ∈ shared.fds.opened, fd < shared.fds.next
  misclosed : shared.fds.misclosed = 0

variable {shared next final : SharedUmem} {stranded : ℕ} {args : SocketArgs}
  {answers : SocketAnswers}

theorem start_sound (next : ℕ) : (start next).Sound 0 := by
  refine ⟨rfl, ⟨List.nodup_nil, ?_, rfl⟩, List.nodup_nil, rfl, List.nodup_singleton next, ?_, rfl⟩
  · intro ctx listed
    cases listed
  · intro fd opened
    rw [List.mem_singleton.mp opened]
    exact Nat.lt_succ_self next

theorem Sound.umem_opened (sound : shared.Sound stranded) :
    shared.umem.fd ∈ shared.fds.opened := by
  rw [← Multiset.mem_coe, sound.opened]
  exact Multiset.mem_cons_self ..

theorem Sound.socket_opened (sound : shared.Sound stranded) {xsk : XskSocket}
    (listed : xsk ∈ shared.sockets) : xsk.fd ∈ shared.fds.opened := by
  by_cases same : xsk.fd = shared.umem.fd
  · rw [same]
    exact sound.umem_opened
  · rw [← Multiset.mem_coe, sound.opened]
    apply Multiset.mem_cons_of_mem
    exact Multiset.mem_filter.mpr ⟨Multiset.mem_coe.mpr (List.mem_map_of_mem listed), same⟩

theorem Sound.strands (sound : shared.Sound stranded) :
    (shared.created (shared.fds, { shared.umem with refcount := shared.umem.refcount + 1 },
      none)).Sound (stranded + 1) := by
  simp only [created, Option.toList_none, List.append_nil]
  exact ⟨congrArg (· + 1) sound.refcount, sound.contexts, sound.distinct, sound.opened,
    sound.nodup, sound.below, sound.misclosed⟩

theorem Sound.restored {after : Descriptors} {kept : XskUmem} (sound : shared.Sound stranded)
    (closed : shared.fds.Kept after) (restored : shared.umem.Restored kept) :
    (shared.created (after, kept, none)).Sound stranded := by
  simp only [created, Option.toList_none, List.append_nil]
  refine ⟨?_, ?_, sound.distinct, ?_, ?_, ?_, ?_⟩
  · rw [restored.refcount, sound.refcount]
  · rw [restored.ctxList]
    exact sound.contexts
  · rw [closed.opened, restored.fd, sound.opened]
  · rw [closed.opened]
    exact sound.nodup
  · rw [closed.opened]
    exact fun fd listed => (sound.below fd listed).trans_le closed.next
  · rw [closed.misclosed, sound.misclosed]

theorem Sound.first {kept : XskUmem} {xsk : XskSocket} (sound : shared.Sound stranded)
    (counts : shared.umem.Counts kept xsk.ctx) (alone : shared.umem.refcount = 0)
    (same : xsk.fd = shared.umem.fd) :
    (shared.created (shared.fds, kept, some xsk)).Sound stranded := by
  have none : shared.sockets = [] := by
    apply List.eq_nil_of_length_eq_zero
    exact Nat.eq_zero_of_add_eq_zero_right (sound.refcount.symm.trans alone)
  have opened := sound.opened
  have contexts := sound.contexts.acquires counts.ctxList
  simp only [none, List.nil_append, List.map_nil, Multiset.coe_nil, Multiset.filter_zero]
    at opened contexts
  simp only [created, none, Option.toList_some, List.nil_append]
  refine ⟨?_, contexts, List.nodup_singleton _, ?_, sound.nodup, sound.below, sound.misclosed⟩
  · rw [counts.refcount, sound.refcount, none, List.length_nil, List.length_singleton]
    exact Nat.add_right_comm 0 stranded 1
  · rw [opened, counts.fd, List.map_singleton, same, Multiset.coe_singleton,
      Multiset.filter_singleton, if_neg (not_not_intro rfl)]
    rfl

theorem Sound.further {kept : XskUmem} {xsk : XskSocket} (sound : shared.Sound stranded)
    (counts : shared.umem.Counts kept xsk.ctx) (fresh : xsk.fd = shared.fds.next) :
    (shared.created (shared.fds.socket, kept, some xsk)).Sound stranded := by
  have apart : shared.fds.next ∉ shared.fds.opened := fun opened =>
    Nat.lt_irrefl _ (sound.below _ opened)
  have other : shared.fds.next ≠ shared.umem.fd := by
    intro same
    exact apart (same ▸ sound.umem_opened)
  simp only [created, Option.toList_some]
  refine ⟨?_, sound.contexts.acquires counts.ctxList, ?_, ?_, ?_, ?_, sound.misclosed⟩
  · rw [counts.refcount, sound.refcount, List.length_append, List.length_singleton]
    exact Nat.add_right_comm _ stranded 1
  · rw [List.map_append, List.map_singleton, List.nodup_append]
    refine ⟨sound.distinct, List.nodup_singleton _, ?_⟩
    intro fd listed new member same
    rcases List.mem_map.mp listed with ⟨earlier, present, rfl⟩
    rw [List.mem_singleton.mp member, fresh] at same
    exact apart (same ▸ sound.socket_opened present)
  · rw [counts.fd, List.map_append, List.map_singleton, ← Multiset.coe_add, Multiset.filter_add,
      Multiset.coe_singleton, Multiset.filter_singleton, fresh, if_pos other,
      Descriptors.socket, ← Multiset.cons_coe, sound.opened, Multiset.cons_swap,
      ← Multiset.singleton_add shared.fds.next]
    exact congrArg (shared.umem.fd ::ₘ ·) (add_comm _ _)
  · exact List.nodup_cons.mpr ⟨apart, sound.nodup⟩
  · simp only [Descriptors.socket, List.forall_mem_cons]
    exact ⟨Nat.lt_succ_self _, fun fd opened => Nat.lt_succ_of_lt (sound.below fd opened)⟩

theorem Sound.creates (sound : shared.Sound stranded) (args : SocketArgs)
    (answers : SocketAnswers) :
    ∃ more, (shared.created (shared.fds.socketCreateShared shared.umem args answers)).Sound
        (stranded + more) ∧
      (more = 0 ↔ ¬Descriptors.Strands shared.umem args answers) := by
  by_cases strands : Descriptors.Strands shared.umem args answers
  · rw [Descriptors.socketCreateShared_strands strands]
    exact ⟨1, sound.strands, by simp [strands]⟩
  · refine ⟨0, ?_, by simp [strands]⟩
    rcases made : shared.fds.socketCreateShared shared.umem args answers with
      ⟨after, kept, _ | xsk⟩
    · rcases Descriptors.socketCreateShared_none sound.contexts.used made with
        ⟨closed, restored | stranded⟩
      · exact sound.restored closed restored
      · exact absurd stranded.1 strands
    · rcases Descriptors.socketCreateShared_some made with ⟨key, counts, cases⟩
      rw [← key] at counts
      rcases cases with ⟨alone, rfl, same⟩ | ⟨-, rfl, fresh⟩
      · exact sound.first counts alone same
      · exact sound.further counts fresh

theorem Sound.deletes {position : ℕ} (sound : shared.Sound stranded)
    (stepped : shared.step (.socketDelete position) = some next) : next.Sound stranded := by
  simp only [step, Option.map_eq_some_iff] at stepped
  rcases stepped with ⟨xsk, listed, rfl⟩
  have present := List.mem_of_getElem? listed
  have erased := coe_map_eraseIdx XskSocket.fd listed
  have opened := sound.opened
  rw [← erased, Multiset.filter_add, Multiset.filter_singleton] at opened
  have refcount : shared.umem.refcount - 1 =
      (shared.sockets.eraseIdx position).length + stranded := by
    have shorter := congrArg Multiset.card erased
    simp only [Multiset.card_add, Multiset.coe_card, List.length_map, Multiset.card_singleton]
      at shorter
    rw [sound.refcount, ← shorter, Nat.add_right_comm, Nat.add_sub_cancel]
  have distinct : ((shared.sockets.eraseIdx position).map XskSocket.fd).Nodup :=
    sound.distinct.sublist ((List.eraseIdx_sublist _ _).map XskSocket.fd)
  have contexts := sound.contexts.puts listed
  by_cases same : xsk.fd = shared.umem.fd
  · rw [if_neg (not_not_intro same), Multiset.empty_eq_zero, add_zero] at opened
    simp only [Descriptors.socketDelete, if_neg (not_not_intro same)]
    exact ⟨refcount, contexts, distinct, opened, sound.nodup, sound.below, sound.misclosed⟩
  · rw [if_pos same] at opened
    simp only [Descriptors.socketDelete, if_pos same, Descriptors.close,
      if_pos (sound.socket_opened present)]
    refine ⟨refcount, contexts, distinct, ?_, sound.nodup.erase _, ?_, sound.misclosed⟩
    · rw [← Multiset.coe_erase, opened, add_comm, Multiset.singleton_add, Multiset.cons_swap,
        Multiset.erase_cons_head]
      rfl
    · intro fd opened
      exact sound.below fd (List.mem_of_mem_erase opened)

theorem step_sound {action : SharedAction} (sound : shared.Sound stranded)
    (stepped : shared.step action = some next) :
    ∃ more, next.Sound (stranded + more) ∧ (more = 0 ↔ ¬shared.Strands action) := by
  cases action with
  | socketCreateShared args answers =>
      cases stepped
      exact sound.creates args answers
  | socketCreate key rx tx answers =>
      cases stepped
      exact sound.creates ⟨key, rx, tx, shared.umem.fillSave⟩ answers
  | socketDelete position =>
      exact ⟨0, sound.deletes stepped, by simp [Strands]⟩

theorem run_sound {actions : List SharedAction} (sound : shared.Sound stranded)
    (performed : run step shared actions = some final) :
    ∃ more, final.Sound (stranded + more) ∧
      (more = 0 ↔ RunMeets step (fun shared action => ¬shared.Strands action) shared actions) := by
  induction actions generalizing shared stranded with
  | nil =>
      cases performed
      exact ⟨0, sound, by simp [RunMeets]⟩
  | cons action actions ih =>
      rcases run_cons_eq_some.mp performed with ⟨next, stepped, rest⟩
      rcases step_sound sound stepped with ⟨first, kept, met⟩
      rcases ih kept rest with ⟨more, kept', met'⟩
      refine ⟨first + more, by rwa [← add_assoc], ?_⟩
      simp only [RunMeets, stepped, Option.some.injEq, forall_eq', ← met, ← met']
      exact Nat.add_eq_zero_iff

/-- In every run of sockets that load no program, all that was opened for a UMEM and its sockets is
closed once, the contexts are those of the sockets, and without sockets the UMEM can be deleted,
unless a creation failed at opening a descriptor. -/
theorem umem_deletable_iff {next : ℕ} {actions : List SharedAction}
    (performed : run step (start next) actions = some final) :
    final.fds.misclosed = 0 ∧ Matches final.umem.ctxList final.sockets ∧
      (final.sockets = [] → final.umem.ctxList = [] ∧ final.fds.opened = [final.umem.fd]) ∧
      ((final.fds.umemDelete final.umem).2 = true ↔
        final.sockets = [] ∧
          RunMeets step (fun shared action => ¬shared.Strands action) (start next) actions) := by
  rcases run_sound (start_sound next) performed with ⟨more, sound, met⟩
  rw [zero_add] at sound
  refine ⟨sound.misclosed, sound.contexts, ?_, ?_⟩
  · intro none
    have contexts := sound.contexts
    have opened := sound.opened
    rw [none] at contexts opened
    exact ⟨contexts.eq_nil, Multiset.coe_eq_singleton.mp opened⟩
  · rw [← met]
    rw [Descriptors.umemDelete_isServed, sound.refcount, Nat.add_eq_zero_iff,
      List.length_eq_zero_iff]

/-- Two sockets of two queues, between which a third fails at opening its descriptor. -/
def refusedBetween : List SharedAction :=
  let answers : SocketAnswers :=
    ⟨true, true, true, true, true, true, true, true, true, true, true⟩
  [.socketCreate ⟨1, 2, 0⟩ true true answers,
    .socketCreateShared ⟨⟨1, 2, 1⟩, true, true, true⟩ { answers with socket := false },
    .socketCreateShared ⟨⟨1, 2, 1⟩, true, true, true⟩ answers, .socketDelete 0, .socketDelete 0]

theorem umem_deletable_iff_refused :
    ∃ final, run step (start 3) refusedBetween = some final ∧ final.umem.refcount = 1 ∧
      final.fds.misclosed = 0 ∧ Matches final.umem.ctxList final.sockets ∧
      (final.sockets = [] → final.umem.ctxList = [] ∧ final.fds.opened = [final.umem.fd]) ∧
      ((final.fds.umemDelete final.umem).2 = true ↔
        final.sockets = [] ∧
          RunMeets step (fun shared action => ¬shared.Strands action) (start 3) refusedBetween) :=
  ⟨_, rfl, rfl, umem_deletable_iff rfl⟩

end SharedUmem

end Nethuns.AfXdp
