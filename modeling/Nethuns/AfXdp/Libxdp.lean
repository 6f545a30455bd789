import Nethuns.Lib.Bags
import Nethuns.Lib.Run

/-!
# The sockets of libxdp

A UMEM of libxdp owns a file descriptor. Its first socket takes this descriptor over, the others
open their own, and the sockets of one queue share a context; the reference counts of the UMEM
and of the contexts say when something may be released. This file models the creations and
deletions, with all their failures.

The sockets are created with `XSK_LIBBPF_FLAGS__INHIBIT_PROG_LOAD`, as those of `XskSocket::create`
are: libxdp loads no program, so that no context has one and no deletion closes a map. The program
and its map are loaded apart from libxdp; their descriptors are left out, and so are the mappings of
the rings.

Descriptors are numbered in the order in which they are opened. Which of the calls of a creation
succeed is an argument of it; allocations do.
-/

namespace Nethuns.AfXdp

open Nethuns.Lib

/-- The open file descriptors, the number of the next one, and how often one was closed that was
not open. -/
structure Descriptors where
  opened : List ℕ
  next : ℕ
  misclosed : ℕ
deriving DecidableEq

/-- What a context is looked up by. -/
structure CtxKey where
  netnsCookie : UInt64
  ifindex : ℕ
  queueId : UInt32
deriving DecidableEq

structure XskCtx where
  key : CtxKey
  refcount : ℕ
deriving DecidableEq

structure XskSocket where
  fd : ℕ
  ctx : CtxKey
deriving DecidableEq

structure XskUmem where
  fd : ℕ
  refcount : ℕ
  ctxList : List XskCtx
  /-- Whether the rings that the UMEM was created with are still without a socket. -/
  fillSave : Bool
  rxRingSetupDone : Bool
  txRingSetupDone : Bool
deriving DecidableEq

/-- Which of the calls of `xsk_umem__create` succeed. -/
structure UmemAnswers where
  socket : Bool
  umemReg : Bool
  umemRings : Bool
deriving DecidableEq

/-- Which of the calls of `xsk_socket__create_shared` succeed, when it loads no program. -/
structure SocketAnswers where
  config : Bool
  ifindex : Bool
  socket : Bool
  cookie : Bool
  umemRings : Bool
  rxRing : Bool
  txRing : Bool
  offsets : Bool
  rxMap : Bool
  txMap : Bool
  bind : Bool
deriving DecidableEq

/-- The arguments of `xsk_socket__create_shared`: which of the pointers are not NULL. -/
structure SocketArgs where
  key : CtxKey
  rx : Bool
  tx : Bool
  fill : Bool
deriving DecidableEq

namespace XskUmem

/-- `xsk_get_ctx`, or else `xsk_create_ctx`. The keys of the list are distinct. -/
def acquireCtx (umem : XskUmem) (args : SocketArgs) (answers : SocketAnswers) :
    Option XskUmem :=
  if umem.ctxList.any (·.key = args.key) then
    some { umem with
      ctxList := umem.ctxList.map fun ctx =>
        if ctx.key = args.key then { ctx with refcount := ctx.refcount + 1 } else ctx }
  else if args.fill && (umem.fillSave || answers.umemRings) then
    some { umem with ctxList := ⟨args.key, 1⟩ :: umem.ctxList }
  else
    none

/-- `xsk_put_ctx`. -/
def putCtx (umem : XskUmem) (key : CtxKey) : XskUmem :=
  let ctxList := umem.ctxList.map fun ctx =>
    if ctx.key = key then { ctx with refcount := ctx.refcount - 1 } else ctx
  { umem with ctxList := ctxList.filter (·.refcount ≠ 0) }

/-- The rings of a socket and its `bind`; whether all of it succeeds. -/
def setUp (umem : XskUmem) (args : SocketArgs) (fd : ℕ) (opened : Bool)
    (answers : SocketAnswers) : XskUmem × Bool :=
  let needsRx := args.rx && (opened || !umem.rxRingSetupDone)
  let needsTx := args.tx && (opened || !umem.txRingSetupDone)
  if needsRx && !answers.rxRing then
    (umem, false)
  else
    let withRx := if needsRx && fd == umem.fd then { umem with rxRingSetupDone := true } else umem
    if needsTx && !answers.txRing then
      (withRx, false)
    else
      (if needsTx && fd == umem.fd then { withRx with txRingSetupDone := true } else withRx,
        answers.offsets && (!args.rx || answers.rxMap) && (!args.tx || answers.txMap) &&
          answers.bind)

end XskUmem

namespace Descriptors

/-- A successful `socket`; the descriptor is `fds.next`. -/
def socket (fds : Descriptors) : Descriptors :=
  { fds with opened := fds.next :: fds.opened, next := fds.next + 1 }

def close (fds : Descriptors) (fd : ℕ) : Descriptors :=
  if fd ∈ fds.opened then
    { fds with opened := fds.opened.erase fd }
  else
    { fds with misclosed := fds.misclosed + 1 }

/-- `xsk_umem__create`. -/
def umemCreate (fds : Descriptors) (answers : UmemAnswers) : Descriptors × Option XskUmem :=
  if answers.socket then
    if answers.umemReg && answers.umemRings then
      (fds.socket, some ⟨fds.next, 0, [], true, false, false⟩)
    else
      (fds.socket.close fds.next, none)
  else
    (fds, none)

/-- The exit `out_socket` of a creation. -/
def outSocket (fds : Descriptors) (umem : XskUmem) (fd : ℕ) :
    Descriptors × XskUmem × Option XskSocket :=
  (if umem.refcount - 1 ≠ 0 then fds.close fd else fds,
    { umem with refcount := umem.refcount - 1 }, none)

/-- A creation from where it has a descriptor; `opened` says that it is not that of the UMEM. -/
def socketCreateWith (fds : Descriptors) (umem : XskUmem) (args : SocketArgs) (fd : ℕ)
    (opened : Bool) (answers : SocketAnswers) : Descriptors × XskUmem × Option XskSocket :=
  if answers.cookie then
    match umem.acquireCtx args answers with
    | none => fds.outSocket umem fd
    | some acquired =>
        let ready := (acquired.setUp args fd opened answers).1
        if (acquired.setUp args fd opened answers).2 then
          (fds, { ready with fillSave := false }, some ⟨fd, args.key⟩)
        else
          fds.outSocket (ready.putCtx args.key) fd
  else
    fds.outSocket umem fd

/-- `xsk_socket__create_shared`. When `socket` fails, the count stays raised. -/
def socketCreateShared (fds : Descriptors) (umem : XskUmem) (args : SocketArgs)
    (answers : SocketAnswers) : Descriptors × XskUmem × Option XskSocket :=
  if (args.rx || args.tx) && answers.config && answers.ifindex then
    let counted := { umem with refcount := umem.refcount + 1 }
    if umem.refcount > 0 then
      if answers.socket then
        fds.socket.socketCreateWith counted args fds.next true answers
      else
        (fds, counted, none)
    else
      fds.socketCreateWith counted args umem.fd false answers
  else
    (fds, umem, none)

/-- `xsk_socket__create`. -/
def socketCreate (fds : Descriptors) (umem : XskUmem) (key : CtxKey) (rx tx : Bool)
    (answers : SocketAnswers) : Descriptors × XskUmem × Option XskSocket :=
  fds.socketCreateShared umem ⟨key, rx, tx, umem.fillSave⟩ answers

/-- `xsk_socket__delete`, where `ctx->xdp_prog` is NULL. -/
def socketDelete (fds : Descriptors) (umem : XskUmem) (xsk : XskSocket) :
    Descriptors × XskUmem :=
  (if xsk.fd ≠ umem.fd then fds.close xsk.fd else fds,
    { umem.putCtx xsk.ctx with refcount := umem.refcount - 1 })

/-- `xsk_umem__delete`, and whether it succeeds. -/
def umemDelete (fds : Descriptors) (umem : XskUmem) : Descriptors × Bool :=
  if umem.refcount ≠ 0 then (fds, false) else (fds.close umem.fd, true)

end Descriptors

/-! ## Creations and deletions of sockets -/

/-- What acquiring a context does to the list: it is found there, or added. -/
inductive Acquires (key : CtxKey) (ctxList : List XskCtx) : List XskCtx → Prop
  | shares (ctx : XskCtx) (listed : ctx ∈ ctxList) (same : ctx.key = key) :
      Acquires key ctxList (ctxList.map fun ctx =>
        if ctx.key = key then { ctx with refcount := ctx.refcount + 1 } else ctx)
  | creates (absent : ∀ ctx ∈ ctxList, ctx.key ≠ key) :
      Acquires key ctxList (⟨key, 1⟩ :: ctxList)

/-- Every context in the list has a socket. -/
def XskUmem.Counted (umem : XskUmem) : Prop := ∀ ctx ∈ umem.ctxList, ctx.refcount ≠ 0

namespace XskUmem

variable {umem acquired : XskUmem} {args : SocketArgs} {answers : SocketAnswers}

theorem acquireCtx_spec (taken : umem.acquireCtx args answers = some acquired) :
    acquired.fd = umem.fd ∧ acquired.refcount = umem.refcount ∧
      Acquires args.key umem.ctxList acquired.ctxList := by
  simp only [acquireCtx] at taken
  split at taken
  · rename_i present
    rcases List.any_eq_true.mp present with ⟨ctx, listed, same⟩
    cases taken
    exact ⟨rfl, rfl, .shares ctx listed (of_decide_eq_true same)⟩
  · rename_i absent
    split at taken
    · cases taken
      refine ⟨rfl, rfl, .creates ?_⟩
      intro ctx listed same
      exact absent (List.any_eq_true.mpr ⟨ctx, listed, decide_eq_true same⟩)
    · cases taken

theorem setUp_same (fd : ℕ) (opened : Bool) :
    (umem.setUp args fd opened answers).1.fd = umem.fd ∧
      (umem.setUp args fd opened answers).1.refcount = umem.refcount ∧
      (umem.setUp args fd opened answers).1.ctxList = umem.ctxList := by
  simp only [setUp]
  split
  · exact ⟨rfl, rfl, rfl⟩
  · split <;> split
    · exact ⟨rfl, rfl, rfl⟩
    · exact ⟨rfl, rfl, rfl⟩
    · split <;> exact ⟨rfl, rfl, rfl⟩
    · split <;> exact ⟨rfl, rfl, rfl⟩

/-- Putting a context back undoes that it was acquired. -/
theorem putCtx_acquired {key : CtxKey} (counted : umem.Counted)
    (acquires : Acquires key umem.ctxList acquired.ctxList) :
    (acquired.putCtx key).ctxList = umem.ctxList := by
  have stays : umem.ctxList.filter (fun ctx => decide (ctx.refcount ≠ 0)) = umem.ctxList := by
    apply List.filter_eq_self.mpr
    intro ctx listed
    exact decide_eq_true (counted ctx listed)
  simp only [putCtx]
  generalize acquired.ctxList = ctxList at acquires ⊢
  cases acquires with
  | shares ctx listed same =>
      have back : (umem.ctxList.map fun ctx : XskCtx =>
          if ctx.key = key then { ctx with refcount := ctx.refcount + 1 } else ctx).map
            (fun ctx => if ctx.key = key then { ctx with refcount := ctx.refcount - 1 }
              else ctx) = umem.ctxList := by
        rw [List.map_map]
        apply List.map_id''
        intro ctx
        by_cases same : ctx.key = key
        · simp only [Function.comp, if_pos same, Nat.add_sub_cancel]
        · simp only [Function.comp, if_neg same]
      rw [back, stays]
  | creates absent =>
      have others : (umem.ctxList.map fun ctx : XskCtx =>
          if ctx.key = key then { ctx with refcount := ctx.refcount - 1 } else ctx) =
            umem.ctxList := by
        calc
          _ = umem.ctxList.map id := by
            apply List.map_congr_left
            intro ctx listed
            exact if_neg (absent ctx listed)
          _ = umem.ctxList := List.map_id _
      simp only [List.map_cons, others, if_true, Nat.sub_self]
      rw [List.filter_cons_of_neg (by simp), stays]

end XskUmem

/-- What a failing creation leaves of a UMEM. -/
structure XskUmem.Restored (umem kept : XskUmem) : Prop where
  fd : kept.fd = umem.fd
  refcount : kept.refcount = umem.refcount
  ctxList : kept.ctxList = umem.ctxList

/-- What a creation does to a UMEM. -/
structure XskUmem.Counts (umem kept : XskUmem) (key : CtxKey) : Prop where
  fd : kept.fd = umem.fd
  refcount : kept.refcount = umem.refcount + 1
  ctxList : Acquires key umem.ctxList kept.ctxList

namespace Descriptors

variable {fds after : Descriptors} {umem kept : XskUmem} {args : SocketArgs}
  {answers : SocketAnswers} {xsk : XskSocket} {fd : ℕ} {opened : Bool}

/-- What was opened in the meantime is closed again. -/
structure Kept (fds after : Descriptors) : Prop where
  opened : after.opened = fds.opened
  next : fds.next ≤ after.next
  misclosed : after.misclosed = fds.misclosed

theorem Kept.refl (fds : Descriptors) : fds.Kept fds := ⟨rfl, le_rfl, rfl⟩

theorem Kept.close (kept : fds.socket.Kept after) : fds.Kept (after.close fds.next) := by
  have opened : fds.next ∈ after.opened := by
    rw [kept.opened]
    exact List.mem_cons_self
  rw [Descriptors.close, if_pos opened]
  refine ⟨?_, (Nat.le_succ fds.next).trans kept.next, kept.misclosed⟩
  rw [kept.opened]
  exact List.erase_cons_head ..

theorem socket_close : fds.Kept (fds.socket.close fds.next) := (Kept.refl fds.socket).close

theorem outSocket_eq (refcount : umem.refcount = kept.refcount + 1) :
    fds.outSocket umem fd =
      (if kept.refcount ≠ 0 then fds.close fd else fds, { umem with refcount := kept.refcount },
        none) := by
  simp only [outSocket, refcount, Nat.add_sub_cancel]

theorem socketCreateWith_none (counted : umem.Counted)
    (created : fds.socketCreateWith { umem with refcount := umem.refcount + 1 } args fd opened
      answers = (after, kept, none)) :
    after = (if umem.refcount ≠ 0 then fds.close fd else fds) ∧ umem.Restored kept := by
  simp only [socketCreateWith] at created
  split at created
  · split at created
    · rw [@outSocket_eq _ _ umem _ rfl] at created
      cases created
      exact ⟨rfl, rfl, rfl, rfl⟩
    · rename_i acquired taken
      rcases XskUmem.acquireCtx_spec taken with ⟨same, count, acquires⟩
      have kept' := @XskUmem.setUp_same acquired args answers fd opened
      rw [← kept'.2.2] at acquires
      split at created
      · cases created
      · have raised : ((acquired.setUp args fd opened answers).1.putCtx args.key).refcount =
            umem.refcount + 1 := kept'.2.1.trans count
        rw [outSocket_eq raised] at created
        cases created
        exact ⟨rfl, kept'.1.trans same, rfl, XskUmem.putCtx_acquired counted acquires⟩
  · rw [@outSocket_eq _ _ umem _ rfl] at created
    cases created
    exact ⟨rfl, rfl, rfl, rfl⟩

theorem socketCreateWith_some
    (created : fds.socketCreateWith { umem with refcount := umem.refcount + 1 } args fd opened
      answers = (after, kept, some xsk)) :
    after = fds ∧ xsk = ⟨fd, args.key⟩ ∧ umem.Counts kept args.key := by
  simp only [socketCreateWith] at created
  split at created
  · split at created
    · cases created
    · rename_i acquired taken
      rcases XskUmem.acquireCtx_spec taken with ⟨same, count, acquires⟩
      have kept' := @XskUmem.setUp_same acquired args answers fd opened
      rw [← kept'.2.2] at acquires
      split at created
      · cases created
        exact ⟨rfl, rfl, kept'.1.trans same, kept'.2.1.trans count, acquires⟩
      · cases created
  · cases created

/-- The failure of `socket` with which a creation leaves its count behind. -/
def Strands (umem : XskUmem) (args : SocketArgs) (answers : SocketAnswers) : Prop :=
  (args.rx || args.tx) = true ∧ answers.config = true ∧ answers.ifindex = true ∧
    umem.refcount ≠ 0 ∧ answers.socket = false

theorem socketCreateShared_strands (strands : Strands umem args answers) :
    fds.socketCreateShared umem args answers =
      (fds, { umem with refcount := umem.refcount + 1 }, none) := by
  rcases strands with ⟨rings, config, ifindex, shared, refused⟩
  simp only [socketCreateShared, rings, config, ifindex, refused, Bool.and_self, if_true,
    if_pos (Nat.pos_of_ne_zero shared), Bool.false_eq_true, if_false]

theorem socketCreateShared_none (counted : umem.Counted)
    (created : fds.socketCreateShared umem args answers = (after, kept, none)) :
    fds.Kept after ∧
      (umem.Restored kept ∨
        Strands umem args answers ∧ kept = { umem with refcount := umem.refcount + 1 }) := by
  simp only [socketCreateShared] at created
  split at created
  · rename_i valid
    simp only [Bool.and_eq_true] at valid
    split at created
    · rename_i shared
      split at created
      · rcases socketCreateWith_none counted created with ⟨rfl, restored⟩
        rw [if_pos (Nat.ne_of_gt shared)]
        exact ⟨socket_close, .inl restored⟩
      · rename_i refused
        cases created
        exact ⟨.refl fds, .inr ⟨⟨valid.1.1, valid.1.2, valid.2, Nat.ne_of_gt shared,
          Bool.eq_false_of_not_eq_true refused⟩, rfl⟩⟩
    · rename_i alone
      rcases socketCreateWith_none counted created with ⟨rfl, restored⟩
      rw [if_neg (fun shared => alone (Nat.pos_of_ne_zero shared))]
      exact ⟨.refl fds, .inl restored⟩
  · cases created
    exact ⟨.refl fds, .inl ⟨rfl, rfl, rfl⟩⟩

theorem socketCreateShared_some
    (created : fds.socketCreateShared umem args answers = (after, kept, some xsk)) :
    xsk.ctx = args.key ∧ umem.Counts kept args.key ∧
      (umem.refcount = 0 ∧ after = fds ∧ xsk.fd = umem.fd ∨
        umem.refcount ≠ 0 ∧ after = fds.socket ∧ xsk.fd = fds.next) := by
  simp only [socketCreateShared] at created
  split at created
  · split at created
    · rename_i shared
      split at created
      · rcases socketCreateWith_some created with ⟨rfl, rfl, counts⟩
        exact ⟨rfl, counts, .inr ⟨Nat.ne_of_gt shared, rfl, rfl⟩⟩
      · cases created
    · rename_i alone
      rcases socketCreateWith_some created with ⟨rfl, rfl, counts⟩
      exact ⟨rfl, counts, .inl ⟨Nat.eq_zero_of_not_pos alone, rfl, rfl⟩⟩
  · cases created

end Descriptors

end Nethuns.AfXdp
