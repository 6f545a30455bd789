import Nethuns.AfXdp.Libxdp

/-!
# The descriptors of AF_XDP sockets

A socket of the backend has a UMEM of its own. This file follows the file descriptors through the
creations of such sockets, with all their failures, and through their drops. The descriptors of
the program that `XskSocket::create` loads and attaches are left out.
-/

namespace Nethuns.AfXdp

open Nethuns.Lib

/-- Which of the steps of `Sock::create` succeed. -/
structure Setup where
  area : Bool
  umem : UmemAnswers
  program : Bool
  key : CtxKey
  xsk : SocketAnswers
  updateXskmap : Bool
  refill : Bool
deriving DecidableEq

/-- What a socket of the backend has from libxdp. -/
structure Handles where
  umem : XskUmem
  xsk : XskSocket
deriving DecidableEq

namespace Descriptors

/-- `Umem::drop`. -/
def dropUmem (fds : Descriptors) (umem : XskUmem) : Descriptors := (fds.umemDelete umem).1

/-- The fields of a `Sock` are dropped in the order of their declaration. -/
def dropSock (fds : Descriptors) (sock : Handles) : Descriptors :=
  (fds.socketDelete sock.umem sock.xsk).1.dropUmem (fds.socketDelete sock.umem sock.xsk).2

/-- `XskSocket::create`. Nothing deletes the socket when the update of the map fails. -/
def createXsk (fds : Descriptors) (umem : XskUmem) (setup : Setup) :
    Descriptors × XskUmem × Option XskSocket :=
  if setup.program then
    match fds.socketCreate umem setup.key true true setup.xsk with
    | (fds, umem, xsk) => (fds, umem, if setup.updateXskmap then xsk else none)
  else
    (fds, umem, none)

/-- `Sock::create`. What was created before a failure is dropped in the reverse order. -/
def createSock (fds : Descriptors) (setup : Setup) : Descriptors × Option Handles :=
  if setup.area then
    match fds.umemCreate setup.umem with
    | (fds, none) => (fds, none)
    | (fds, some umem) =>
        match fds.createXsk umem setup with
        | (fds, umem, none) => (fds.dropUmem umem, none)
        | (fds, umem, some xsk) =>
            if setup.refill then (fds, some ⟨umem, xsk⟩) else (fds.dropSock ⟨umem, xsk⟩, none)
  else
    (fds, none)

end Descriptors

/-! ## The sockets of the backend -/

/-- The answers with which the first socket of a new UMEM is created. -/
def SocketAnswers.Serve (answers : SocketAnswers) : Prop :=
  answers.config ∧ answers.ifindex ∧ answers.cookie ∧ answers.rxRing ∧ answers.txRing ∧
    answers.offsets ∧ answers.rxMap ∧ answers.txMap ∧ answers.bind

/-- A creation that fails when its socket exists, but is not known to the map. -/
def Setup.Abandons (setup : Setup) : Prop :=
  setup.area ∧ setup.umem.socket ∧ setup.umem.umemReg ∧ setup.umem.umemRings ∧ setup.program ∧
    setup.xsk.Serve ∧ ¬setup.updateXskmap

instance (answers : SocketAnswers) : Decidable answers.Serve :=
  inferInstanceAs (Decidable (_ ∧ _))

instance (setup : Setup) : Decidable setup.Abandons :=
  inferInstanceAs (Decidable (_ ∧ _))

/-- A UMEM with its only socket. -/
structure Handles.Paired (sock : Handles) : Prop where
  fd : sock.xsk.fd = sock.umem.fd
  refcount : sock.umem.refcount = 1

namespace Descriptors

variable {fds after : Descriptors} {kept : XskUmem} {xsk : XskSocket} {sock : Handles}
  {setup : Setup} {fd : ℕ}

theorem setUp_isServed (key : CtxKey) (answers : SocketAnswers) (ctxList : List XskCtx) :
    (XskUmem.setUp ⟨fd, 1, ctxList, true, false, false⟩ ⟨key, true, true, true⟩ fd false
      answers).2 = true ↔
      answers.rxRing ∧ answers.txRing ∧ answers.offsets ∧ answers.rxMap ∧ answers.txMap ∧
        answers.bind := by
  cases rx : answers.rxRing with
  | false => simp [XskUmem.setUp, rx]
  | true =>
      cases tx : answers.txRing with
      | false => simp [XskUmem.setUp, rx, tx]
      | true => simp [XskUmem.setUp, rx, tx, and_assoc]

theorem socketCreate_isSome (key : CtxKey) (answers : SocketAnswers) :
    (fds.socketCreate ⟨fd, 0, [], true, false, false⟩ key true true answers).2.2.isSome ↔
      answers.Serve := by
  rw [SocketAnswers.Serve, ← @setUp_isServed fd key answers [⟨key, 1⟩]]
  cases config : answers.config with
  | false => simp [socketCreate, socketCreateShared, config]
  | true =>
      cases ifindex : answers.ifindex with
      | false => simp [socketCreate, socketCreateShared, ifindex]
      | true =>
          cases cookie : answers.cookie with
          | false =>
              simp [socketCreate, socketCreateShared, socketCreateWith, outSocket, config,
                ifindex, cookie]
          | true =>
              cases ready : (XskUmem.setUp ⟨fd, 1, [⟨key, 1⟩], true, false, false⟩
                  ⟨key, true, true, true⟩ fd false answers).2 with
              | false =>
                  simp [socketCreate, socketCreateShared, socketCreateWith, XskUmem.acquireCtx,
                    outSocket, config, ifindex, cookie, ready]
              | true =>
                  simp [socketCreate, socketCreateShared, socketCreateWith, XskUmem.acquireCtx,
                    config, ifindex, cookie, ready]

theorem dropSock_paired (paired : sock.Paired) :
    fds.dropSock sock = fds.close sock.umem.fd := by
  simp only [dropSock, socketDelete, dropUmem, umemDelete, paired.fd, paired.refcount,
    XskUmem.putCtx, ne_eq, not_true_eq_false, if_false, Nat.sub_self]

/-- The socket of a new UMEM is the first one, so that a failure leaves no count behind. -/
theorem socketCreate_cases (key : CtxKey) (answers : SocketAnswers) :
    (∃ kept xsk, fds.socketCreate ⟨fd, 0, [], true, false, false⟩ key true true answers =
        (fds, kept, some xsk) ∧ Handles.Paired ⟨kept, xsk⟩ ∧ kept.fd = fd ∧ answers.Serve) ∨
      ∃ after kept, fds.socketCreate ⟨fd, 0, [], true, false, false⟩ key true true answers =
        (after, kept, none) ∧ fds.Kept after ∧ kept.fd = fd ∧ kept.refcount = 0 ∧
          ¬answers.Serve := by
  have isSome := @socketCreate_isSome fds fd key answers
  have counted : XskUmem.Counted ⟨fd, 0, [], true, false, false⟩ := by
    intro ctx listed
    cases listed
  rcases created : fds.socketCreate ⟨fd, 0, [], true, false, false⟩ key true true answers with
    ⟨after, kept, xsk⟩
  rw [created] at isSome
  cases xsk with
  | none =>
      right
      refine ⟨after, kept, rfl, ?_⟩
      have unserved : ¬answers.Serve := by
        intro serve
        cases isSome.mpr serve
      rcases socketCreateShared_none counted created with ⟨closed, restored | strands⟩
      · exact ⟨closed, restored.fd, restored.refcount, unserved⟩
      · cases strands.1.2.2.2.1 rfl
  | some xsk =>
      left
      rcases socketCreateShared_some created with ⟨-, counts, alone | shared⟩
      · rcases alone with ⟨-, rfl, same⟩
        exact ⟨kept, xsk, rfl, ⟨same.trans counts.fd.symm, counts.refcount⟩, counts.fd,
          isSome.mp rfl⟩
      · cases shared.1 rfl

/-- libxdp refuses to delete a UMEM that has a socket. -/
theorem dropUmem_used {umem : XskUmem} (refcount : umem.refcount ≠ 0) :
    fds.dropUmem umem = fds := by
  simp only [dropUmem, umemDelete, if_pos refcount]

theorem umemCreate_none (answers : UmemAnswers)
    (failed : ¬(answers.socket ∧ answers.umemReg ∧ answers.umemRings)) :
    ∃ after, fds.umemCreate answers = (after, none) ∧ fds.Kept after := by
  by_cases socket : answers.socket
  · refine ⟨fds.socket.close fds.next, ?_, socket_close⟩
    have unregistered : (answers.umemReg && answers.umemRings) ≠ true := by
      intro both
      exact failed ⟨socket, Bool.and_eq_true_iff.mp both⟩
    simp only [umemCreate, if_pos socket, if_neg unregistered]
  · exact ⟨fds, by simp only [umemCreate, if_neg socket], .refl fds⟩

theorem dropUmem_created {umem : XskUmem} (fresh : umem.fd = fds.next)
    (refcount : umem.refcount = 0) (kept : fds.socket.Kept after) :
    fds.Kept (after.dropUmem umem) := by
  simp only [dropUmem, umemDelete, refcount, ne_eq, not_true_eq_false, if_false, fresh]
  exact kept.close

/-- What became of a creation, by the descriptors that it leaves open. -/
theorem createSock_cases :
    (∃ sock, fds.createSock setup = (fds.socket, some sock) ∧ sock.Paired ∧
        sock.umem.fd = fds.next ∧ ¬setup.Abandons) ∨
      ∃ after, fds.createSock setup = (after, none) ∧
        (fds.Kept after ∧ ¬setup.Abandons ∨ after = fds.socket ∧ setup.Abandons) := by
  by_cases area : setup.area
  swap
  · right
    exact ⟨fds, by simp only [createSock, if_neg area], .inl ⟨.refl fds, fun all => area all.1⟩⟩
  by_cases made : setup.umem.socket ∧ setup.umem.umemReg ∧ setup.umem.umemRings
  swap
  · rcases umemCreate_none setup.umem made with ⟨after, failed, closed⟩
    right
    refine ⟨after, by simp only [createSock, if_pos area, failed], .inl ⟨closed, ?_⟩⟩
    intro abandons
    exact made ⟨abandons.2.1, abandons.2.2.1, abandons.2.2.2.1⟩
  have umem : fds.umemCreate setup.umem =
      (fds.socket, some ⟨fds.next, 0, [], true, false, false⟩) := by
    simp only [umemCreate, made.1, made.2.1, made.2.2, Bool.and_self, if_true]
  by_cases program : setup.program
  swap
  · right
    refine ⟨fds.socket.dropUmem ⟨fds.next, 0, [], true, false, false⟩, ?_,
      .inl ⟨dropUmem_created rfl rfl (.refl _), ?_⟩⟩
    · simp only [createSock, if_pos area, umem, createXsk, if_neg program]
    · intro abandons
      exact program abandons.2.2.2.2.1
  rcases @socketCreate_cases fds.socket fds.next setup.key setup.xsk with
    ⟨kept, xsk, created, paired, same, serve⟩ | ⟨after, kept, created, closed, same, rest⟩
  · by_cases updateXskmap : setup.updateXskmap
    · have served : ¬setup.Abandons := fun abandons => abandons.2.2.2.2.2.2 updateXskmap
      by_cases refill : setup.refill
      · left
        refine ⟨⟨kept, xsk⟩, ?_, paired, same, served⟩
        simp only [createSock, if_pos area, umem, createXsk, if_pos program, created,
          if_pos updateXskmap, if_pos refill]
      · right
        refine ⟨fds.socket.dropSock ⟨kept, xsk⟩, ?_, .inl ⟨?_, served⟩⟩
        · simp only [createSock, if_pos area, umem, createXsk, if_pos program, created,
            if_pos updateXskmap, if_neg refill]
        · rw [dropSock_paired paired, same]
          exact socket_close
    · -- The UMEM still counts the socket that nobody has.
      right
      refine ⟨fds.socket, ?_, .inr ⟨rfl, area, made.1, made.2.1, made.2.2, program, serve,
        updateXskmap⟩⟩
      have counts : kept.refcount ≠ 0 := ne_of_eq_of_ne paired.refcount Nat.one_ne_zero
      simp only [createSock, if_pos area, umem, createXsk, if_pos program, created,
        if_neg updateXskmap, dropUmem_used counts]
  · rcases rest with ⟨refcount, unserved⟩
    right
    refine ⟨after.dropUmem kept, ?_, .inl ⟨dropUmem_created same refcount closed, ?_⟩⟩
    · simp only [createSock, if_pos area, umem, createXsk, if_pos program, created, ite_self]
    · intro abandons
      exact unserved abandons.2.2.2.2.2.1

end Descriptors

/-! ## Runs -/

/-- A process, its descriptors for AF_XDP, and its sockets. -/
structure Process where
  fds : Descriptors
  socks : List Handles
deriving DecidableEq

inductive ProcessAction
  | create (setup : Setup)
  | drop (position : ℕ)
deriving DecidableEq

/-- Whether the action is a creation that abandons its socket. -/
def ProcessAction.Abandons : ProcessAction → Prop
  | create setup => setup.Abandons
  | drop _ => False

instance : DecidablePred ProcessAction.Abandons
  | .create setup => inferInstanceAs (Decidable setup.Abandons)
  | .drop _ => inferInstanceAs (Decidable False)

@[simp]
theorem ProcessAction.abandons_create (setup : Setup) : (create setup).Abandons ↔ setup.Abandons :=
  .rfl

@[simp]
theorem ProcessAction.not_abandons_drop (position : ℕ) : ¬(drop position).Abandons := id

namespace Process

def start (next : ℕ) : Process := ⟨⟨[], next, 0⟩, []⟩

def step (process : Process) : ProcessAction → Option Process
  | .create setup =>
      let (fds, created) := process.fds.createSock setup
      some ⟨fds, process.socks ++ created.toList⟩
  | .drop position =>
      process.socks[position]?.map fun sock =>
        ⟨process.fds.dropSock sock, process.socks.eraseIdx position⟩

/-- The open descriptors are those of the sockets, and those of the abandoned ones. -/
structure Tracked (process : Process) (abandoned : Multiset ℕ) : Prop where
  opened : (process.fds.opened : Multiset ℕ) =
    ↑(process.socks.map fun sock => sock.umem.fd) + abandoned
  nodup : process.fds.opened.Nodup
  below : ∀ fd ∈ process.fds.opened, fd < process.fds.next
  misclosed : process.fds.misclosed = 0
  paired : ∀ sock ∈ process.socks, sock.Paired

variable {process next final : Process} {abandoned : Multiset ℕ} {setup : Setup}

theorem Tracked.socket (tracked : process.Tracked abandoned) :
    process.fds.socket.opened.Nodup ∧
      ∀ fd ∈ process.fds.socket.opened, fd < process.fds.socket.next := by
  have fresh : process.fds.next ∉ process.fds.opened := fun opened =>
    Nat.lt_irrefl _ (tracked.below _ opened)
  refine ⟨List.nodup_cons.mpr ⟨fresh, tracked.nodup⟩, ?_⟩
  simp only [Descriptors.socket, List.forall_mem_cons]
  exact ⟨Nat.lt_succ_self _, fun fd opened => Nat.lt_succ_of_lt (tracked.below fd opened)⟩

theorem step_create (tracked : process.Tracked abandoned)
    (stepped : process.step (.create setup) = some next) :
    ∃ more, next.Tracked (abandoned + more) ∧ more.card = if setup.Abandons then 1 else 0 := by
  have created := @Descriptors.createSock_cases process.fds setup
  rcases created with ⟨sock, created, paired, same, served⟩ | ⟨after, created, cases⟩
  · simp only [step, created, Option.some.injEq] at stepped
    subst next
    refine ⟨0, ⟨?_, tracked.socket.1, tracked.socket.2, tracked.misclosed, ?_⟩,
      by rw [if_neg served, Multiset.card_zero]⟩
    · simp only [Descriptors.socket, Option.toList_some, List.map_append, List.map_singleton, same]
      rw [← Multiset.cons_coe, ← Multiset.singleton_add, tracked.opened, ← Multiset.coe_add,
        Multiset.coe_singleton, add_zero]
      ac_rfl
    · simp only [Option.toList_some, List.forall_mem_append, List.forall_mem_singleton]
      exact ⟨tracked.paired, paired⟩
  · simp only [step, created, Option.some.injEq, Option.toList_none, List.append_nil] at stepped
    subst next
    rcases cases with ⟨closed, served⟩ | ⟨rfl, abandons⟩
    · refine ⟨0, ⟨?_, ?_, ?_, ?_, tracked.paired⟩, by rw [if_neg served, Multiset.card_zero]⟩
      · rw [closed.opened, tracked.opened, add_zero]
      · rw [closed.opened]
        exact tracked.nodup
      · rw [closed.opened]
        exact fun fd listed => (tracked.below fd listed).trans_le closed.next
      · rw [closed.misclosed, tracked.misclosed]
    · refine ⟨{process.fds.next},
        ⟨?_, tracked.socket.1, tracked.socket.2, tracked.misclosed, tracked.paired⟩,
        by rw [if_pos abandons, Multiset.card_singleton]⟩
      rw [Descriptors.socket, ← Multiset.cons_coe, ← Multiset.singleton_add, tracked.opened,
        add_comm, add_assoc]

theorem step_drop {position : ℕ} (tracked : process.Tracked abandoned)
    (stepped : process.step (.drop position) = some next) : next.Tracked abandoned := by
  simp only [step, Option.map_eq_some_iff] at stepped
  rcases stepped with ⟨sock, listed, rfl⟩
  have paired := tracked.paired sock (List.mem_of_getElem? listed)
  have opened : (process.fds.opened : Multiset ℕ) = sock.umem.fd ::ₘ
      (((process.socks.eraseIdx position).map fun sock => sock.umem.fd : List ℕ) + abandoned) := by
    rw [tracked.opened, ← coe_map_eraseIdx (fun sock : Handles => sock.umem.fd) listed,
      ← Multiset.singleton_add]
    ac_rfl
  have present : sock.umem.fd ∈ process.fds.opened := by
    rw [← Multiset.mem_coe, opened]
    exact Multiset.mem_cons_self ..
  rw [Descriptors.dropSock_paired paired, Descriptors.close, if_pos present]
  refine ⟨?_, tracked.nodup.erase _, ?_, tracked.misclosed, ?_⟩
  · rw [← Multiset.coe_erase, opened, Multiset.erase_cons_head]
  · intro fd opened
    exact tracked.below fd (List.mem_of_mem_erase opened)
  · intro sock kept
    exact tracked.paired sock (List.mem_of_mem_eraseIdx kept)

theorem run_tracked {actions : List ProcessAction} (tracked : process.Tracked abandoned)
    (performed : run step process actions = some final) :
    ∃ more, final.Tracked (abandoned + more) ∧
      more.card = actions.countP (fun action => action.Abandons) := by
  induction actions generalizing process abandoned with
  | nil =>
      cases performed
      exact ⟨0, by rwa [add_zero], rfl⟩
  | cons action actions ih =>
      rcases run_cons_eq_some.mp performed with ⟨next, stepped, rest⟩
      cases action with
      | create setup =>
          rcases step_create tracked stepped with ⟨first, kept, counted⟩
          rcases ih kept rest with ⟨more, tracked', counted'⟩
          refine ⟨first + more, by rwa [← add_assoc], ?_⟩
          simp only [Multiset.card_add, counted, counted', List.countP_cons,
            ProcessAction.abandons_create, decide_eq_true_eq]
          exact Nat.add_comm _ _
      | drop position =>
          rcases ih (step_drop tracked stepped) rest with ⟨more, tracked', counted'⟩
          refine ⟨more, tracked', counted'.trans ?_⟩
          exact (List.countP_cons_of_neg (by simp)).symm

/-- After any creations and drops, nothing was closed twice, each socket has a descriptor of its own
open, and one more is open for each creation that failed at the update of the map. -/
theorem descriptors_tracked {first : ℕ} {actions : List ProcessAction}
    (performed : run step (start first) actions = some final) :
    final.fds.misclosed = 0 ∧ final.fds.opened.Nodup ∧
      (final.socks.map fun sock => sock.umem.fd).Subperm final.fds.opened ∧
      final.fds.opened.length =
        final.socks.length + actions.countP (fun action => action.Abandons) := by
  have initial : (start first).Tracked 0 := by
    refine ⟨rfl, List.nodup_nil, ?_, rfl, ?_⟩
    · intro fd opened
      cases opened
    · intro sock listed
      cases listed
  rcases run_tracked initial performed with ⟨more, tracked, counted⟩
  have opened := tracked.opened
  rw [zero_add] at opened
  refine ⟨tracked.misclosed, tracked.nodup, ?_, ?_⟩
  · rw [← Multiset.coe_le, opened]
    exact Multiset.le_add_right _ _
  · have sizes := congrArg Multiset.card opened
    simpa only [Multiset.coe_card, Multiset.card_add, List.length_map, counted] using sizes

/-- One socket that is created and dropped, and one whose creation fails in between. -/
def unmappedBetween : List ProcessAction :=
  let umem : UmemAnswers := ⟨true, true, true⟩
  let xsk : SocketAnswers :=
    ⟨true, true, true, true, true, true, true, true, true, true, true⟩
  [.create ⟨true, umem, true, ⟨1, 2, 0⟩, xsk, true, true⟩,
    .create ⟨true, umem, true, ⟨1, 3, 0⟩, xsk, false, true⟩, .drop 0]

theorem descriptors_tracked_unmapped :
    ∃ final, run step (start 3) unmappedBetween = some final ∧ final.socks = [] ∧
      final.fds.opened = [4] ∧ final.fds.misclosed = 0 ∧ final.fds.opened.Nodup ∧
      (final.socks.map fun sock => sock.umem.fd).Subperm final.fds.opened ∧
      final.fds.opened.length =
        final.socks.length + unmappedBetween.countP (fun action => action.Abandons) :=
  ⟨_, rfl, rfl, rfl, descriptors_tracked rfl⟩

end Process

end Nethuns.AfXdp
