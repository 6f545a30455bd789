import Nethuns.AfXdp.Sock
import Nethuns.Mpsc.Delivery

/-!
# Where the frames of an AF_XDP socket are

A frame is named by its address divided by the frame size; a packet received by the kernel may
begin anywhere in its chunk. A chunk lies in a frame when the frame size is a multiple of the size
of the chunks; for other frame sizes what is shown here depends on where the kernel puts the
packets. This file collects the addresses of all the places where a frame can
be and follows them through the operations that only move frames, or lose some. It follows at the
same time what the frames of the transmit ring contain: an operation keeps the packets that wait
for the kernel as long as no frame is in two places.
-/

namespace Nethuns.AfXdp

open Nethuns.Lib Nethuns.Mpsc Nethuns.Api

def XdpDesc.offset (desc : XdpDesc) : ℕ := desc.addr.toNat

namespace AfXdpFlags

/-- The frame of an address. -/
def frame (flags : AfXdpFlags) (addr : ℕ) : ℕ := addr / flags.frameSize.toNat

def umemLen (flags : AfXdpFlags) : ℕ := flags.numFrames.toNat * flags.frameSize.toNat

/-- The UMEM can be addressed with 32 bits. -/
def Fits (flags : AfXdpFlags) : Prop := flags.umemLen < 2 ^ 32

instance (flags : AfXdpFlags) : Decidable flags.Fits := inferInstanceAs (Decidable (_ < _))

/-- A run of bytes that stays in the frame in which it begins. -/
def Inside (flags : AfXdpFlags) (addr len : ℕ) : Prop :=
  addr % flags.frameSize.toNat + len ≤ flags.frameSize.toNat

/-- Each frame consists of whole chunks, and of at least one. -/
def Chunked (flags : AfXdpFlags) : Prop :=
  0 < flags.frameSize.toNat ∧ chunkSize ∣ flags.frameSize.toNat

instance (flags : AfXdpFlags) : Decidable flags.Chunked := inferInstanceAs (Decidable (_ ∧ _))

variable {flags : AfXdpFlags}

theorem lt_umemLen_of_frame_eq {addr other : ℕ} (same : flags.frame other = flags.frame addr)
    (within : addr < flags.umemLen) : other < flags.umemLen := by
  have positive : 0 < flags.frameSize.toNat := by
    apply Nat.pos_of_ne_zero
    intro zero
    simp [umemLen, zero] at within
  simp only [frame] at same
  simp only [umemLen, ← Nat.div_lt_iff_lt_mul positive, ← same] at within ⊢
  exact within

theorem Inside.disjoint {addr other len otherLen : ℕ} (inside : flags.Inside addr len)
    (otherInside : flags.Inside other otherLen) (apart : flags.frame addr ≠ flags.frame other) :
    addr + len ≤ other ∨ other + otherLen ≤ addr := by
  simp only [Inside] at inside otherInside
  simp only [frame] at apart
  have position := Nat.div_add_mod addr flags.frameSize.toNat
  have otherPosition := Nat.div_add_mod other flags.frameSize.toNat
  rcases Nat.lt_or_gt_of_ne apart with earlier | later
  · have := Nat.mul_le_mul_left flags.frameSize.toNat earlier
    rw [Nat.succ_eq_add_one, Nat.mul_add, Nat.mul_one] at this
    omega
  · have := Nat.mul_le_mul_left flags.frameSize.toNat later
    rw [Nat.succ_eq_add_one, Nat.mul_add, Nat.mul_one] at this
    omega

theorem Inside.toNat_ofNat {addr len : ℕ} (inside : flags.Inside addr len) :
    (UInt32.ofNat len).toNat = len := by
  have := flags.frameSize.toNat_lt
  simp only [Inside] at inside
  rw [UInt32.toNat_ofNat']
  omega

theorem Chunked.frame_eq {addr other : ℕ} (chunked : flags.Chunked)
    (same : other / chunkSize = addr / chunkSize) : flags.frame other = flags.frame addr := by
  rcases chunked with ⟨-, chunks, whole⟩
  simp only [frame, whole, ← Nat.div_div_eq_div_mul, same]

theorem Chunked.inside {addr len : ℕ} (chunked : flags.Chunked)
    (within : addr % chunkSize + len ≤ chunkSize) : flags.Inside addr len := by
  rcases chunked with ⟨positive, chunks, whole⟩
  rw [whole] at positive
  have earlier : addr / chunkSize % chunks < chunks :=
    Nat.mod_lt _ (Nat.pos_of_mul_pos_left positive)
  rw [Inside, whole, Nat.mod_mul]
  calc addr % chunkSize + chunkSize * (addr / chunkSize % chunks) + len =
        addr % chunkSize + len + chunkSize * (addr / chunkSize % chunks) := by omega
    _ ≤ chunkSize + chunkSize * (addr / chunkSize % chunks) := Nat.add_le_add_right within _
    _ = chunkSize * (addr / chunkSize % chunks + 1) := by rw [Nat.mul_add, Nat.mul_one, add_comm]
    _ ≤ chunkSize * chunks := Nat.mul_le_mul_left _ earlier

end AfXdpFlags

/-! ## Where the kernel puts packets -/

/-- The kernel returns the frame that it took: a packet in the chunk of an address begins in its
frame. With `confined` the packet also stays in this frame. -/
def KernelAction.Returns (flags : AfXdpFlags) (confined : Prop) : KernelAction → Prop
  | .receive addr desc packet => InChunk addr desc packet →
      flags.frame desc.offset = flags.frame addr.toNat ∧
        (confined → flags.Inside desc.offset packet.length)
  | _ => True

def KernelReturns (flags : AfXdpFlags) (confined : Prop) (actions : List KernelAction) : Prop :=
  ∀ action ∈ actions, action.Returns flags confined

/-- All the steps of the kernel during a call that sends return the frames that they take. -/
structure Interleaving.Returns (flags : AfXdpFlags) (confined : Prop) (kernel : Interleaving) :
    Prop where
  reserve : KernelReturns flags confined kernel.reserve
  completion : KernelReturns flags confined kernel.completion
  wakeup : KernelReturns flags confined kernel.wakeup

/-- All the steps of the kernel during an action return the frames that they take. -/
def Action.Returns (flags : AfXdpFlags) (confined : Prop) : Action → Prop
  | .recvToken before after | .recv before after =>
      KernelReturns flags confined before ∧ KernelReturns flags confined after
  | .send _ _ steps | .flush _ steps => steps.Returns flags confined
  | .kernel action => action.Returns flags confined
  | .pool _ | .writePayload _ _ => True

section

variable {flags : AfXdpFlags} {confined : Prop}

theorem KernelReturns.nil : KernelReturns flags confined [] := by
  intro action member
  simp at member

theorem AfXdpFlags.Chunked.kernelReturns (chunked : flags.Chunked) (actions : List KernelAction) :
    KernelReturns flags confined actions := by
  intro action _
  cases action with
  | receive addr desc packet =>
      rintro ⟨same, -, within⟩
      exact ⟨chunked.frame_eq same, fun _ => chunked.inside within⟩
  | _ => trivial

theorem AfXdpFlags.Chunked.interleavingReturns (chunked : flags.Chunked) (kernel : Interleaving) :
    kernel.Returns flags confined :=
  ⟨chunked.kernelReturns _, chunked.kernelReturns _, chunked.kernelReturns _⟩

/-- Where the frames consist of whole chunks, the kernel cannot but return the frames. -/
theorem AfXdpFlags.Chunked.returns (chunked : flags.Chunked) (action : Action) :
    action.Returns flags confined := by
  have all : ∀ actions, KernelReturns flags confined actions := chunked.kernelReturns
  cases action with
  | recvToken before after => exact ⟨all before, all after⟩
  | recv before after => exact ⟨all before, all after⟩
  | send packet site kernel => exact chunked.interleavingReturns kernel
  | flush site kernel => exact chunked.interleavingReturns kernel
  | kernel action => exact all [action] action (List.mem_singleton_self action)
  | pool action => trivial
  | writePayload payload bytes => trivial

end

namespace Sock

/-- The addresses of the frames in the fill ring, with the kernel for reception, in the receive
ring or its cache, in the transmit ring, with the kernel for transmission, and in the completion
ring. -/
def ringAddresses (sock : Sock) : Multiset ℕ :=
  ↑(sock.fq.pending.map UInt64.toNat) + ↑(sock.kernelRx.map UInt64.toNat) +
    ↑(sock.rx.waiting.map XdpDesc.offset) + ↑(sock.tx.descs.map XdpDesc.offset) +
    ↑(sock.kernelTx.map fun taken => taken.1.offset) + ↑(sock.cq.pending.map UInt64.toNat)

/-- The addresses of the frames in all the places where a frame can be: with the users or in the
free channel, and in the rings or with the kernel. -/
def addresses (sock : Sock) : Multiset ℕ := sock.pool.held + sock.ringAddresses

/-- The frames in all these places. -/
def frames (flags : AfXdpFlags) (sock : Sock) : Multiset ℕ := sock.addresses.map flags.frame

/-- The descriptors that the kernel has or will have, each with its position in the sequence of
those handed out. -/
def live (sock : Sock) : List (XdpDesc × ℕ) :=
  sock.kernelTx ++ sock.tx.descs.zipIdx (sock.tx.exposed.length - sock.tx.tx.used)

/-- The frames of these descriptors contain the given packets. -/
def Delivers (flags : AfXdpFlags) (sent : List (List UInt8)) (sock : Sock) : Prop :=
  ∀ entry ∈ sock.live, sock.tx.issued[entry.2]? = some entry.1 ∧
    ∃ packet, sent[entry.2]? = some packet ∧ flags.Inside entry.1.offset packet.length ∧
      readBytes sock.mem entry.1.offset packet.length = packet

/-- The free channel and the rings are in order, and unused slots of the transmit ring point into
the UMEM. With `confined`, received packets stay in their frames. -/
structure Working (flags : AfXdpFlags) (confined : Prop) (sock : Sock) : Prop where
  sane : sock.pool.Sane
  fq : sock.fq.Producing 0
  cq : sock.cq.Consuming
  rx : sock.rx.rx.Consuming
  tx : sock.tx.Sound
  cells_lt : ∀ cell, (sock.tx.tx.ring cell).offset < flags.umemLen
  waiting_inside : confined → ∀ desc ∈ sock.rx.waiting, flags.Inside desc.offset desc.len.toNat
  tokens_inside : confined → ∀ token ∈ sock.pool.liveTokens,
    flags.Inside token.idx token.len.toNat

/-- Also, all the addresses are in the UMEM. -/
structure Intact (flags : AfXdpFlags) (confined : Prop) (sock : Sock) : Prop
    extends Working flags confined sock where
  addresses_lt : ∀ addr ∈ sock.addresses, addr < flags.umemLen

theorem Intact.weaken {confined : Prop} {flags : AfXdpFlags} {sock : Sock}
    (intact : sock.Intact flags True) : sock.Intact flags confined :=
  { intact with
    waiting_inside := fun _ => intact.waiting_inside trivial
    tokens_inside := fun _ => intact.tokens_inside trivial }

/-- An operation that loses some frames and moves the others. With `confined` it leaves the packets
alone that wait for the kernel. -/
structure Moves (flags : AfXdpFlags) (confined : Prop) (sock next : Sock) (lost : Multiset ℕ) :
    Prop where
  intact : next.Intact flags confined
  balance : next.frames flags + lost = sock.frames flags
  capacity : next.pool.channel.singleSpscLen = sock.pool.channel.singleSpscLen
  issued : next.tx.issued = sock.tx.issued
  delivers : confined → (sock.frames flags).Nodup → ∀ sent, sock.Delivers flags sent →
    next.Delivers flags sent

variable {flags : AfXdpFlags} {confined : Prop} {sock middle next : Sock} {lost : Multiset ℕ}

theorem Moves.refl (intact : sock.Intact flags confined) : Moves flags confined sock sock 0 :=
  ⟨intact, add_zero _, rfl, rfl, fun _ _ _ delivers => delivers⟩

theorem Moves.nodup (moves : Moves flags confined sock next lost)
    (nodup : (sock.frames flags).Nodup) : (next.frames flags).Nodup := by
  rw [← moves.balance] at nodup
  exact Multiset.nodup_of_le (Multiset.le_add_right _ _) nodup

theorem Moves.trans {lost' : Multiset ℕ} (first : Moves flags confined sock middle lost)
    (second : Moves flags confined middle next lost') :
    Moves flags confined sock next (lost + lost') := by
  refine ⟨second.intact, ?_, second.capacity.trans first.capacity,
    second.issued.trans first.issued, ?_⟩
  · rw [add_comm lost, ← add_assoc, second.balance, first.balance]
  · intro known nodup sent delivers
    exact second.delivers known (first.nodup nodup) sent
      (first.delivers known nodup sent delivers)

theorem Moves.of_addresses {lost : Multiset ℕ} (intact : sock.Intact flags confined)
    (working : next.Working flags confined)
    (capacity : next.pool.channel.singleSpscLen = sock.pool.channel.singleSpscLen)
    (issued : next.tx.issued = sock.tx.issued)
    (delivers : confined → (sock.frames flags).Nodup → ∀ sent, sock.Delivers flags sent →
      next.Delivers flags sent)
    (balance : next.addresses + lost = sock.addresses) :
    Moves flags confined sock next (lost.map flags.frame) := by
  refine ⟨⟨working, ?_⟩, ?_, capacity, issued, delivers⟩
  · intro addr addr_mem
    apply intact.addresses_lt
    rw [← balance]
    exact Multiset.mem_add.mpr (Or.inl addr_mem)
  · simp only [frames, ← Multiset.map_add, balance]

theorem Moves.of_same_addresses (intact : sock.Intact flags confined)
    (working : next.Working flags confined)
    (capacity : next.pool.channel.singleSpscLen = sock.pool.channel.singleSpscLen)
    (issued : next.tx.issued = sock.tx.issued)
    (delivers : confined → (sock.frames flags).Nodup → ∀ sent, sock.Delivers flags sent →
      next.Delivers flags sent)
    (same : next.addresses = sock.addresses) : Moves flags confined sock next 0 := by
  have moves := of_addresses intact working capacity issued delivers ((add_zero _).trans same)
  simpa using moves

theorem Moves.of_relocated {old new : ℕ} (intact : sock.Intact flags confined)
    (working : next.Working flags confined)
    (capacity : next.pool.channel.singleSpscLen = sock.pool.channel.singleSpscLen)
    (issued : next.tx.issued = sock.tx.issued)
    (delivers : confined → (sock.frames flags).Nodup → ∀ sent, sock.Delivers flags sent →
      next.Delivers flags sent)
    (within : old < flags.umemLen) (same : flags.frame new = flags.frame old)
    (balance : next.addresses + {old} = sock.addresses + {new}) :
    Moves flags confined sock next 0 := by
  refine ⟨⟨working, ?_⟩, ?_, capacity, issued, delivers⟩
  · intro addr addr_mem
    have present : addr ∈ sock.addresses + {new} := by
      rw [← balance]
      exact Multiset.mem_add.mpr (Or.inl addr_mem)
    rcases Multiset.mem_add.mp present with before | relocated
    · exact intact.addresses_lt addr before
    · rw [Multiset.mem_singleton.mp relocated]
      exact AfXdpFlags.lt_umemLen_of_frame_eq same within
  · have frames_eq := congrArg (Multiset.map flags.frame) balance
    simp only [Multiset.map_add, Multiset.map_singleton, same] at frames_eq
    rw [add_zero]
    exact add_right_cancel frames_eq

theorem Delivers.of_subset {sent : List (List UInt8)} (delivers : sock.Delivers flags sent)
    (subset : ∀ entry ∈ next.live, entry ∈ sock.live) (issued : next.tx.issued = sock.tx.issued)
    (mem : next.mem = sock.mem) : next.Delivers flags sent := by
  intro entry entry_live
  rw [issued, mem]
  exact delivers entry (subset entry entry_live)

theorem live_offset_mem {entry : XdpDesc × ℕ} (live : entry ∈ sock.live) :
    entry.1.offset ∈ (↑(sock.tx.descs.map XdpDesc.offset) : Multiset ℕ) +
      ↑(sock.kernelTx.map fun taken => taken.1.offset) := by
  simp only [Sock.live, List.mem_append] at live
  simp only [Multiset.mem_add, Multiset.mem_coe, List.mem_map]
  rcases live with taken | ringed
  · exact Or.inr ⟨entry, taken, rfl⟩
  · exact Or.inl ⟨entry.1, List.fst_mem_of_mem_zipIdx ringed, rfl⟩

/-- A write into a frame that no live descriptor is in leaves the packets alone. -/
theorem Delivers.of_write {sent : List (List UInt8)} {addr : ℕ} {bytes : List UInt8}
    (delivers : sock.Delivers flags sent) (inside : flags.Inside addr bytes.length)
    (apart : ∀ entry ∈ sock.live, flags.frame addr ≠ flags.frame entry.1.offset)
    (live : next.live = sock.live) (issued : next.tx.issued = sock.tx.issued)
    (mem : next.mem = writeBytes sock.mem addr bytes) : next.Delivers flags sent := by
  intro entry entry_live
  rw [live] at entry_live
  rcases delivers entry entry_live with ⟨numbered, packet, sent_eq, packet_inside, read⟩
  refine ⟨issued ▸ numbered, packet, sent_eq, packet_inside, ?_⟩
  have disjoint := inside.disjoint packet_inside (apart entry entry_live)
  rw [mem, readBytes_writeBytes_of_disjoint (by omega), read]

/-- When no frame is in two places, a frame of the free channel, of a user or of the kernel for
reception is none of a live descriptor. -/
theorem frame_ne_of_live {addr : ℕ} {entry : XdpDesc × ℕ} (nodup : (sock.frames flags).Nodup)
    (present : addr ∈ sock.pool.held + ↑(sock.kernelRx.map UInt64.toNat))
    (live : entry ∈ sock.live) : flags.frame addr ≠ flags.frame entry.1.offset := by
  have both : {addr} + {entry.1.offset} ≤ sock.addresses := by
    calc {addr} + {entry.1.offset} ≤ (sock.pool.held + ↑(sock.kernelRx.map UInt64.toNat)) +
          (↑(sock.tx.descs.map XdpDesc.offset) +
            ↑(sock.kernelTx.map fun taken => taken.1.offset)) :=
        add_le_add (Multiset.singleton_le.mpr present)
          (Multiset.singleton_le.mpr (live_offset_mem live))
      _ ≤ (sock.pool.held + ↑(sock.kernelRx.map UInt64.toNat)) +
          (↑(sock.tx.descs.map XdpDesc.offset) +
            ↑(sock.kernelTx.map fun taken => taken.1.offset)) +
          (↑(sock.fq.pending.map UInt64.toNat) + ↑(sock.rx.waiting.map XdpDesc.offset) +
            ↑(sock.cq.pending.map UInt64.toNat)) := Multiset.le_add_right _ _
      _ = sock.addresses := by
        simp only [addresses, ringAddresses]
        abel
  have distinct := Multiset.nodup_of_le (Multiset.map_le_map both) nodup
  simp only [Multiset.map_add, Multiset.map_singleton] at distinct
  intro same
  simp [same] at distinct

/-! ## The kernel -/

theorem takeFill_moves (intact : sock.Intact flags confined)
    (stepped : sock.kernelStep .takeFill = some next) : Moves flags confined sock next 0 := by
  simp only [kernelStep, Option.map_eq_some_iff] at stepped
  rcases stepped with ⟨⟨addr, fq⟩, taken, rfl⟩
  rcases intact.fq.take taken with ⟨producing, -, span⟩
  refine Moves.of_same_addresses intact { intact.toWorking with fq := producing } rfl rfl
    (fun _ _ _ delivers => delivers) ?_
  have pending : sock.fq.pending = addr :: fq.pending := span 0
  simp only [addresses, ringAddresses, pending, List.map_append, List.map_cons, List.map_nil,
    ← Multiset.coe_add, ← Multiset.cons_coe, ← Multiset.singleton_add, Multiset.coe_nil]
  abel

theorem receive_eq_some {addr : UInt64} {desc : XdpDesc} {packet : List UInt8} :
    sock.kernelStep (.receive addr desc packet) = some next ↔
      addr ∈ sock.kernelRx ∧ InChunk addr desc packet ∧
        ∃ rx, sock.rx.rx.kernelPublish desc = some rx ∧
          next = { sock with
            rx := { sock.rx with rx := rx }
            kernelRx := sock.kernelRx.erase addr
            mem := writeBytes sock.mem desc.addr.toNat packet } := by
  simp only [kernelStep]
  split
  · rename_i allowed
    simp only [allowed.1, allowed.2, true_and, Option.map_eq_some_iff, eq_comm (b := next)]
  · rename_i forbidden
    simp only [reduceCtorEq, false_iff]
    rintro ⟨taken, inChunk, -⟩
    exact forbidden ⟨taken, inChunk⟩

theorem receive_moves {addr : UInt64} {desc : XdpDesc} {packet : List UInt8}
    (intact : sock.Intact flags confined)
    (returns : (KernelAction.receive addr desc packet).Returns flags confined)
    (stepped : sock.kernelStep (.receive addr desc packet) = some next) :
    Moves flags confined sock next 0 := by
  rcases receive_eq_some.mp stepped with ⟨present, inChunk, rx, published, rfl⟩
  rcases returns inChunk with ⟨same, inside⟩
  rcases inChunk with ⟨-, length, -⟩
  rcases intact.rx.publish published with ⟨consuming, pending⟩
  have erased := coe_map_erase UInt64.toNat present
  have waiting : RxRing.waiting { sock.rx with rx := rx } = sock.rx.waiting ++ [desc] := by
    simp [RxRing.waiting, pending]
  have taken : addr.toNat ∈ sock.pool.held + ↑(sock.kernelRx.map UInt64.toNat) := by
    simp [← erased]
  have within : addr.toNat < flags.umemLen := by
    apply intact.addresses_lt
    simp only [addresses, ringAddresses, ← erased, Multiset.mem_add, Multiset.mem_singleton]
    tauto
  refine Moves.of_relocated intact ?_ rfl rfl ?_ within same ?_
  · refine { intact.toWorking with rx := consuming, waiting_inside := ?_ }
    intro known
    simp only [waiting, List.forall_mem_append, List.forall_mem_singleton]
    exact ⟨intact.waiting_inside known, length ▸ inside known⟩
  · intro known nodup sent delivers
    refine delivers.of_write (inside known) ?_ rfl rfl rfl
    intro entry entry_live
    rw [same]
    exact frame_ne_of_live nodup taken entry_live
  · simp only [addresses, ringAddresses, waiting, ← erased, List.map_append, List.map_cons,
      List.map_nil, ← Multiset.coe_add, Multiset.coe_singleton]
    abel

theorem takeTx_moves (intact : sock.Intact flags confined)
    (stepped : sock.kernelStep .takeTx = some next) : Moves flags confined sock next 0 := by
  simp only [kernelStep, Option.map_eq_some_iff] at stepped
  rcases stepped with ⟨⟨desc, tx⟩, taken, rfl⟩
  rcases intact.tx.kernelTake taken with ⟨sound, descs, issued, exposed, used, ring, -, -⟩
  have shown := intact.tx.shown.length_le
  simp only [XskRing.pending, length_window] at shown
  refine Moves.of_same_addresses intact ?_ rfl issued ?_ ?_
  · refine { intact.toWorking with tx := sound, cells_lt := ?_ }
    simpa only [ring] using intact.cells_lt
  · intro _ _ sent delivers
    refine delivers.of_subset ?_ issued rfl
    intro entry entry_live
    have number : tx.exposed.length - tx.tx.used =
        sock.tx.exposed.length - sock.tx.tx.used + 1 := by
      simp only [XskRing.used] at used shown ⊢
      rw [exposed]
      omega
    simpa [live, descs, number] using entry_live
  · simp only [addresses, ringAddresses, descs, List.map_append, List.map_cons, List.map_nil,
      ← Multiset.coe_add, ← Multiset.cons_coe, ← Multiset.singleton_add, Multiset.coe_nil]
    abel

theorem complete_moves {position : ℕ} (intact : sock.Intact flags confined)
    (stepped : sock.kernelStep (.complete position) = some next) :
    Moves flags confined sock next 0 := by
  simp only [kernelStep, Option.bind_eq_some_iff, Option.map_eq_some_iff] at stepped
  rcases stepped with ⟨taken, present, cq, published, rfl⟩
  rcases intact.cq.publish published with ⟨consuming, pending⟩
  have erased := coe_map_eraseIdx (fun taken : XdpDesc × ℕ => taken.1.offset) present
  refine Moves.of_same_addresses intact { intact.toWorking with cq := consuming } rfl rfl ?_ ?_
  · intro _ _ sent delivers
    refine delivers.of_subset ?_ rfl rfl
    intro entry entry_live
    simp only [live, List.mem_append] at entry_live ⊢
    exact entry_live.imp_left List.mem_of_mem_eraseIdx
  · have completed : cq.pending.map UInt64.toNat =
        sock.cq.pending.map UInt64.toNat ++ [taken.1.offset] := by
      simp [pending, XdpDesc.offset]
    simp only [addresses, ringAddresses, completed, ← erased, ← Multiset.coe_add,
      Multiset.coe_singleton]
    abel

theorem kernelStep_moves {action : KernelAction} (intact : sock.Intact flags confined)
    (returns : action.Returns flags confined)
    (stepped : sock.kernelStep action = some next) : Moves flags confined sock next 0 := by
  cases action with
  | takeFill => exact takeFill_moves intact stepped
  | receive addr desc packet => exact receive_moves intact returns stepped
  | takeTx => exact takeTx_moves intact stepped
  | complete position => exact complete_moves intact stepped

theorem kernelRun_moves {actions : List KernelAction} (intact : sock.Intact flags confined)
    (returns : KernelReturns flags confined actions)
    (performed : sock.kernelRun actions = some next) : Moves flags confined sock next 0 := by
  induction actions generalizing sock with
  | nil =>
      simp only [kernelRun, run_nil, Option.some.injEq] at performed
      exact performed ▸ Moves.refl intact
  | cons action actions ih =>
      rcases run_cons_eq_some.mp performed with ⟨middle, stepped, rest⟩
      simp only [KernelReturns, List.forall_mem_cons] at returns
      have moves := kernelStep_moves intact returns.1 stepped
      simpa using moves.trans (ih moves.intact returns.2 rest)

end Sock

end Nethuns.AfXdp
