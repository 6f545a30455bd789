import Nethuns.AfXdp.Ownership

/-!
# What a send writes to the UMEM

`send_inner` pops the address of a free frame, writes the packet there and fills the descriptor.
It never compares the length of the packet with the frame. The address of a frame that has come
back from a receive begins where the received packet began, so even a packet that is shorter than
a frame can run into the next one. A send stays in its frame exactly when the packet fits the rest
of it.

The kernel can write received packets while a send looks for a slot. The UMEM after a send is
therefore compared with the UMEM at the moment when the slot was obtained; before that a send does
not touch it.
-/

namespace Nethuns.AfXdp

open Nethuns.Lib Nethuns.Mpsc Nethuns.Api

def AfXdpFlags.frameStart (flags : AfXdpFlags) (addr : ℕ) : ℕ :=
  flags.frame addr * flags.frameSize.toNat

/-- Only bytes of the frame of the address have changed, and the descriptor in the cell stays in
this frame. -/
structure Contained (flags : AfXdpFlags) (addr cell : ℕ) (ready next : Sock) : Prop where
  outside : ∀ byte, byte < flags.frameStart addr ∨
    flags.frameStart addr + flags.frameSize.toNat ≤ byte → next.mem byte = ready.mem byte
  start_le : flags.frameStart addr ≤ (next.tx.tx.ring cell).offset
  end_le : (next.tx.tx.ring cell).offset - flags.frameStart addr +
    (next.tx.tx.ring cell).len.toNat ≤ flags.frameSize.toNat

/-- A send that succeeds has found a frame that the packet fits, and has touched nothing else. A
send that fails leaves the UMEM alone. -/
def SendOutcome (flags : AfXdpFlags) (packet : List UInt8) (found : Option ℕ)
    (ready next : Sock) : Except Error Unit → Prop
  | .ok () => ∃ cell addr, found = some cell ∧ ready.pool.channel.pop.1 = some addr ∧
      flags.Inside addr packet.length ∧ Contained flags addr cell ready next
  | .error _ => next.mem = ready.mem

def SendContained (flags : AfXdpFlags) (sock : Sock) : Action → Prop
  | .send packet site kernel => ∀ result next,
      sock.send packet site kernel = some (result, next) →
        ∃ found ready, sock.obtainSlot site kernel = some (found, ready) ∧
          SendOutcome flags packet found ready next result
  | _ => True

/-- The packet fits the rest of the frame that the send is given, and the address of the frame has
32 bits. -/
def SendFits (flags : AfXdpFlags) (sock : Sock) : Action → Prop
  | .send packet site kernel => ∀ cell ready addr,
      sock.obtainSlot site kernel = some (some cell, ready) →
        ready.pool.channel.pop.1 = some addr → addr < 2 ^ 32 ∧ flags.Inside addr packet.length
  | _ => True

variable {flags : AfXdpFlags} {sock ready : Sock} {addr cell : ℕ} {packet : List UInt8}

theorem AfXdpFlags.frameStart_add_mod (flags : AfXdpFlags) (addr : ℕ) :
    flags.frameStart addr + addr % flags.frameSize.toNat = addr := by
  rw [frameStart, frame, Nat.mul_comm]
  exact Nat.div_add_mod addr flags.frameSize.toNat

namespace Sock

theorem sendInner_of_none (cell : ℕ) (packet : List UInt8)
    (empty : ready.pool.channel.pop.1 = none) :
    ready.sendInner cell packet =
      (.error (.generic "No free frames for TX"), { ready with pool := ready.pool.popped }) := by
  simp only [sendInner, allocFrame, empty, Option.map_none]

theorem sendInner_of_some (cell : ℕ) (packet : List UInt8)
    (popped : ready.pool.channel.pop.1 = some addr) :
    ready.sendInner cell packet =
      (.ok (), { ready with
        pool := ready.pool.popped
        tx := ready.tx.write cell (writtenDesc ready.tx cell addr packet)
        mem := writeBytes ready.mem (UInt32.ofNat addr).toNat packet }) := by
  simp only [sendInner, allocFrame, popped, Option.map_some, writtenDesc]

theorem written_len (sock : Sock) (tx : TxRing) (cell addr : ℕ) (packet : List UInt8) :
    ((sock.written tx cell addr packet).tx.tx.ring cell).len = .ofNat packet.length := by
  simp only [written, TxRing.write, XskRing.store, Function.update_self, writtenDesc]

end Sock

theorem contained_of_inside (small : addr < 2 ^ 32) (inside : flags.Inside addr packet.length)
    (popped : ready.pool.channel.pop.1 = some addr) :
    Contained flags addr cell ready (ready.sendInner cell packet).2 := by
  have addr_eq : (UInt32.ofNat addr).toNat = addr := by
    rw [UInt32.toNat_ofNat']
    exact Nat.mod_eq_of_lt small
  have offset_eq : (Sock.writtenDesc ready.tx cell addr packet).offset = addr :=
    Sock.toUInt64_ofNat_toNat small
  have start := flags.frameStart_add_mod addr
  simp only [AfXdpFlags.Inside] at inside
  rw [Sock.sendInner_of_some cell packet popped, addr_eq]
  refine ⟨?_, ?_, ?_⟩
  · intro byte outside
    apply writeBytes_of_outside
    omega
  · simp only [TxRing.write, XskRing.store, Function.update_self, offset_eq]
    omega
  · have length_eq : (UInt32.ofNat packet.length).toNat = packet.length :=
      AfXdpFlags.Inside.toNat_ofNat inside
    simp only [TxRing.write, XskRing.store, Function.update_self, offset_eq]
    simp only [Sock.writtenDesc, length_eq]
    omega

/-- The descriptor has the address without its upper half, which is in no frame that begins at
`2 ^ 32` or later, or that contains this boundary. -/
theorem Contained.addr_lt (popped : ready.pool.channel.pop.1 = some addr)
    (contained : Contained flags addr cell ready (ready.sendInner cell packet).2)
    (inside : flags.Inside addr packet.length) : addr < 2 ^ 32 := by
  have start := flags.frameStart_add_mod addr
  have frame_lt := flags.frameSize.toNat_lt
  have start_le := contained.start_le
  have offset_eq : (Sock.writtenDesc ready.tx cell addr packet).offset = addr % 2 ^ 32 := by
    simp [Sock.writtenDesc, XdpDesc.offset]
  rw [Sock.sendInner_of_some cell packet popped] at start_le
  simp only [TxRing.write, XskRing.store, Function.update_self, offset_eq] at start_le
  simp only [AfXdpFlags.Inside] at inside
  omega

/-- After the slot has been obtained, the outcome is as it should be exactly when the packet fits
the frame that is popped. -/
theorem sendOutcome_iff (cell : ℕ) (packet : List UInt8) :
    SendOutcome flags packet (some cell) ready (ready.sendInner cell packet).2
        (ready.sendInner cell packet).1 ↔
      ∀ addr, ready.pool.channel.pop.1 = some addr →
        addr < 2 ^ 32 ∧ flags.Inside addr packet.length := by
  rcases popped : ready.pool.channel.pop.1 with _ | addr
  · rw [Sock.sendInner_of_none cell packet popped]
    simp [SendOutcome]
  · have succeeded : (ready.sendInner cell packet).1 = .ok () := by
      rw [Sock.sendInner_of_some cell packet popped]
    rw [succeeded]
    constructor
    · rintro ⟨_, _, ⟨⟩, popped', inside, contained⟩ other ⟨⟩
      rw [popped, Option.some.injEq] at popped'
      subst popped'
      exact ⟨contained.addr_lt popped inside, inside⟩
    · intro fits
      rcases fits addr rfl with ⟨small, inside⟩
      exact ⟨cell, addr, rfl, popped, inside, contained_of_inside small inside popped⟩

theorem sendContained_iff_fits (flags : AfXdpFlags) (sock : Sock) (action : Action) :
    SendContained flags sock action ↔ SendFits flags sock action := by
  cases action with
  | recvToken _ _ | recv _ _ | flush _ _ | kernel _ | pool _ | writePayload _ _ => exact Iff.rfl
  | send packet site kernel =>
      simp only [SendContained, SendFits]
      constructor
      · intro contained cell ready addr obtained
        have sent : sock.send packet site kernel = some (ready.sendInner cell packet) := by
          simp only [Sock.send, obtained, Option.map_some]
        rcases contained _ _ sent with ⟨found, other, obtained', outcome⟩
        rw [obtained, Option.some.injEq, Prod.mk.injEq] at obtained'
        rcases obtained' with ⟨rfl, rfl⟩
        exact (sendOutcome_iff cell packet).mp outcome addr
      · intro fits result next sent
        simp only [Sock.send, Option.map_eq_some_iff] at sent
        rcases sent with ⟨⟨found, ready⟩, obtained, sent⟩
        refine ⟨found, ready, obtained, ?_⟩
        cases found with
        | none =>
            simp only [Prod.mk.injEq] at sent
            rcases sent with ⟨rfl, rfl⟩
            rfl
        | some cell =>
            have outcome := (sendOutcome_iff cell packet).mpr fun addr popped =>
              fits cell ready addr obtained popped
            rw [show ready.sendInner cell packet = (result, next) from sent] at outcome
            exact outcome

/-- In every run, in any interleaving with the kernel and with the users, the sends stay in their
frames and refuse what does not fit exactly when every packet fits the rest of the frame that its
send is given. -/
theorem sends_contained_iff (flags : AfXdpFlags) (sock : Sock) (actions : List Action) :
    RunMeets Sock.step (SendContained flags) sock actions ↔
      RunMeets Sock.step (SendFits flags) sock actions := by
  apply runMeets_iff (fun _ => True)
  · intro state action _
    exact sendContained_iff_fits flags state action
  · exact fun _ _ _ => trivial
  · trivial

/-- A new socket accepts a packet of one byte more than a frame. -/
theorem longSend_leaves_frame :
    ∃ sock next, Sock.create largeFlags 0 ⟨0, 0⟩ = some sock ∧
      sock.send (List.replicate 4097 0) ⟨0, 0⟩ .idle = some (.ok (), next) ∧
      (next.tx.tx.ring 0).len = 4097 ∧
      ¬RunMeets Sock.step (SendContained largeFlags) sock
        [.send (List.replicate 4097 0) ⟨0, 0⟩ .idle] := by
  rcases create_largeFlags with ⟨sock, created, some_free⟩
  have fresh := Sock.create_fresh created (by decide)
  rcases fresh.send (by decide) ⟨0, 0⟩ (List.replicate 4097 0) (by decide) some_free with
    ⟨tx, addr, -, popped, asked, sent⟩
  refine ⟨sock, sock.written tx 0 addr (List.replicate 4097 0), created, sent, ?_, ?_⟩
  · rw [Sock.written_len, List.length_replicate]
    rfl
  · intro contained
    have fits := (sendContained_iff_fits _ _ _).mp contained.1
    rcases fits 0 _ addr (Sock.obtainSlot_of_nextSlot asked) popped with ⟨-, inside⟩
    rw [AfXdpFlags.Inside, List.length_replicate,
      show largeFlags.frameSize.toNat = 4096 from rfl] at inside
    omega

end Nethuns.AfXdp
