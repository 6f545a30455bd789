import Nethuns.Pcap.Boxes

/-!
# What a pcap payload reads

`recv_token` never copies the captured data into the buffer. A payload has the right length, but
reads the zeros that the buffer was allocated with, and reads behind the buffer when the packet is
longer than `buffer_size`. So the payloads have the captured data exactly when the packets are
short enough and consist of zeros. Later receives do not change this, because buffers are different
blocks of the heap, and neither does the context that a token is consumed through.
-/

namespace Nethuns.Pcap

open Nethuns.Lib Nethuns.Api

/-- The packet fits a buffer, and all its bytes are zero. -/
def Packet.Blank (packet : Packet) (flags : PcapFlags) : Prop :=
  packet.data.length ≤ flags.bufferSize ∧ ∀ byte ∈ packet.data, byte = 0

/-- A packet that is received by the action is blank. -/
def Action.Blank (flags : PcapFlags) : Action → Prop
  | .recvToken (.ok packet) _ => packet.Blank flags
  | .recv (.ok packet) _ => packet.Blank flags
  | _ => True

theorem Action.blank_iff {flags : PcapFlags} {action : Action} :
    action.Blank flags ↔ ∀ packet, action.packet? = some packet → packet.Blank flags := by
  cases action with
  | recvToken delivered _ | recv delivered _ =>
      cases delivered <;> simp [Action.Blank, Action.packet?]
  | consume _ _ | intoToken _ | dropPayload _ | cloneCtx _ =>
      simp [Action.Blank, Action.packet?]

namespace Sock

/-- Every token is accepted by the contexts, and its payload has the captured data. -/
structure Faithful (sock : Sock) : Prop where
  accepted : ∀ delivery ∈ sock.tokens, ∀ ctx ∈ sock.contexts,
    ctx.checkToken delivery.token = true
  bytes : ∀ delivery ∈ sock.live, sock.deref delivery.token = some delivery.captured

def StepFaithful (sock : Sock) (action : Action) : Prop :=
  ∀ next, sock.step action = some next → next.Faithful

/-- The heap has one block for each token, with the captured data at its beginning, and all
contexts are clones of one. -/
structure Sound (flags : PcapFlags) (sock : Sock) : Prop where
  capacity : sock.ctx.bufCapacity = flags.bufferSize
  contexts : ∀ ctx ∈ sock.contexts, ctx = sock.ctx
  borrowed : ∀ payload ∈ sock.payloads, payload.2 = sock.ctx
  blocks : ↑sock.blocks = ownBlocks flags.bufferSize ↑sock.live
  pool : ∀ delivery ∈ sock.live, delivery.token.bufferPool = sock.ctx.poolId
  short : ∀ delivery ∈ sock.live, delivery.token.len.toNat ≤ flags.bufferSize
  stored : ∀ delivery ∈ sock.live,
    readBytes sock.mem delivery.token.idx delivery.token.len.toNat = delivery.captured

variable {flags : PcapFlags} {sock middle next : Sock} {packet : Packet} {address : ℕ}

theorem Sound.boxed (sound : sock.Sound flags) : sock.Boxed flags :=
  ⟨sound.capacity, sound.contexts, sound.borrowed, sound.blocks, sound.pool⟩

theorem Boxed.sound (boxed : sock.Boxed flags)
    (short : ∀ delivery ∈ sock.live, delivery.token.len.toNat ≤ flags.bufferSize)
    (stored : ∀ delivery ∈ sock.live,
      readBytes sock.mem delivery.token.idx delivery.token.len.toNat = delivery.captured) :
    sock.Sound flags :=
  ⟨boxed.capacity, boxed.contexts, boxed.borrowed, boxed.blocks, boxed.pool, short, stored⟩

theorem Sound.faithful (sound : sock.Sound flags) : sock.Faithful where
  accepted delivery delivery_mem ctx ctx_mem := by
    have pool := sound.pool delivery (List.mem_append_left _ delivery_mem)
    rw [sound.contexts ctx ctx_mem, PcapContext.checkToken, pool]
    exact beq_self_eq_true _
  bytes delivery delivery_mem := by
    have short := sound.short delivery delivery_mem
    rw [deref, if_pos, sound.stored delivery delivery_mem]
    by_cases empty : delivery.token.len = 0
    · exact Or.inl empty
    · right
      have nonempty : flags.bufferSize ≠ 0 := by
        intro none_left
        rw [none_left] at short
        exact empty (UInt32.toNat_inj.mp (Nat.le_zero.mp short))
      refine ⟨_, sound.boxed.own_block nonempty delivery_mem, le_rfl, ?_⟩
      exact Nat.add_le_add_left short _

/-! ## Receiving -/

theorem blank_stored {mem : ℕ → UInt8} (ptr : ℕ) (blank : packet.Blank flags) :
    readBytes (writeBytes mem ptr (List.replicate flags.bufferSize 0)) ptr packet.data.length =
      packet.data := by
  have zeros : packet.data = List.replicate packet.data.length 0 :=
    List.eq_replicate_of_mem blank.2
  rw [readBytes_writeBytes_take (by simpa using blank.1), List.take_replicate,
    Nat.min_eq_left blank.1]
  exact zeros.symm

theorem Sound.stored_of_apart (sound : sock.Sound flags) (nonempty : flags.bufferSize ≠ 0)
    {ptr : ℕ} (apart : ∀ block ∈ sock.blocks, block.Apart ⟨ptr, flags.bufferSize⟩)
    {delivery : Delivery} (live : delivery ∈ sock.live) :
    readBytes (writeBytes sock.mem ptr (List.replicate flags.bufferSize 0)) delivery.token.idx
      delivery.token.len.toNat = delivery.captured := by
  have own := apart _ (sound.boxed.own_block nonempty live)
  have short := sound.short delivery live
  rw [readBytes_writeBytes_of_disjoint, sound.stored delivery live]
  simp only [Block.Apart, List.length_replicate] at own ⊢
  omega

/-- The new box has the data of a blank packet, and the old boxes are not touched. -/
theorem Sound.takes {ptr : ℕ} (sound : sock.Sound flags) (blank : packet.Blank flags)
    (boxed : next.Boxed flags) (taken : sock.Takes next ptr)
    (live : (↑next.live : Multiset Delivery) = sock.delivery packet ptr ::ₘ ↑sock.live) :
    next.Sound flags := by
  have length := packet.len_toNat
  have capacity := sound.capacity
  have cases : ∀ other ∈ next.live, other = sock.delivery packet ptr ∨ other ∈ sock.live := by
    intro other other_mem
    rwa [← Multiset.mem_coe, live, Multiset.mem_cons, Multiset.mem_coe] at other_mem
  apply boxed.sound
  all_goals
    intro other other_mem
    rcases cases other other_mem with rfl | old
  · simp only [delivery, length]
    exact blank.1
  · exact sound.short other old
  · simp only [delivery, length]
    rcases taken with ⟨empty, -⟩ | ⟨-, -, mem, -⟩
    · rw [capacity] at empty
      have nothing : packet.data = [] := by
        have short := blank.1
        rw [empty] at short
        exact List.length_eq_zero_iff.mp (Nat.le_zero.mp short)
      simp [nothing, readBytes]
    · rw [mem, capacity]
      exact blank_stored ptr blank
  · rcases taken with ⟨-, mem, -⟩ | ⟨nonempty, apart, mem, -⟩
    · rw [mem]
      exact sound.stored other old
    · rw [capacity] at nonempty apart
      rw [mem, capacity]
      exact sound.stored_of_apart nonempty apart old

/-- When the payload of a packet has its data, the packet was blank. -/
theorem Sound.blank_of_deref {ptr : ℕ} (sound : sock.Sound flags) (takes : sock.Takes next ptr)
    (live : (↑next.live : Multiset Delivery) = sock.delivery packet ptr ::ₘ ↑sock.live)
    (bytes : ∀ other ∈ next.live, next.deref other.token = some other.captured) :
    packet.Blank flags := by
  have length := packet.len_toNat
  have new : sock.delivery packet ptr ∈ next.live := by
    rw [← Multiset.mem_coe, live]
    exact Multiset.mem_cons_self _ _
  have reads := bytes _ new
  simp only [deref] at reads
  split at reads
  · rename_i readable
    simp only [delivery, length, Option.some.injEq] at readable reads
    by_cases empty : packet.data = []
    · exact ⟨by simp [empty], by simp [empty]⟩
    have positive := List.length_pos_iff.mpr empty
    have inside : ∃ block ∈ next.blocks, block.Contains ptr packet.data.length := by
      apply readable.resolve_left
      intro zero
      rw [zero, UInt32.toNat_zero] at length
      omega
    rcases inside with ⟨block, block_mem, contains⟩
    rcases takes with ⟨no_buffer, -, blocks⟩ | ⟨nonempty, apart, mem, blocks⟩
    · have none_allocated := sound.blocks
      rw [ownBlocks, if_pos (sound.capacity ▸ no_buffer), Multiset.coe_eq_zero] at none_allocated
      simp [blocks, none_allocated] at block_mem
    · rw [sound.capacity] at nonempty apart mem blocks
      have short : packet.data.length ≤ flags.bufferSize := by
        rw [blocks] at block_mem
        simp only [Block.Contains] at contains
        rcases List.mem_cons.mp block_mem with rfl | old
        · simp only at contains
          omega
        · have := apart block old
          simp only [Block.Apart] at this
          omega
      refine ⟨short, ?_⟩
      rw [mem, readBytes_writeBytes_take (by simpa using short), List.take_replicate] at reads
      intro byte byte_mem
      rw [← reads] at byte_mem
      exact List.eq_of_mem_replicate byte_mem
  · simp at reads

/-! ## Runs -/

theorem Sound.step {action : Action} (sound : sock.Sound flags) (blank : action.Blank flags)
    (stepped : sock.step action = some next) : next.Sound flags := by
  have boxed := sound.boxed.step stepped
  rcases step_cases stepped with ⟨-, mem, fewer⟩ | ⟨packet, ptr, received, takes, live⟩
  · apply boxed.sound
    · intro other other_mem
      exact sound.short other (fewer other other_mem)
    · intro other other_mem
      rw [mem]
      exact sound.stored other (fewer other other_mem)
  · exact sound.takes (Action.blank_iff.mp blank packet received) boxed takes live

theorem stepFaithful_iff_blank {action : Action} (sound : sock.Sound flags)
    (possible : (sock.step action).isSome = true) :
    sock.StepFaithful action ↔ action.Blank flags := by
  rcases Option.isSome_iff_exists.mp possible with ⟨next, stepped⟩
  constructor
  · intro faithful
    apply Action.blank_iff.mpr
    intro packet received
    rcases step_cases stepped with ⟨nothing, -⟩ | ⟨other, ptr, received', takes, live⟩
    · simp [nothing] at received
    · rw [received, Option.some.injEq] at received'
      subst other
      exact sound.blank_of_deref takes live (faithful next stepped).bytes
  · intro blank next stepped
    exact (sound.step blank stepped).faithful

theorem create_sound (flags : PcapFlags) (poolId : UInt32) (mem : ℕ → UInt8) :
    (create flags poolId mem).Sound flags := by
  apply (create_boxed flags poolId mem).sound
  all_goals simp [create, live]

/-- In every run the payloads have the captured data at all times exactly when all the packets
are no longer than a buffer and consist of zeros. -/
theorem payloads_captured_iff {poolId : UInt32} {mem : ℕ → UInt8} {actions : List Action}
    {final : Sock} (performed : run step (create flags poolId mem) actions = some final) :
    RunMeets step StepFaithful (create flags poolId mem) actions ↔
      ∀ action ∈ actions, action.Blank flags := by
  rw [← runMeets_iff_forall performed]
  apply runMeets_iff_of (Sound flags)
  · exact stepFaithful_iff_blank
  · exact fun sound _ => sound.step
  · exact create_sound flags poolId mem
  · exact runMeets_isSome performed

def zeros : Packet := ⟨(0, 0), 3, 3, [0, 0, 0], rfl⟩

def oneTwoThree : Packet := ⟨(0, 0), 3, 3, [1, 2, 3], rfl⟩

/-- Two packets of zeros, the first consumed through a clone of the context. -/
def receiveZeros : List Action :=
  [.recvToken (.ok zeros) 4096, .cloneCtx 0, .consume 0 1, .recv (.ok zeros) 8192, .dropPayload 0]

theorem payloads_captured_receiveZeros :
    RunMeets step StepFaithful (create ⟨4⟩ 1 fun _ => 7) receiveZeros := by
  have performed : (run step (create ⟨4⟩ 1 fun _ => 7) receiveZeros).isSome = true := by decide
  rcases Option.isSome_iff_exists.mp performed with ⟨final, performed⟩
  apply (payloads_captured_iff performed).mpr
  simp [receiveZeros, Action.Blank, Packet.Blank, zeros]

/-- The payload of a packet with the bytes 1, 2 and 3 reads three zeros. -/
theorem payload_reads_zeros :
    ∃ sock payload, (create ⟨4⟩ 1 fun _ => 7).step (.recv (.ok oneTwoThree) 4096) = some sock ∧
      sock.payloads = [payload] ∧ payload.1.captured = [1, 2, 3] ∧
      sock.deref payload.1.token = some [0, 0, 0] ∧
      ¬RunMeets step StepFaithful (create ⟨4⟩ 1 fun _ => 7) [.recv (.ok oneTwoThree) 4096] := by
  refine ⟨_, _, rfl, rfl, rfl, by decide, ?_⟩
  rintro ⟨faithful, -⟩
  have reads := (faithful _ rfl).bytes ⟨⟨4096, 3, 1⟩, [1, 2, 3]⟩ (by decide)
  revert reads
  decide

end Sock

end Nethuns.Pcap
