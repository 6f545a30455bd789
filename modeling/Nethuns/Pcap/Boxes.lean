import Nethuns.Lib.Bags
import Nethuns.Lib.Run
import Nethuns.Pcap.Sock

/-!
# The boxes behind the tokens of a pcap socket

Each token has a box of `buffer_size` bytes, which `release` reconstructs from the capacity that the
context remembers. Whatever the users do, the allocated blocks are the boxes of the live tokens. The
length of a token is the length of the packet, however, and nothing compares it with the capacity:
the captured length is bounded by `snaplen`, which is configured apart from `buffer_size`. So the
payloads stay in their boxes exactly as long as no packet is longer than a buffer.
-/

namespace Nethuns.Pcap

open Nethuns.Lib Nethuns.Api

theorem Packet.len_toNat (packet : Packet) :
    (UInt32.ofNat packet.data.length).toNat = packet.data.length := by
  have small := packet.caplen.toNat_lt
  rw [UInt32.toNat_ofNat', packet.length_data]
  exact Nat.mod_eq_of_lt small

namespace Sock

/-- The tokens of the users, those inside payloads included. -/
def live (sock : Sock) : List Delivery := sock.tokens ++ sock.payloads.map Prod.fst

/-- The blocks of the given tokens; empty buffers have none. -/
def ownBlocks (size : ℕ) (deliveries : Multiset Delivery) : Multiset Block :=
  if size = 0 then 0 else deliveries.map fun delivery => ⟨delivery.token.idx, size⟩

/-- The heap has one block for each token, and all contexts are clones of one. -/
structure Boxed (flags : PcapFlags) (sock : Sock) : Prop where
  capacity : sock.ctx.bufCapacity = flags.bufferSize
  contexts : ∀ ctx ∈ sock.contexts, ctx = sock.ctx
  borrowed : ∀ payload ∈ sock.payloads, payload.2 = sock.ctx
  blocks : ↑sock.blocks = ownBlocks flags.bufferSize ↑sock.live
  pool : ∀ delivery ∈ sock.live, delivery.token.bufferPool = sock.ctx.poolId

variable {flags : PcapFlags} {sock middle next : Sock} {packet : Packet} {address : ℕ}

theorem create_boxed (flags : PcapFlags) (poolId : UInt32) (mem : ℕ → UInt8) :
    (create flags poolId mem).Boxed flags := by
  refine ⟨rfl, ?_, ?_, ?_, ?_⟩
  · simp [create]
  · simp [create]
  · simp [create, live, ownBlocks]
  · simp [create, live]

theorem Boxed.own_block (boxed : sock.Boxed flags) (nonempty : flags.bufferSize ≠ 0)
    {delivery : Delivery} (live : delivery ∈ sock.live) :
    ⟨delivery.token.idx, flags.bufferSize⟩ ∈ sock.blocks := by
  rw [← Multiset.mem_coe, boxed.blocks, ownBlocks, if_neg nonempty]
  exact Multiset.mem_map_of_mem _ live

/-! ## Receiving -/

def delivery (sock : Sock) (packet : Packet) (ptr : ℕ) : Delivery :=
  ⟨⟨ptr, .ofNat packet.data.length, sock.ctx.poolId⟩, packet.data⟩

/-- What a receive does to the heap: nothing for an empty buffer, else it takes a new block. -/
def Takes (sock next : Sock) (ptr : ℕ) : Prop :=
  (sock.ctx.bufCapacity = 0 ∧ next.mem = sock.mem ∧ next.blocks = sock.blocks) ∨
    (sock.ctx.bufCapacity ≠ 0 ∧
      (∀ block ∈ sock.blocks, block.Apart ⟨ptr, sock.ctx.bufCapacity⟩) ∧
      next.mem = writeBytes sock.mem ptr (List.replicate sock.ctx.bufCapacity 0) ∧
      next.blocks = ⟨ptr, sock.ctx.bufCapacity⟩ :: sock.blocks)

theorem recvToken_cases {result : Except Error Meta}
    (received : sock.recvToken (.ok packet) address = some (result, next)) :
    ∃ ptr, sock.Takes next ptr ∧ next.tokens = sock.tokens ++ [sock.delivery packet ptr] ∧
      next.payloads = sock.payloads ∧ next.ctx = sock.ctx ∧ next.contexts = sock.contexts ∧
      ∃ info, result = .ok info := by
  simp only [recvToken, Option.map_eq_some_iff, Prod.mk.injEq] at received
  rcases received with ⟨⟨ptr, allocated⟩, allocates, rfl, rfl⟩
  simp only [allocate] at allocates
  by_cases empty : sock.ctx.bufCapacity = 0
  · rw [if_pos empty] at allocates
    simp only [Option.some.injEq, Prod.mk.injEq] at allocates
    rcases allocates with ⟨rfl, rfl⟩
    exact ⟨1, Or.inl ⟨empty, rfl, rfl⟩, rfl, rfl, rfl, rfl, _, rfl⟩
  · rw [if_neg empty] at allocates
    split at allocates
    · rename_i apart
      simp only [Option.some.injEq, Prod.mk.injEq] at allocates
      rcases allocates with ⟨rfl, rfl⟩
      exact ⟨address, Or.inr ⟨empty, apart, rfl, rfl⟩, rfl, rfl, rfl, rfl, _, rfl⟩
    · simp at allocates

theorem coe_live_append {delivery : Delivery} (tokens : next.tokens = sock.tokens ++ [delivery])
    (payloads : next.payloads = sock.payloads) :
    (↑next.live : Multiset Delivery) = delivery ::ₘ ↑sock.live := by
  simp only [live, tokens, payloads, List.append_assoc, List.singleton_append]
  exact Multiset.coe_eq_coe.mpr List.perm_middle

theorem mem_live_append {delivery other : Delivery}
    (tokens : next.tokens = sock.tokens ++ [delivery]) (payloads : next.payloads = sock.payloads) :
    other ∈ next.live ↔ other = delivery ∨ other ∈ sock.live := by
  rw [← Multiset.mem_coe, coe_live_append tokens payloads, Multiset.mem_cons, Multiset.mem_coe]

theorem Boxed.recvToken {result : Except Error Meta} (boxed : sock.Boxed flags)
    (received : sock.recvToken (.ok packet) address = some (result, next)) :
    next.Boxed flags := by
  rcases recvToken_cases received with ⟨ptr, takes, tokens, payloads, ctx, contexts, -⟩
  have capacity := boxed.capacity
  refine ⟨ctx ▸ capacity, ?_, ?_, ?_, ?_⟩
  · rw [contexts, ctx]
    exact boxed.contexts
  · rw [payloads, ctx]
    exact boxed.borrowed
  · have same := boxed.blocks
    simp only [ownBlocks] at same ⊢
    rcases takes with ⟨empty, -, blocks⟩ | ⟨nonempty, -, -, blocks⟩
    · rw [capacity] at empty
      rw [blocks, same, if_pos empty, if_pos empty]
    · rw [capacity] at nonempty blocks
      rw [if_neg nonempty] at same
      rw [blocks, if_neg nonempty, coe_live_append tokens payloads, Multiset.map_cons,
        ← Multiset.cons_coe, same]
      rfl
  · intro other other_mem
    rw [ctx]
    rcases (mem_live_append tokens payloads).mp other_mem with rfl | old
    · rfl
    · exact boxed.pool other old

/-! ## Tokens, payloads and contexts -/

theorem Boxed.of_same_live (boxed : sock.Boxed flags) (ctx : next.ctx = sock.ctx)
    (contexts : next.contexts = sock.contexts) (blocks : next.blocks = sock.blocks)
    (borrowed : ∀ payload ∈ next.payloads, payload.2 = sock.ctx)
    (same : (↑next.live : Multiset Delivery) = ↑sock.live) : next.Boxed flags := by
  refine ⟨ctx ▸ boxed.capacity, ?_, ctx ▸ borrowed, ?_, ?_⟩
  · rw [contexts, ctx]
    exact boxed.contexts
  · rw [blocks, same]
    exact boxed.blocks
  · intro other other_mem
    rw [ctx]
    apply boxed.pool
    rw [← Multiset.mem_coe, ← same]
    exact other_mem

theorem consume_cases {position ctx : ℕ} (consumed : sock.consume position ctx = some next) :
    ∃ delivery context, sock.tokens[position]? = some delivery ∧ context ∈ sock.contexts ∧
      next = { sock with
        tokens := sock.tokens.eraseIdx position
        payloads := sock.payloads ++ [(delivery, context)] } ∧
      (↑next.live : Multiset Delivery) = ↑sock.live := by
  simp only [consume, Option.bind_eq_some_iff] at consumed
  rcases consumed with ⟨delivery, at_position, context, at_ctx, accepted⟩
  split at accepted
  · simp only [Option.some.injEq] at accepted
    subst next
    refine ⟨delivery, context, at_position, List.mem_of_getElem? at_ctx, rfl, ?_⟩
    simp only [live, List.map_append, List.map_cons, List.map_nil, ← Multiset.coe_add,
      Multiset.coe_singleton, ← coe_eraseIdx at_position]
    abel
  · simp at accepted

/-- A receive is a `recv_token` and a `consume`. -/
theorem recv_cases {result : Except Error Meta}
    (received : sock.recv (.ok packet) address = some (result, next)) :
    ∃ found middle position, sock.recvToken (.ok packet) address = some (found, middle) ∧
      middle.consume position 0 = some next := by
  simp only [recv, Option.bind_eq_some_iff] at received
  rcases received with ⟨⟨found, middle⟩, taken, rest⟩
  rcases recvToken_cases taken with ⟨-, -, -, -, -, -, info, rfl⟩
  simp only [Option.map_eq_some_iff, Prod.mk.injEq] at rest
  rcases rest with ⟨_, consumed, -, rfl⟩
  exact ⟨_, middle, _, taken, consumed⟩

theorem Boxed.consume {position ctx : ℕ} (boxed : sock.Boxed flags)
    (consumed : sock.consume position ctx = some next) : next.Boxed flags := by
  rcases consume_cases consumed with ⟨delivery, context, -, context_mem, rfl, same⟩
  refine boxed.of_same_live rfl rfl rfl ?_ same
  intro payload payload_mem
  rcases List.mem_append.mp payload_mem with old | new
  · exact boxed.borrowed payload old
  · rw [List.mem_singleton.mp new]
    exact boxed.contexts context context_mem

theorem intoToken_cases {position : ℕ} (stepped : sock.step (.intoToken position) = some next) :
    next.payloads = sock.payloads.eraseIdx position ∧ next.mem = sock.mem ∧
      next.ctx = sock.ctx ∧ next.contexts = sock.contexts ∧ next.blocks = sock.blocks ∧
      (↑next.live : Multiset Delivery) = ↑sock.live := by
  simp only [step, Option.map_eq_some_iff] at stepped
  rcases stepped with ⟨⟨delivery, context⟩, at_position, rfl⟩
  refine ⟨rfl, rfl, rfl, rfl, rfl, ?_⟩
  simp only [live, ← Multiset.coe_add, Multiset.coe_singleton,
    ← coe_map_eraseIdx Prod.fst at_position]
  abel

theorem Boxed.intoToken {position : ℕ} (boxed : sock.Boxed flags)
    (stepped : sock.step (.intoToken position) = some next) : next.Boxed flags := by
  rcases intoToken_cases stepped with ⟨payloads, -, ctx, contexts, blocks, same⟩
  refine boxed.of_same_live ctx contexts blocks ?_ same
  intro payload payload_mem
  rw [payloads] at payload_mem
  exact boxed.borrowed payload (List.mem_of_mem_eraseIdx payload_mem)

/-- A payload that is dropped takes its box with it. -/
theorem dropPayload_cases {position : ℕ} (stepped : sock.step (.dropPayload position) = some next) :
    ∃ delivery context, (delivery, context) ∈ sock.payloads ∧
      next.payloads = sock.payloads.eraseIdx position ∧ next.mem = sock.mem ∧
      next.ctx = sock.ctx ∧ next.contexts = sock.contexts ∧
      (↑sock.live : Multiset Delivery) = delivery ::ₘ ↑next.live ∧
      next.blocks = if context.bufCapacity = 0 then sock.blocks
        else sock.blocks.erase ⟨delivery.token.idx, context.bufCapacity⟩ := by
  simp only [step, Option.bind_eq_some_iff] at stepped
  rcases stepped with ⟨⟨delivery, context⟩, at_position, released⟩
  have split : (↑sock.live : Multiset Delivery) =
      delivery ::ₘ ↑{ sock with payloads := sock.payloads.eraseIdx position }.live := by
    simp only [live, ← Multiset.coe_add, ← coe_map_eraseIdx Prod.fst at_position,
      ← Multiset.singleton_add]
    abel
  refine ⟨delivery, context, List.mem_of_getElem? at_position, ?_⟩
  simp only [release] at released
  split at released
  · rename_i empty
    simp only [Option.some.injEq] at released
    subst next
    exact ⟨rfl, rfl, rfl, rfl, split, (if_pos empty).symm⟩
  · rename_i nonempty
    split at released
    · simp only [Option.some.injEq] at released
      subst next
      exact ⟨rfl, rfl, rfl, rfl, split, (if_neg nonempty).symm⟩
    · simp at released

theorem Boxed.dropPayload {position : ℕ} (boxed : sock.Boxed flags)
    (stepped : sock.step (.dropPayload position) = some next) : next.Boxed flags := by
  rcases dropPayload_cases stepped with
    ⟨delivery, context, payload_mem, payloads, -, ctx, contexts, split, blocks⟩
  have own : context = sock.ctx := boxed.borrowed _ payload_mem
  rw [own, boxed.capacity] at blocks
  refine ⟨ctx ▸ boxed.capacity, ?_, ?_, ?_, ?_⟩
  · rw [contexts, ctx]
    exact boxed.contexts
  · intro payload still
    rw [payloads] at still
    rw [ctx]
    exact boxed.borrowed payload (List.mem_of_mem_eraseIdx still)
  · have before := boxed.blocks
    simp only [ownBlocks] at before ⊢
    by_cases empty : flags.bufferSize = 0
    · rw [if_pos empty] at blocks before ⊢
      rw [blocks, before]
    · rw [if_neg empty] at blocks before ⊢
      rw [blocks, ← Multiset.coe_erase, before, split, Multiset.map_cons,
        Multiset.erase_cons_head]
  · intro other other_mem
    rw [ctx]
    apply boxed.pool
    rw [← Multiset.mem_coe, split]
    exact Multiset.mem_cons_of_mem other_mem

theorem Boxed.cloneCtx {ctx : ℕ} (boxed : sock.Boxed flags)
    (stepped : sock.step (.cloneCtx ctx) = some next) : next.Boxed flags := by
  simp only [step, Option.map_eq_some_iff] at stepped
  rcases stepped with ⟨context, at_ctx, rfl⟩
  refine ⟨boxed.capacity, ?_, boxed.borrowed, boxed.blocks, boxed.pool⟩
  intro other other_mem
  rcases List.mem_append.mp other_mem with old | new
  · exact boxed.contexts other old
  · rw [List.mem_singleton.mp new]
    exact boxed.contexts context (List.mem_of_getElem? at_ctx)

end Sock

/-! ## Runs -/

def Action.packet? : Action → Option Packet
  | .recvToken (.ok packet) _ | .recv (.ok packet) _ => some packet
  | _ => none

namespace Sock

variable {flags : PcapFlags} {sock next : Sock} {action : Action}

/-- A receive without a packet changes nothing. Any other takes a token, and may consume it. -/
theorem receive_cases (delivered : Except Error Packet) (address : ℕ)
    (receives : action = .recvToken delivered address ∨ action = .recv delivered address)
    (stepped : sock.step action = some next) :
    (action.packet? = none ∧ next = sock) ∨
      ∃ packet result middle, action.packet? = some packet ∧
        sock.recvToken (.ok packet) address = some (result, middle) ∧
        (next = middle ∨ ∃ position, middle.consume position 0 = some next) := by
  rcases receives with rfl | rfl
  all_goals
    simp only [step, Option.map_eq_some_iff] at stepped
    rcases stepped with ⟨⟨result, final⟩, received, rfl⟩
    rcases delivered with error | packet
  · simp only [Sock.recvToken, Option.some.injEq, Prod.mk.injEq] at received
    exact Or.inl ⟨rfl, received.2.symm⟩
  · exact Or.inr ⟨packet, result, final, rfl, received, Or.inl rfl⟩
  · simp only [Sock.recv, Sock.recvToken, Option.bind_some, Option.some.injEq,
      Prod.mk.injEq] at received
    exact Or.inl ⟨rfl, received.2.symm⟩
  · rcases recv_cases received with ⟨found, middle, position, taken, consumed⟩
    exact Or.inr ⟨packet, found, middle, rfl, taken, Or.inr ⟨position, consumed⟩⟩

/-- An action receives a packet into a new box, or leaves the memory alone and makes no token. -/
theorem step_cases (stepped : sock.step action = some next) :
    (action.packet? = none ∧ next.mem = sock.mem ∧ ∀ other ∈ next.live, other ∈ sock.live) ∨
      ∃ packet ptr, action.packet? = some packet ∧ sock.Takes next ptr ∧
        (↑next.live : Multiset Delivery) = sock.delivery packet ptr ::ₘ ↑sock.live := by
  have subset : (↑next.live : Multiset Delivery) = ↑sock.live →
      ∀ other ∈ next.live, other ∈ sock.live := by
    intro same other other_mem
    rw [← Multiset.mem_coe, ← same]
    exact other_mem
  cases action with
  | recvToken delivered address | recv delivered address =>
      rcases receive_cases delivered address (by simp) stepped with
        ⟨nothing, rfl⟩ | ⟨packet, result, middle, received, taken, ended⟩
      · exact Or.inl ⟨nothing, rfl, fun _ => id⟩
      · rcases recvToken_cases taken with ⟨ptr, takes, tokens, payloads, -⟩
        have live := coe_live_append tokens payloads
        rcases ended with rfl | ⟨position, consumed⟩
        · exact Or.inr ⟨packet, ptr, received, takes, live⟩
        · rcases consume_cases consumed with ⟨delivery, context, -, -, rfl, same⟩
          exact Or.inr ⟨packet, ptr, received, takes, same.trans live⟩
  | consume token ctx =>
      rcases consume_cases stepped with ⟨delivery, context, -, -, rfl, same⟩
      exact Or.inl ⟨rfl, rfl, subset same⟩
  | intoToken payload =>
      rcases intoToken_cases stepped with ⟨-, mem, -, -, -, same⟩
      exact Or.inl ⟨rfl, mem, subset same⟩
  | dropPayload payload =>
      rcases dropPayload_cases stepped with ⟨delivery, context, -, -, mem, -, -, split, -⟩
      refine Or.inl ⟨rfl, mem, ?_⟩
      intro other other_mem
      rw [← Multiset.mem_coe, split]
      exact Multiset.mem_cons_of_mem other_mem
  | cloneCtx ctx =>
      simp only [step, Option.map_eq_some_iff] at stepped
      rcases stepped with ⟨context, -, rfl⟩
      exact Or.inl ⟨rfl, rfl, fun _ => id⟩

theorem Boxed.step (boxed : sock.Boxed flags) (stepped : sock.step action = some next) :
    next.Boxed flags := by
  cases action with
  | recvToken delivered address | recv delivered address =>
      rcases receive_cases delivered address (by simp) stepped with
        ⟨-, rfl⟩ | ⟨packet, result, middle, -, taken, ended⟩
      · exact boxed
      · have received := boxed.recvToken taken
        rcases ended with rfl | ⟨position, consumed⟩
        · exact received
        · exact received.consume consumed
  | consume token ctx => exact boxed.consume stepped
  | intoToken payload => exact boxed.intoToken stepped
  | dropPayload payload => exact boxed.dropPayload stepped
  | cloneCtx ctx => exact boxed.cloneCtx stepped

/-! ## Views and boxes -/

/-- The view of every token lies in its box, whose length is the capacity, and every context would
release this very box. -/
structure Within (sock : Sock) : Prop where
  len_le : ∀ delivery ∈ sock.live, delivery.token.len.toNat ≤ sock.ctx.bufCapacity
  inside : ∀ delivery ∈ sock.live, delivery.token.len ≠ 0 →
    ∃ block ∈ sock.blocks, block = ⟨delivery.token.idx, sock.ctx.bufCapacity⟩ ∧
      block.Contains delivery.token.idx delivery.token.len.toNat
  releases : ∀ delivery ∈ sock.live, ∀ ctx ∈ sock.contexts, ctx.bufCapacity ≠ 0 →
    ⟨delivery.token.idx, ctx.bufCapacity⟩ ∈ sock.blocks
  dropped : ∀ payload ∈ sock.payloads, payload.2.bufCapacity ≠ 0 →
    ⟨payload.1.token.idx, payload.2.bufCapacity⟩ ∈ sock.blocks

def StepWithin (sock : Sock) (action : Action) : Prop :=
  ∀ next, sock.step action = some next → next.Within

theorem Boxed.within_iff (boxed : sock.Boxed flags) :
    sock.Within ↔ ∀ delivery ∈ sock.live, delivery.token.len.toNat ≤ flags.bufferSize := by
  have capacity := boxed.capacity
  constructor
  · intro within
    rw [← capacity]
    exact within.len_le
  · intro short
    refine ⟨capacity ▸ short, ?_, ?_, ?_⟩
    · intro delivery live nonzero
      have positive : delivery.token.len.toNat ≠ 0 := by
        intro zero
        exact nonzero (UInt32.toNat_inj.mp zero)
      have len_le := short delivery live
      refine ⟨_, boxed.own_block (by omega) live, by rw [capacity], Nat.le_refl _, ?_⟩
      exact Nat.add_le_add_left len_le _
    · intro delivery live ctx ctx_mem nonempty
      rw [boxed.contexts ctx ctx_mem, capacity] at nonempty ⊢
      exact boxed.own_block nonempty live
    · intro payload payload_mem nonempty
      rw [boxed.borrowed payload payload_mem, capacity] at nonempty ⊢
      apply boxed.own_block nonempty
      exact List.mem_append_right _ (List.mem_map_of_mem payload_mem)

end Sock

/-- The packet that the action receives fits a buffer. -/
def Action.Short (flags : PcapFlags) (action : Action) : Prop :=
  ∀ packet, action.packet? = some packet → packet.data.length ≤ flags.bufferSize

/-- libpcap has captured no more than `snaplen` bytes of the packet. -/
def Action.Captured (snaplen : ℤ) (action : Action) : Prop :=
  ∀ packet, action.packet? = some packet → (packet.caplen.toNat : ℤ) ≤ snaplen

namespace Sock

variable {flags : PcapFlags} {sock : Sock} {action : Action}

theorem stepWithin_iff_short (boxed : sock.Boxed flags) (within : sock.Within)
    (possible : (sock.step action).isSome = true) :
    sock.StepWithin action ↔ action.Short flags := by
  rcases Option.isSome_iff_exists.mp possible with ⟨next, stepped⟩
  constructor
  · intro stepWithin packet received
    have short := (boxed.step stepped).within_iff.mp (stepWithin next stepped)
    rcases step_cases stepped with ⟨nothing, -⟩ | ⟨other, ptr, received', -, live⟩
    · simp [nothing] at received
    · rw [received, Option.some.injEq] at received'
      subst other
      have new : sock.delivery packet ptr ∈ next.live := by
        rw [← Multiset.mem_coe, live]
        exact Multiset.mem_cons_self _ _
      have len_le := short _ new
      rwa [delivery, packet.len_toNat] at len_le
  · intro short next stepped
    apply (boxed.step stepped).within_iff.mpr
    intro other other_mem
    have old_short := boxed.within_iff.mp within
    rcases step_cases stepped with ⟨-, -, fewer⟩ | ⟨packet, ptr, received, -, live⟩
    · exact old_short other (fewer other other_mem)
    · rw [← Multiset.mem_coe, live, Multiset.mem_cons] at other_mem
      rcases other_mem with rfl | old
      · rw [delivery, packet.len_toNat]
        exact short packet received
      · exact old_short other old

/-- In every run the views stay in their boxes exactly when no packet is longer than a buffer. This
is so whenever `snaplen` does not exceed `buffer_size`. -/
theorem tokens_within_iff {poolId : UInt32} {mem : ℕ → UInt8} {actions : List Action}
    {final : Sock} (performed : run step (create flags poolId mem) actions = some final) :
    (RunMeets step StepWithin (create flags poolId mem) actions ↔
        ∀ action ∈ actions, action.Short flags) ∧
      ∀ snaplen : ℤ, snaplen ≤ flags.bufferSize →
        (∀ action ∈ actions, action.Captured snaplen) →
          RunMeets step StepWithin (create flags poolId mem) actions := by
  have iff : RunMeets step StepWithin (create flags poolId mem) actions ↔
      ∀ action ∈ actions, action.Short flags := by
    rw [← runMeets_iff_forall performed]
    apply runMeets_iff_of fun sock => sock.Boxed flags ∧ sock.Within
    · exact fun sound possible => stepWithin_iff_short sound.1 sound.2 possible
    · intro sock next action sound possible short stepped
      exact ⟨sound.1.step stepped,
        (stepWithin_iff_short sound.1 sound.2 possible).mpr short next stepped⟩
    · have boxed := create_boxed flags poolId mem
      exact ⟨boxed, boxed.within_iff.mpr (by simp [create, live])⟩
    · exact runMeets_isSome performed
  refine ⟨iff, ?_⟩
  intro snaplen snaplen_le captured
  apply iff.mpr
  intro action action_mem packet received
  have caplen_le := captured action action_mem packet received
  rw [← packet.length_data] at caplen_le
  omega

def twoBytes : Packet := ⟨(0, 0), 2, 60, [4, 5], rfl⟩

theorem tokens_within_twoBytes :
    RunMeets step StepWithin (create ⟨4⟩ 1 fun _ => 7)
      [.recvToken (.ok twoBytes) 4096, .consume 0 0, .recv (.ok twoBytes) 8192,
        .dropPayload 0] := by
  have performed : (run step (create ⟨4⟩ 1 fun _ => 7)
      [.recvToken (.ok twoBytes) 4096, .consume 0 0, .recv (.ok twoBytes) 8192,
        .dropPayload 0]).isSome = true := by decide
  rcases Option.isSome_iff_exists.mp performed with ⟨final, performed⟩
  apply (tokens_within_iff performed).1.mpr
  simp [Action.Short, Action.packet?, twoBytes]

theorem length_longData : (List.replicate 2049 (0 : UInt8)).length = (2049 : UInt32).toNat := by
  rw [List.length_replicate]
  rfl

def longPacket : Packet := ⟨(0, 0), 2049, 2049, List.replicate 2049 0, length_longData⟩

/-- With the default flags, a packet of 2049 bytes gets a box of 2048. -/
theorem longPacket_leaves_box :
    Action.Captured 65535 (.recvToken (.ok longPacket) 4096) ∧
      (∃ sock, (create ⟨2048⟩ 1 fun _ => 7).step (.recvToken (.ok longPacket) 4096) = some sock ∧
        sock.blocks = [⟨4096, 2048⟩] ∧ sock.tokens.map Delivery.token = [⟨4096, 2049, 1⟩]) ∧
      ¬RunMeets step StepWithin (create ⟨2048⟩ 1 fun _ => 7)
        [.recvToken (.ok longPacket) 4096] := by
  have token_len : UInt32.ofNat longPacket.data.length = 2049 := by
    rw [longPacket, List.length_replicate]
    rfl
  refine ⟨?_, ⟨_, rfl, rfl, ?_⟩, ?_⟩
  · rintro packet ⟨⟩
    show ((2049 : UInt32).toNat : ℤ) ≤ 65535
    decide
  · simp only [create, List.nil_append, List.map_cons, List.map_nil, token_len]
  · rintro ⟨within, -⟩
    have len_le := (within _ rfl).len_le ((create ⟨2048⟩ 1 fun _ => 7).delivery longPacket 4096)
      (List.mem_singleton.mpr rfl)
    rw [delivery, token_len] at len_le
    revert len_le
    decide

end Sock

end Nethuns.Pcap
