import Nethuns.Netmap.Buffers

/-!
# Every netmap buffer has one owner

Whatever the calls on the socket and the actions of its users, failed ones included, a buffer is
never in two places at once. The receive slots and the pool exchange buffers but keep their bag
of buffers, apart from what the channel throws away, and the transmit slots keep theirs.
-/

namespace Nethuns.Netmap

open Nethuns.Lib Nethuns.Mpsc Nethuns.Api

namespace Sock

/-- The buffers in circulation: in the receive slots, with the users, or free. -/
def circulating (sock : Sock) : Multiset ℕ := sock.port.rxBufs + sock.pool.held

/-- All the owners of buffers, with repetitions. -/
def owners (sock : Sock) : Multiset ℕ := sock.port.txBufs + sock.circulating

/-- The receive slots whose buffer was replaced since the last `NIOCRXSYNC` tell the kernel. -/
def Flagged (sock : Sock) : Prop :=
  ∀ place ∈ sock.replaced, sock.port.rxBase ≤ place.1 ∧
    ∃ slot, sock.port.slot? place.1 place.2 = some slot ∧ slot.flags &&& nsBufChanged ≠ 0

/-- What every call preserves: the pool is in order, the receiver points at a receive ring, and
the buffers of the pool are `u32` indices. -/
structure Intact (sock : Sock) : Prop where
  sane : sock.pool.Sane
  aimed : sock.rx.Aimed sock.port
  small : ∀ buf ∈ sock.pool.held, buf < 2 ^ 32
  flagged : sock.Flagged

end Sock

/-- The call kept the circulating buffers, the number of receive slots, the buffers of the
transmit slots and the size of the queues. -/
structure Sock.Preserved (sock next : Sock) : Prop where
  intact : next.Intact
  circulating : next.circulating = sock.circulating
  rxCard : next.port.rxBufs.card = sock.port.rxBufs.card
  txBufs : next.port.txBufs = sock.port.txBufs
  capacity : next.pool.channel.singleSpscLen = sock.pool.channel.singleSpscLen

/-- During the action the kernel does what it is trusted to do. -/
def KernelKeeps (sock : Sock) : Action → Prop
  | .recvToken ioctl | .recv ioctl => ioctl.KeepsBufs
  | .send _ first second =>
      (first.KeepsBufs ∧ first.LeavesFrom sock.port.rxBase) ∧
        second.KeepsBufs ∧ second.LeavesFrom sock.port.rxBase
  | .flush ioctl => ioctl.KeepsBufs ∧ ioctl.LeavesFrom sock.port.rxBase
  | .pool _ => True

variable {sock next : Sock}

theorem Slot.updateBuffer_flags (slot : Slot) (f : UInt32 → UInt32) :
    (slot.updateBuffer f).flags &&& nsBufChanged ≠ 0 := by
  simp only [Slot.updateBuffer, nsBufChanged]
  intro cleared
  have bit := congrArg (fun flags : UInt16 => flags.toBitVec.getLsbD 0) cleared
  simp at bit

namespace Port

variable {port : Port} {pointer position : ℕ} {slot : Slot}

theorem updateBuffer_rxBufs {freeIdx : ℕ} (receive : pointer ∈ port.rxPointers)
    (present : port.slot? pointer position = some slot) (small : freeIdx < 2 ^ 32) :
    (port.updateSlot pointer position fun slot =>
        slot.updateBuffer fun _ => .ofNat freeIdx).rxBufs + {slot.bufIdx.toNat} =
      port.rxBufs + {freeIdx} := by
  have exact : (UInt32.ofNat freeIdx).toNat = freeIdx := by
    simpa using Nat.mod_eq_of_lt small
  have inRing := coe_map_modify (fun slot : Slot => slot.bufIdx.toNat)
    (fun slot => slot.updateBuffer fun _ => .ofNat freeIdx) present
  have inRings := flatMap_update port.rings
    (fun ring : NetmapRing => ring.slots.map fun slot => slot.bufIdx.toNat)
    ((port.rings pointer).updateSlot position fun slot =>
      slot.updateBuffer fun _ => .ofNat freeIdx)
    (List.nodup_range' (s := port.rxBase) (n := port.niRxRings + port.niHostRxRings)) receive
  simp only [NetmapRing.updateSlot, Slot.updateBuffer, exact] at inRing inRings
  apply add_right_cancel (b := (↑(port.ringBufs pointer) : Multiset ℕ))
  calc _ = port.rxBufs + (↑(port.ringBufs pointer) + {freeIdx}) := by
        rw [Port.ringBufs, ← inRing, ← add_assoc, add_right_comm]
        congr 1
    _ = _ := by abel

theorem updateSlot_txBufs {f : Slot → Slot} (receive : port.rxBase ≤ pointer) :
    (port.updateSlot pointer position f).txBufs = port.txBufs := by
  simp only [txBufs]
  congr 1
  apply List.flatMap_congr
  intro other other_mem
  have different : other ≠ pointer := by
    have := List.mem_range.mp other_mem
    simp only [rxBase, updateSlot, setRing] at this receive
    omega
  simp [ringBufs, updateSlot, setRing, Function.update_of_ne different]

theorem updateSlot_slot? {f : Slot → Slot} (other place : ℕ) :
    (port.updateSlot pointer position f).slot? other place =
      if other = pointer ∧ place = position then (port.slot? other place).map f
      else port.slot? other place := by
  by_cases sameRing : other = pointer
  · subst other
    simp only [slot?, updateSlot, setRing, Function.update_self, NetmapRing.updateSlot, true_and,
      List.getElem?_modify]
    by_cases samePlace : place = position
    · simp [samePlace]
    · simp [samePlace, Ne.symm samePlace]
  · simp [slot?, updateSlot, setRing, sameRing]

end Port

theorem Sock.Flagged.sameRx {after : Port} (flagged : sock.Flagged) (keeps : sock.port.Keeps after)
    (sameRx : sock.port.SameRx after) : { sock with port := after }.Flagged := by
  intro place place_mem
  rcases flagged place place_mem with ⟨receive, slot, present, flag⟩
  refine ⟨?_, slot, ?_, flag⟩
  · rw [keeps.rxBase]
    exact receive
  · simpa only [Port.slot?, sameRx place.1 receive] using present

theorem Sock.Flagged.updateBuffer {buf : RxBuf} {pool : Pool} {slot : Slot} {f : UInt32 → UInt32}
    (flagged : sock.Flagged) (receive : sock.port.rxBase ≤ buf.pointer)
    (present : sock.port.slot? buf.pointer buf.slot = some slot) :
    { sock with
      port := sock.port.updateSlot buf.pointer buf.slot fun slot => slot.updateBuffer f
      pool := pool
      replaced := (buf.pointer, buf.slot) :: sock.replaced }.Flagged := by
  have replaced_now : ∃ changed, (sock.port.updateSlot buf.pointer buf.slot fun slot =>
      slot.updateBuffer f).slot? buf.pointer buf.slot = some changed ∧
        changed.flags &&& nsBufChanged ≠ 0 := by
    refine ⟨slot.updateBuffer f, ?_, slot.updateBuffer_flags f⟩
    simp [Port.updateSlot_slot?, present]
  intro place place_mem
  rcases List.mem_cons.mp place_mem with rfl | earlier
  · exact ⟨receive, replaced_now⟩
  · rcases flagged place earlier with ⟨earlier_receive, old, old_present, flag⟩
    refine ⟨earlier_receive, ?_⟩
    by_cases same : place.1 = buf.pointer ∧ place.2 = buf.slot
    · rw [same.1, same.2]
      exact replaced_now
    · refine ⟨old, ?_, flag⟩
      simp only [Port.updateSlot_slot?, if_neg same, old_present]

theorem recvInner_intact {buf : RxBuf} {result : Except Error Unit} (intact : sock.Intact)
    (receive : sock.port.rxBase ≤ buf.pointer) (region : buf.pointer ∈ sock.port.rxPointers)
    (received : sock.recvInner buf = some (result, next)) : Sock.Preserved sock next := by
  simp only [Sock.recvInner, Option.map_eq_some_iff] at received
  rcases received with ⟨slot, present, received⟩
  have popped_held := sock.pool.popped_held
  have popped_sane := Pool.popped_sane intact.sane
  have capacity := Channel.pop_singleSpscLen sock.pool.channel
  split at received
  · rename_i channel popped
    simp only [Prod.mk.injEq] at received
    rcases received with ⟨-, rfl⟩
    simp only [Pool.popped, popped, Channel.poppedValues, Option.toList_none, Multiset.coe_nil,
      add_zero] at popped_held popped_sane capacity
    refine ⟨⟨popped_sane, intact.aimed, ?_, intact.flagged⟩, ?_, rfl, rfl, capacity⟩
    · rw [popped_held]
      exact intact.small
    · simp only [Sock.circulating, popped_held]
  · rename_i freeIdx channel popped
    simp only [Prod.mk.injEq] at received
    rcases received with ⟨-, rfl⟩
    simp only [Pool.popped, popped, Channel.poppedValues, Option.toList_some,
      Multiset.coe_singleton] at popped_held popped_sane capacity
    have free_small : freeIdx < 2 ^ 32 := by
      apply intact.small
      simp [← popped_held]
    have exchanged := Port.updateBuffer_rxBufs region present free_small
    refine ⟨⟨⟨popped_sane.wellFormed, popped_sane.live⟩, intact.aimed, ?_,
      intact.flagged.updateBuffer receive present⟩, ?_, ?_, Port.updateSlot_txBufs receive,
      capacity⟩
    · intro value value_mem
      simp only [Pool.give_held, Multiset.mem_add, Multiset.mem_singleton] at value_mem
      rcases value_mem with old | rfl
      · apply intact.small
        rw [← popped_held]
        exact Multiset.mem_add.mpr (Or.inl old)
      · exact slot.bufIdx.toNat_lt
    · simp only [Sock.circulating, Pool.give_held]
      rw [← popped_held]
      calc _ = _ + {slot.bufIdx.toNat} + { sock.pool with channel := channel }.held := by abel
        _ = _ := by
            rw [exchanged]
            abel
    · have cards := congrArg Multiset.card exchanged
      simpa using cards

theorem Sock.Preserved.trans {middle : Sock} (first : Sock.Preserved sock middle)
    (second : Sock.Preserved middle next) : Sock.Preserved sock next :=
  ⟨second.intact, second.circulating.trans first.circulating, second.rxCard.trans first.rxCard,
    second.txBufs.trans first.txBufs, second.capacity.trans first.capacity⟩

theorem Received.intact {found : Option RxBuf} {rx : Receiver} {after : Port}
    (intact : sock.Intact) (received : Received found rx sock.port after) :
    Sock.Preserved sock { sock with rx := rx, port := after } := by
  have flagged := intact.flagged.sameRx received.keeps received.sameRx
  refine ⟨⟨intact.sane, received.aimed, intact.small, flagged⟩, ?_, ?_,
    received.keeps.txBufs, rfl⟩
  · simp only [Sock.circulating, received.keeps.rxBufs]
  · simp only [received.keeps.rxBufs]

theorem recvInner_preserved {buf : RxBuf} {found : Option RxBuf} {rx : Receiver} {after : Port}
    {result : Except Error Unit} (intact : sock.Intact)
    (scanned : Received found rx sock.port after) (here : found = some buf)
    (received : { sock with rx := rx, port := after }.recvInner buf = some (result, next)) :
    Sock.Preserved sock next := by
  have start := scanned.intact intact
  rcases scanned.region buf here with ⟨receive, region⟩
  exact start.trans (recvInner_intact start.intact receive region received)

theorem rx_reset_intact {ioctl : Ioctl} {rx : Receiver} {after : Port} (intact : sock.Intact)
    (keepsBufs : ioctl.KeepsBufs) (done : sock.rx.reset sock.port ioctl = some (rx, after)) :
    Sock.Preserved sock { sock with rx := rx, port := after, replaced := [] } := by
  simp only [Receiver.reset, Option.map_eq_some_iff, Prod.mk.injEq] at done
  rcases done with ⟨synced, done, rfl, rfl⟩
  have keeps := Port.sync_keeps keepsBufs done
  refine ⟨⟨intact.sane, ?_, intact.small, ?_⟩, ?_, ?_, keeps.txBufs, rfl⟩
  · intro pointer present
    rcases Port.sync_eq_some done with ⟨kernel, -, rfl⟩
    exact Port.rawRxRingAt_eq_some present
  · intro place place_mem
    simp at place_mem
  · simp only [Sock.circulating, keeps.rxBufs]
  · simp only [keeps.rxBufs]

theorem recvToken_preserved {ioctl : Ioctl} {result : Except Error Unit} (intact : sock.Intact)
    (keepsBufs : ioctl.KeepsBufs) (received : sock.recvToken ioctl = some (result, next)) :
    Sock.Preserved sock next := by
  simp only [Sock.recvToken, Option.bind_eq_some_iff] at received
  rcases received with ⟨⟨found, rx, after⟩, scanned, received⟩
  have first := rx_next_received intact.aimed scanned
  cases found with
  | some buf => exact recvInner_preserved intact first rfl received
  | none =>
      simp only [Option.bind_eq_some_iff] at received
      rcases received with ⟨⟨restarted, synced⟩, reset, ⟨found, rx', after'⟩, rescanned, received⟩
      have start := first.intact intact
      have fresh := rx_reset_intact start.intact keepsBufs reset
      have second := rx_next_received fresh.intact.aimed rescanned
      have whole : Sock.Preserved sock
          { sock with rx := restarted, port := synced, replaced := [] } := start.trans fresh
      cases found with
      | none =>
          simp only [Option.some.injEq, Prod.mk.injEq] at received
          rcases received with ⟨-, rfl⟩
          exact whole.trans (second.intact whole.intact)
      | some buf =>
          exact whole.trans (recvInner_preserved whole.intact second rfl received)

theorem pool_preserved {action : PoolAction} {pool : Pool} {discards : List Discard}
    (intact : sock.Intact) (stepped : sock.pool.step action = some (pool, discards)) :
    { sock with pool := pool }.Intact ∧
      { sock with pool := pool }.circulating + discardedValues discards = sock.circulating := by
  have held := Pool.step_held intact.sane stepped
  refine ⟨⟨Pool.step_sane intact.sane stepped, intact.aimed, ?_, intact.flagged⟩, ?_⟩
  · intro value value_mem
    apply intact.small
    rw [← held]
    exact Multiset.mem_add.mpr (Or.inl value_mem)
  · simp only [Sock.circulating, add_assoc, held]

theorem recv_preserved {ioctl : Ioctl} {result : Except Error Unit} (intact : sock.Intact)
    (keepsBufs : ioctl.KeepsBufs) (received : sock.recv ioctl = some (result, next)) :
    Sock.Preserved sock next := by
  rcases Sock.recv_cases received with ⟨outcome, middle, token, ended⟩
  have first := recvToken_preserved intact keepsBufs token
  rcases ended with rfl | ⟨pool, stepped, rfl⟩
  · exact first
  · rcases pool_preserved first.intact stepped with ⟨done, circulating⟩
    simp only [discardedValues_nil, add_zero] at circulating
    exact first.trans ⟨done, circulating, rfl, rfl,
      (Pool.step_parameters first.intact.sane stepped).2⟩

theorem clearFlags_keeps (port : Port) (pointer position : ℕ) (bufs : ℕ → List UInt8) :
    port.Keeps { port.updateSlot pointer position Slot.clearFlags with bufs := bufs } := by
  refine ⟨⟨_, bufs, rfl⟩, ?_⟩
  intro other
  by_cases here : other = pointer
  · subst other
    simp only [Port.ringBufs, Port.updateSlot, Port.setRing, Function.update_self,
      NetmapRing.updateSlot]
    exact map_modify_eq_self fun _ => rfl
  · simp [Port.ringBufs, Port.updateSlot, Port.setRing, Function.update_of_ne here]

theorem clearFlags_sameRx {port : Port} {pointer : ℕ} (position : ℕ) (bufs : ℕ → List UInt8)
    (transmit : pointer < port.niTxRings) :
    port.SameRx { port.updateSlot pointer position Slot.clearFlags with bufs := bufs } := by
  intro other receive
  have different : other ≠ pointer := by
    simp only [Port.rxBase] at receive
    omega
  simp [Port.updateSlot, Port.setRing, Function.update_of_ne different]

theorem Sock.Intact.keeps {tx : Transmitter} {after : Port} (intact : sock.Intact)
    (keeps : sock.port.Keeps after) (sameRx : sock.port.SameRx after) :
    Sock.Preserved sock { sock with tx := tx, port := after } := by
  refine ⟨⟨intact.sane, intact.aimed.keeps keeps, intact.small,
    intact.flagged.sameRx keeps sameRx⟩, ?_, ?_, keeps.txBufs, rfl⟩
  · simp only [Sock.circulating, keeps.rxBufs]
  · simp only [keeps.rxBufs]

theorem sendInner_preserved {buf : TxBuf} {packet : List UInt8} {result : Except Error Unit}
    (intact : sock.Intact) (transmit : buf.pointer < sock.port.niTxRings)
    (sent : sock.sendInner buf packet = some (result, next)) : Sock.Preserved sock next := by
  simp only [Sock.sendInner, Option.map_eq_some_iff] at sent
  rcases sent with ⟨slot, -, sent⟩
  split at sent
  all_goals
    simp only [Prod.mk.injEq] at sent
    rcases sent with ⟨-, rfl⟩
    exact intact.keeps (clearFlags_keeps sock.port buf.pointer buf.slot _)
      (clearFlags_sameRx buf.slot _ transmit)

theorem send_preserved {packet : List UInt8} {first second : Ioctl} {result : Except Error Unit}
    (intact : sock.Intact) (kernel : KernelKeeps sock (.send packet first second))
    (sent : sock.send packet first second = some (result, next)) : Sock.Preserved sock next := by
  rcases kernel with ⟨⟨keepsFirst, leavesFirst⟩, keepsSecond, leavesSecond⟩
  simp only [Sock.send, Option.bind_eq_some_iff] at sent
  rcases sent with ⟨⟨found, tx, after⟩, obtained, sent⟩
  rcases obtain_quiet keepsFirst leavesFirst keepsSecond leavesSecond found tx after obtained with
    ⟨keeps, sameRx, transmit⟩
  have start : Sock.Preserved sock { sock with tx := tx, port := after } :=
    intact.keeps keeps sameRx
  cases found with
  | none =>
      simp only [Option.some.injEq, Prod.mk.injEq] at sent
      rcases sent with ⟨-, rfl⟩
      exact start
  | some buf =>
      have region : buf.pointer < after.niTxRings := by
        rcases keeps.shape with ⟨rings, bufs, rfl⟩
        exact transmit buf rfl
      exact start.trans (sendInner_preserved start.intact region sent)

/-- A step is a call that keeps the circulating buffers, or an action on the pool. -/
theorem step_cases {action : Action} (intact : sock.Intact) (kernel : KernelKeeps sock action)
    (stepped : sock.step action = some next) :
    (Sock.Preserved sock next ∧ ∀ poolAction, action ≠ .pool poolAction) ∨
      ∃ poolAction pool discards, action = .pool poolAction ∧
        sock.pool.step poolAction = some (pool, discards) ∧ next = { sock with pool := pool } := by
  cases action with
  | recvToken ioctl =>
      simp only [Sock.step, Option.map_eq_some_iff] at stepped
      rcases stepped with ⟨⟨result, _⟩, received, rfl⟩
      exact Or.inl ⟨recvToken_preserved intact kernel received, by simp⟩
  | recv ioctl =>
      simp only [Sock.step, Option.map_eq_some_iff] at stepped
      rcases stepped with ⟨⟨result, _⟩, received, rfl⟩
      exact Or.inl ⟨recv_preserved intact kernel received, by simp⟩
  | send packet first second =>
      simp only [Sock.step, Option.map_eq_some_iff] at stepped
      rcases stepped with ⟨⟨result, _⟩, sent, rfl⟩
      exact Or.inl ⟨send_preserved intact kernel sent, by simp⟩
  | flush ioctl =>
      simp only [Sock.step, Sock.flush, Option.map_eq_some_iff] at stepped
      rcases stepped with ⟨after, done, rfl⟩
      refine Or.inl ⟨?_, by simp⟩
      exact intact.keeps (Port.sync_keeps kernel.1 done) (Port.sync_sameRx kernel.2 done)
  | pool poolAction =>
      simp only [Sock.step, Option.map_eq_some_iff] at stepped
      rcases stepped with ⟨⟨pool, discards⟩, stepped, rfl⟩
      exact Or.inr ⟨poolAction, pool, discards, rfl, stepped, rfl⟩

theorem step_intact {action : Action} (intact : sock.Intact) (kernel : KernelKeeps sock action)
    (stepped : sock.step action = some next) :
    next.Intact ∧ next.circulating ≤ sock.circulating ∧ next.port.txBufs = sock.port.txBufs := by
  rcases step_cases intact kernel stepped with ⟨preserved, -⟩ | pooled
  · exact ⟨preserved.intact, preserved.circulating.le, preserved.txBufs⟩
  · rcases pooled with ⟨poolAction, pool, discards, rfl, pool_stepped, rfl⟩
    rcases pool_preserved intact pool_stepped with ⟨done, circulating⟩
    refine ⟨done, ?_, rfl⟩
    rw [← circulating]
    exact Multiset.le_add_right _ _

/-- What `Ctx::new` leaves in the free channel: all the extra buffers, when their number is a
multiple of 16. -/
theorem Ctx.new_spec (indexes : List UInt32) (index : UInt32) (site : Site) :
    ∃ pool discards, Ctx.new indexes index site = some pool ∧ pool.Sane ∧
      pool.channel.singleSpscLen = indexes.length ∧ pool.held = pool.channel.contents ∧
      pool.held + discardedValues discards = ↑(indexes.map UInt32.toNat) ∧
      (discardedValues discards = 0 ↔ indexes.length % 16 = 0) := by
  have room : (indexes.map UInt32.toNat).length ≤ 16 * indexes.length := by
    simp only [List.length_map]
    omega
  rcases Channel.stock_channel site room with
    ⟨filled, flushed, discards, pushed, done, wellFormed, capacity, only, -, contents, lossless⟩
  have live : flushed.batch? 0 = some .new := Channel.batch?_of_only only
  have held : Pool.held ⟨flushed, index, [], []⟩ = flushed.contents := by
    simp [Pool.held, Pool.issued]
  refine ⟨⟨flushed, index, [], []⟩, discards, ?_, ⟨wellFormed, .new, live⟩, capacity, held, ?_, ?_⟩
  · simp [Ctx.new, pushed, done]
  · rw [held, contents]
  · simpa using lossless

/-- A new socket: its circulating buffers are those of the receive slots and the extra ones, less
what `Ctx::new` loses. -/
theorem create_spec {port : Port} {ioctl : Ioctl} {index : UInt32} {site : Site}
    (keepsBufs : ioctl.KeepsBufs) (created : Sock.create port ioctl index site = some sock) :
    ∃ extra taken discards, port.extraBuffersIndexes = some (extra, taken) ∧ sock.Intact ∧
      sock.pool.channel.singleSpscLen = extra.length ∧
      sock.pool.held = sock.pool.channel.contents ∧
      sock.pool.held + discardedValues discards = ↑(extra.map UInt32.toNat) ∧
      (discardedValues discards = 0 ↔ extra.length % 16 = 0) ∧ sock.port.rxBufs = port.rxBufs ∧
      sock.port.txBufs = port.txBufs := by
  rcases Sock.create_cases created with ⟨extra, synced, pool, chain, done, pool_new, rfl⟩
  rcases Ctx.new_spec extra index site with
    ⟨pool', discards, pool_eq, sane, capacity, contents, held, lossless⟩
  obtain rfl : pool' = pool := Option.some.inj (pool_eq.symm.trans pool_new)
  have keeps := Port.sync_keeps keepsBufs done
  refine ⟨extra, _, discards, chain, ⟨sane, ?_, ?_, ?_⟩, capacity, contents, held, lossless,
    ?_, ?_⟩
  · intro pointer present
    exact Port.rawRxRingAt_eq_some present
  · intro value value_mem
    have chained : value ∈ (↑(extra.map UInt32.toNat) : Multiset ℕ) := by
      rw [← held]
      exact Multiset.mem_add.mpr (Or.inl value_mem)
    simp only [Multiset.mem_coe, List.mem_map] at chained
    rcases chained with ⟨buf, -, rfl⟩
    exact buf.toNat_lt
  · intro place place_mem
    simp at place_mem
  · exact keeps.rxBufs
  · exact keeps.txBufs

/-- In every state that a socket reaches, no buffer has two owners, and the receive slots whose
buffer was replaced since the last `NIOCRXSYNC` carry `NS_BUF_CHANGED`. -/
theorem exclusive_ownership {port taken : Port} {extra : List UInt32} {ioctl : Ioctl}
    {index : UInt32} {site : Site} {sock final : Sock} {actions : List Action}
    (chain : port.extraBuffersIndexes = some (extra, taken))
    (distinct : (port.txBufs + port.rxBufs + ↑(extra.map UInt32.toNat)).Nodup)
    (keepsBufs : ioctl.KeepsBufs) (created : Sock.create port ioctl index site = some sock)
    (kernel : RunMeets Sock.step KernelKeeps sock actions)
    (performed : run Sock.step sock actions = some final) :
    final.owners.Nodup ∧ final.Flagged := by
  rcases create_spec keepsBufs created with
    ⟨extra', taken', discards, chain', intact, -, -, held, -, rxBufs, txBufs⟩
  rw [chain, Option.some.injEq, Prod.mk.injEq] at chain'
  rcases chain' with ⟨rfl, rfl⟩
  have initial : sock.owners.Nodup := by
    apply Multiset.nodup_of_le _ distinct
    simp only [Sock.owners, Sock.circulating, rxBufs, txBufs, ← held, ← add_assoc]
    exact Multiset.le_add_right _ _
  have final_intact : final.Intact ∧ final.owners.Nodup := by
    apply run_invariant (fun sock => sock.Intact ∧ sock.owners.Nodup) _ ⟨intact, initial⟩ kernel
      performed
    rintro sock next action ⟨intact, nodup⟩ kernel stepped
    rcases step_intact intact kernel stepped with ⟨next_intact, circulating, txBufs⟩
    refine ⟨next_intact, Multiset.nodup_of_le ?_ nodup⟩
    simp only [Sock.owners, txBufs]
    exact add_le_add_right circulating _
  exact ⟨final_intact.2, final_intact.1.flagged⟩

/-- A port with one ring in each direction, of two slots each, one packet to receive, and a
chain of 16 extra buffers from 5 to 20. -/
def onePacketPort : Port where
  niTxRings := 1
  niHostTxRings := 0
  niRxRings := 1
  niHostRxRings := 0
  firstTxRing := 0
  lastTxRing := 0
  firstRxRing := 0
  lastRxRing := 0
  niBufsHead := 5
  nrBufSize := 2048
  rings := fun pointer =>
    if pointer = 0 then ⟨2, 0, 0, 1, [⟨1, 0, 0, 0⟩, ⟨2, 0, 0, 0⟩], rfl⟩
    else ⟨2, 0, 0, 1, [⟨3, 60, 0, 0⟩, ⟨4, 0, 0, 0⟩], rfl⟩
  bufs := fun buf => [if buf = 20 then 0 else .ofNat (buf + 1), 0, 0, 0]

/-- A receive, a release and a send, and a second receive that finds no packet. -/
def oneExchange : List Action :=
  [.recvToken (some id), .pool (.consume 0 0), .pool (.dropPayload 0 ⟨0, 0⟩),
    .send [1, 2, 3] (some id) (some id), .flush (some id), .recv (some id)]

theorem Ioctl.id_keepsBufs : Ioctl.KeepsBufs (some id) := by
  rintro kernel ⟨⟩
  exact fun _ _ => rfl

theorem Ioctl.id_leavesFrom (base : ℕ) : Ioctl.LeavesFrom (some id) base := by
  rintro kernel ⟨⟩
  exact fun _ _ _ => rfl

theorem oneExchange_kernelKeeps {action : Action} (sock : Sock)
    (action_mem : action ∈ oneExchange) :
    KernelKeeps sock action := by
  simp only [oneExchange, List.mem_cons, List.not_mem_nil, or_false] at action_mem
  rcases action_mem with rfl | rfl | rfl | rfl | rfl | rfl
  all_goals simp [KernelKeeps, Ioctl.id_keepsBufs, Ioctl.id_leavesFrom]

theorem exclusive_ownership_oneExchange :
    ∃ sock final, Sock.create onePacketPort (some id) 0 ⟨0, 0⟩ = some sock ∧
      run Sock.step sock oneExchange = some final ∧ final.owners.Nodup ∧ final.Flagged := by
  have created : (Sock.create onePacketPort (some id) 0 ⟨0, 0⟩).isSome = true := by
    decide +kernel
  have performed : ((Sock.create onePacketPort (some id) 0 ⟨0, 0⟩).bind fun sock =>
      run Sock.step sock oneExchange).isSome = true := by
    decide +kernel
  rcases Option.isSome_iff_exists.mp created with ⟨sock, created⟩
  rw [created, Option.bind_some] at performed
  rcases Option.isSome_iff_exists.mp performed with ⟨final, performed⟩
  have chain : (onePacketPort.extraBuffersIndexes.map Prod.fst) =
      some [5, 6, 7, 8, 9, 10, 11, 12, 13, 14, 15, 16, 17, 18, 19, 20] := by
    decide +kernel
  simp only [Option.map_eq_some_iff, Prod.exists, exists_and_right, exists_eq_right] at chain
  rcases chain with ⟨taken, chain⟩
  refine ⟨sock, final, created, performed, ?_⟩
  apply exclusive_ownership chain _ Ioctl.id_keepsBufs created _ performed
  · decide +kernel
  · apply runMeets_of_forall
    intro action action_mem sock
    exact oneExchange_kernelKeeps sock action_mem

end Nethuns.Netmap
