import Nethuns.AfXdp.Reception

/-!
# Sending through an AF_XDP socket

A flush loses frames when the completed ones do not fill up the batch of the socket's producer. A
send that obtains a slot of the transmit ring and then finds no free frame leaves the slot
counted, with the descriptor that it had before: a frame that was sent earlier appears once more.
-/

namespace Nethuns.AfXdp.Sock

open Nethuns.Lib Nethuns.Mpsc Nethuns.Api

variable {flags : AfXdpFlags} {confined : Prop} {sock prior next : Sock} {site : Site}

/-! ## Completions and flushes -/

/-- The completions that the next `complete_tx` takes fill up the batch of the socket's producer,
if there are any, and the free channel has room for them. -/
def CompletesWhole (sock : Sock) : Prop :=
  sock.pool.held.card + sock.cq.available 64 ≤ 16 * sock.pool.channel.singleSpscLen ∧
    ∀ batch, sock.pool.channel.batch? 0 = some batch →
      sock.cq.available 64 = 0 ∨ (batch.elems.length + sock.cq.available 64) % 16 = 0

theorem peek_addrs {completed : UInt32} (consuming : sock.cq.Consuming)
    (count : completed.toNat = sock.cq.available 64) :
    ∃ addrs, ((sock.cq.peeked completed).cellsFrom sock.cq.cachedCons completed.toNat).map
        (sock.cq.peeked completed).ring = addrs ∧ addrs.length = completed.toNat ∧
      ((sock.cq.peeked completed).consRelease completed).Consuming ∧
      sock.cq.pending = addrs ++ ((sock.cq.peeked completed).consRelease completed).pending := by
  have within : completed.toNat ≤ (sock.cq.known - sock.cq.cachedCons).toNat := by
    rw [count]
    exact Nat.min_le_right _ _
  rcases consuming.take within with ⟨consuming', pending⟩
  have wellFormed : (sock.cq.peeked completed).WellFormed :=
    ⟨consuming.wellFormed.size, consuming.wellFormed.mask, consuming.wellFormed.bounded⟩
  refine ⟨_, rfl, by simp, consuming', ?_⟩
  rw [wellFormed.map_cellsFrom]
  exact pending

/-- Completed frames go back to the free channel, except for those that its flush throws away. -/
theorem completeTx_moves (intact : sock.Intact flags confined)
    (completed : sock.completeTx site = some next) :
    ∃ lost, Moves flags confined sock next lost ∧ (sock.CompletesWhole → lost = 0) := by
  rcases sock.cq.consPeek_spec 64 0 with ⟨entries, count, peeked⟩
  replace count : entries.toNat = sock.cq.available 64 := count
  rcases peek_addrs intact.cq count with ⟨addrs, read, length, consuming, pending⟩
  simp only [completeTx, peeked] at completed
  by_cases nothing : entries = 0
  · subst entries
    simp only [if_true, Option.some.injEq] at completed
    subst next
    have same : (sock.cq.peeked 0).consRelease 0 = sock.cq.peeked 0 := by
      simp [XskRing.consRelease]
    rw [same] at consuming pending
    have none_taken : addrs = [] := List.eq_nil_of_length_eq_zero length
    refine ⟨0, ?_, fun _ => rfl⟩
    refine Moves.of_same_addresses intact { intact.toWorking with cq := consuming } rfl rfl
      (fun _ _ _ delivers => delivers) ?_
    simp [addresses, ringAddresses, pending, none_taken]
  · simp only [if_neg nothing, read, Option.bind_eq_some_iff, Option.map_eq_some_iff] at completed
    rcases completed with ⟨⟨filled, discards⟩, pushed, ⟨flushed, more⟩, done, rfl⟩
    rcases intact.sane.live with ⟨batch, live⟩
    rcases Channel.pushAll_flush_spec intact.sane.wellFormed live pushed done with
      ⟨wellFormed, capacity, live', contents, lossless⟩
    refine ⟨(discardedValues (discards ++ more)).map flags.frame, ?_, ?_⟩
    · refine Moves.of_addresses intact ?_ capacity rfl (fun _ _ _ delivers => delivers) ?_
      · exact { intact.toWorking with
          sane := ⟨wellFormed, .new, live'⟩
          cq := consuming
          tokens_inside := intact.tokens_inside }
      · have held : ({ sock.pool with channel := flushed } : Pool).held +
            discardedValues (discards ++ more) =
            sock.pool.held + ↑(addrs.map UInt64.toNat) := by
          simp only [Pool.held, Pool.issued, add_assoc, contents]
        have rings : sock.ringAddresses = ↑(addrs.map UInt64.toNat) +
            ringAddresses { sock with
              pool := { sock.pool with channel := flushed }
              cq := (sock.cq.peeked entries).consRelease entries } := by
          simp only [ringAddresses, pending, List.map_append, ← Multiset.coe_add]
          abel
        rw [addresses, addresses, rings, add_right_comm, held, add_assoc]
    · rintro ⟨room, whole⟩
      have taken := whole batch live
      have some_taken : sock.cq.available 64 ≠ 0 := by
        rw [← count]
        exact fun zero => nothing (UInt32.toNat_inj.mp zero)
      have card : sock.pool.channel.contents.card ≤ sock.pool.held.card := by
        simp [Pool.held]
      have none_lost := lossless (by rw [List.length_map, length]; omega)
        (by rw [List.length_map, length]; omega)
      simp [none_lost]

theorem sync_moves (intact : sock.Intact flags confined) :
    Moves flags confined sock { sock with tx := sock.tx.sync } 0 := by
  rcases intact.tx.sync with ⟨sound, -, -, descs, issued, -, number⟩
  refine Moves.of_same_addresses intact ?_ rfl issued ?_ ?_
  · refine { intact.toWorking with tx := sound, cells_lt := ?_ }
    simpa only [TxRing.sync_ring] using intact.cells_lt
  · intro _ _ sent delivers
    refine delivers.of_subset ?_ issued rfl
    intro entry entry_live
    simpa only [live, descs, number] using entry_live
  · simp only [addresses, ringAddresses, descs]

/-- The completions that a flush finds fill up the batch. -/
def FlushWhole (sock : Sock) (kernel : Interleaving) : Prop :=
  ∀ middle, kernelRun { sock with tx := sock.tx.sync } kernel.completion = some middle →
    middle.CompletesWhole

theorem flush_moves {kernel : Interleaving} (intact : sock.Intact flags confined)
    (returns : kernel.Returns flags confined)
    (flushed : sock.flush site kernel = some next) :
    ∃ lost, Moves flags confined sock next lost ∧ (sock.FlushWhole kernel → lost = 0) := by
  simp only [flush, Option.bind_eq_some_iff] at flushed
  rcases flushed with ⟨middle, ran, later, completed, woken⟩
  have synced := sync_moves intact
  have first := synced.trans (kernelRun_moves synced.intact returns.completion ran)
  rcases completeTx_moves first.intact completed with ⟨lost, second, whole⟩
  refine ⟨lost, ?_, fun condition => whole (condition middle ran)⟩
  simpa using (first.trans second).trans (kernelRun_moves second.intact returns.wakeup woken)

/-! ## Slots of the transmit ring -/

/-- The kernel does not touch what user space keeps of the transmit ring. -/
theorem kernelStep_tx {action : KernelAction} (intact : sock.Intact flags confined)
    (stepped : sock.kernelStep action = some next) :
    next.tx.toFlush = sock.tx.toFlush ∧ next.tx.cached = sock.tx.cached := by
  cases action with
  | takeFill =>
      simp only [kernelStep, Option.map_eq_some_iff] at stepped
      rcases stepped with ⟨_, -, rfl⟩
      exact ⟨rfl, rfl⟩
  | receive addr desc packet =>
      rcases receive_eq_some.mp stepped with ⟨-, -, _, -, rfl⟩
      exact ⟨rfl, rfl⟩
  | takeTx =>
      simp only [kernelStep, Option.map_eq_some_iff] at stepped
      rcases stepped with ⟨⟨desc, tx⟩, taken, rfl⟩
      rcases intact.tx.kernelTake taken with ⟨-, -, -, -, -, -, toFlush, cached⟩
      exact ⟨toFlush, cached⟩
  | complete position =>
      simp only [kernelStep, Option.bind_eq_some_iff, Option.map_eq_some_iff] at stepped
      rcases stepped with ⟨_, -, _, -, rfl⟩
      exact ⟨rfl, rfl⟩

theorem kernelRun_tx {actions : List KernelAction} (intact : sock.Intact flags confined)
    (returns : KernelReturns flags confined actions)
    (performed : sock.kernelRun actions = some next) :
    next.tx.toFlush = sock.tx.toFlush ∧ next.tx.cached = sock.tx.cached := by
  induction actions generalizing sock with
  | nil =>
      simp only [kernelRun, run_nil, Option.some.injEq] at performed
      exact performed ▸ ⟨rfl, rfl⟩
  | cons action actions ih =>
      rcases run_cons_eq_some.mp performed with ⟨middle, stepped, rest⟩
      simp only [KernelReturns, List.forall_mem_cons] at returns
      rcases kernelStep_tx intact stepped with ⟨toFlush, cached⟩
      rcases ih (kernelStep_moves intact returns.1 stepped).intact returns.2 rest with
        ⟨toFlush', cached'⟩
      exact ⟨toFlush'.trans toFlush, cached'.trans cached⟩

/-- Without a slot a request only moves frames; a slot is handed out at the end. -/
theorem nextSlot_spec {kernel : List KernelAction} {found : Option ℕ}
    (intact : sock.Intact flags confined) (returns : KernelReturns flags confined kernel)
    (asked : sock.nextSlot kernel = some (found, next)) :
    match found with
    | none => Moves flags confined sock next 0
    | some cell => ∃ prior tx, Moves flags confined sock prior 0 ∧ tx.HandsOut prior.tx cell ∧
        next = { prior with tx := tx } := by
  simp only [nextSlot] at asked
  cases popped : sock.tx.popFront with
  | some first =>
      rcases first with ⟨cell, tx⟩
      simp only [popped, Option.some.injEq, Prod.mk.injEq] at asked
      rcases asked with ⟨rfl, rfl⟩
      exact ⟨sock, tx, Moves.refl intact, intact.tx.popFront popped, rfl⟩
  | none =>
      have empty := TxRing.popFront_eq_none.mp popped
      simp only [popped, Option.bind_eq_some_iff, Option.map_eq_some_iff, Prod.mk.injEq] at asked
      rcases asked with ⟨middle, ran, ⟨found', tx⟩, reserved, rfl, rfl⟩
      rcases intact.tx.sync with ⟨-, flushed, cached, -⟩
      have synced := sync_moves intact
      have moves := synced.trans (kernelRun_moves synced.intact returns ran)
      rw [add_zero] at moves
      rcases kernelRun_tx synced.intact returns ran with ⟨toFlush, cached'⟩
      have outcome := moves.intact.tx.reserve (toFlush.trans flushed)
        (cached'.trans (cached.trans empty)) reserved
      cases found' with
      | some cell => exact ⟨middle, tx, moves, outcome, rfl⟩
      | none =>
          rcases outcome with ⟨sound, cachedCons, rfl⟩
          have last : Moves flags confined middle
              { middle with
                tx := { middle.tx with tx := { middle.tx.tx with cachedCons := cachedCons } } } 0 :=
            Moves.of_same_addresses moves.intact { moves.intact.toWorking with tx := sound } rfl rfl
              (fun _ _ _ delivers => delivers) rfl
          simpa using moves.trans last

/-- The completions that the flush inside a send finds fill up the batch. -/
def SendWhole (sock : Sock) (kernel : Interleaving) : Prop :=
  ∀ middle, sock.nextSlot kernel.reserve = some (none, middle) →
    middle.FlushWhole kernel

theorem obtainSlot_spec {kernel : Interleaving} {found : Option ℕ}
    (intact : sock.Intact flags confined) (returns : kernel.Returns flags confined)
    (obtained : sock.obtainSlot site kernel = some (found, next)) :
    ∃ lost, (sock.SendWhole kernel → lost = 0) ∧
      match found with
      | none => Moves flags confined sock next lost
      | some cell => ∃ prior tx, Moves flags confined sock prior lost ∧ tx.HandsOut prior.tx cell ∧
          next = { prior with tx := tx } := by
  simp only [obtainSlot, Option.bind_eq_some_iff] at obtained
  rcases obtained with ⟨⟨first, middle⟩, asked, obtained⟩
  have spec := nextSlot_spec intact returns.reserve asked
  cases first with
  | some cell =>
      simp only [Option.some.injEq, Prod.mk.injEq] at obtained
      rcases obtained with ⟨rfl, rfl⟩
      exact ⟨0, fun _ => rfl, spec⟩
  | none =>
      simp only [Option.bind_eq_some_iff] at obtained
      rcases obtained with ⟨later, flushed, askedAgain⟩
      rcases flush_moves spec.intact returns flushed with ⟨lost, moves, whole⟩
      refine ⟨lost, fun condition => whole (condition middle asked), ?_⟩
      have first := spec.trans moves
      rw [zero_add] at first
      have again := nextSlot_spec moves.intact .nil askedAgain
      cases found with
      | none => simpa using first.trans again
      | some cell =>
          rcases again with ⟨prior, tx, second, handsOut, same⟩
          exact ⟨prior, tx, by simpa using first.trans second, handsOut, same⟩

/-! ## Sends -/

/-- What a send does: it obtains no slot, or it goes on with the slot that is handed out. -/
theorem send_cases {kernel : Interleaving} {packet : List UInt8} {result : Except Error Unit}
    (intact : sock.Intact flags confined) (returns : kernel.Returns flags confined)
    (sent : sock.send packet site kernel = some (result, next)) :
    ∃ prior lost, Moves flags confined sock prior lost ∧ (sock.SendWhole kernel → lost = 0) ∧
      ((sock.obtainSlot site kernel = some (none, prior) ∧ result = .error .noMemory ∧
          next = prior) ∨
        ∃ cell tx, tx.HandsOut prior.tx cell ∧
          sock.obtainSlot site kernel = some (some cell, { prior with tx := tx }) ∧
          { prior with tx := tx }.sendInner cell packet = (result, next)) := by
  simp only [send, Option.map_eq_some_iff] at sent
  rcases sent with ⟨⟨found, middle⟩, obtained, sent⟩
  rcases obtainSlot_spec intact returns obtained with ⟨lost, whole, spec⟩
  cases found with
  | none =>
      simp only [Prod.mk.injEq] at sent
      rcases sent with ⟨rfl, rfl⟩
      exact ⟨middle, lost, spec, whole, Or.inl ⟨obtained, rfl, rfl⟩⟩
  | some cell =>
      rcases spec with ⟨prior, tx, moves, handsOut, rfl⟩
      exact ⟨prior, lost, moves, whole, Or.inr ⟨cell, tx, handsOut, obtained, sent⟩⟩

/-- Without a free frame the slot stays counted, and the frame of its old descriptor appears once
more. -/
theorem sendInner_of_empty {tx : TxRing} {cell : ℕ} (packet : List UInt8)
    (intact : prior.Intact flags confined) (handsOut : tx.HandsOut prior.tx cell)
    (empty : prior.pool.channel.available = 0) :
    ∃ pool, { prior with tx := tx }.sendInner cell packet =
        (.error (.generic "No free frames for TX"), { prior with tx := tx, pool := pool }) ∧
      { prior with tx := tx, pool := pool }.Intact flags confined ∧
      { prior with tx := tx, pool := pool }.frames flags =
        prior.frames flags + {flags.frame (prior.tx.tx.ring cell).offset} ∧
      pool.channel.singleSpscLen = prior.pool.channel.singleSpscLen := by
  have failed := (Channel.pop_eq_none_iff _).mpr empty
  have held := Pool.popped_held_none failed
  rcases handsOut.stale with ⟨descs, -⟩
  rw [handsOut.ring_eq] at descs
  have balance : { prior with tx := tx, pool := prior.pool.popped }.addresses =
      prior.addresses + {(prior.tx.tx.ring cell).offset} := by
    simp only [addresses, ringAddresses, held, descs, List.map_append, List.map_cons, List.map_nil,
      ← Multiset.coe_add, Multiset.coe_singleton]
    abel
  refine ⟨prior.pool.popped, ?_, ⟨?_, ?_⟩, ?_, Channel.pop_singleSpscLen _⟩
  · simp only [sendInner, allocFrame, failed, Option.map_none]
  · exact { intact.toWorking with
      sane := Pool.popped_sane intact.sane
      tx := handsOut.sound
      cells_lt := handsOut.ring_eq ▸ intact.cells_lt
      tokens_inside := intact.tokens_inside }
  · rw [balance]
    intro addr addr_mem
    rcases Multiset.mem_add.mp addr_mem with before | repeated
    · exact intact.addresses_lt addr before
    · rw [Multiset.mem_singleton.mp repeated]
      exact intact.cells_lt cell
  · simp only [frames, balance, Multiset.map_add, Multiset.map_singleton]

def writtenDesc (tx : TxRing) (cell addr : ℕ) (packet : List UInt8) : XdpDesc :=
  { tx.tx.ring cell with
    addr := (UInt32.ofNat addr).toUInt64
    len := .ofNat packet.length }

/-- The socket after a send that wrote a packet to the frame at `addr`. -/
def written (prior : Sock) (tx : TxRing) (cell addr : ℕ) (packet : List UInt8) : Sock :=
  { prior with
    pool := prior.pool.popped
    tx := tx.write cell (writtenDesc tx cell addr packet)
    mem := writeBytes prior.mem addr packet }

section Written

variable {tx : TxRing} {cell addr : ℕ} {packet : List UInt8}

theorem popped_lt (intact : prior.Intact flags confined)
    (popped : prior.pool.channel.pop.1 = some addr) :
    addr ∈ prior.pool.held ∧ addr < flags.umemLen := by
  have held := Pool.popped_held_some popped
  have present : addr ∈ prior.pool.held := by simp [← held]
  exact ⟨present, intact.addresses_lt _ (Multiset.mem_add.mpr (Or.inl present))⟩

theorem writtenDesc_offset (tx : TxRing) (cell : ℕ) (packet : List UInt8) (fits : flags.Fits)
    (within : addr < flags.umemLen) : (writtenDesc tx cell addr packet).offset = addr :=
  toUInt64_ofNat_toNat (within.trans fits)

/-- With a free frame the send succeeds and moves the frame to the transmit ring. -/
theorem written_spec (intact : prior.Intact flags confined) (fits : flags.Fits)
    (handsOut : tx.HandsOut prior.tx cell) (popped : prior.pool.channel.pop.1 = some addr) :
    { prior with tx := tx }.sendInner cell packet =
        (.ok (), prior.written tx cell addr packet) ∧
      (prior.written tx cell addr packet).Intact flags confined ∧
      (prior.written tx cell addr packet).addresses = prior.addresses ∧
      (prior.written tx cell addr packet).pool.channel.singleSpscLen =
        prior.pool.channel.singleSpscLen := by
  rcases popped_lt intact popped with ⟨-, within⟩
  have offset_eq := writtenDesc_offset tx cell packet fits within
  have addr_eq : (UInt32.ofNat addr).toNat = addr := by
    rw [UInt32.toNat_ofNat']
    exact Nat.mod_eq_of_lt (within.trans fits)
  rcases handsOut.write (writtenDesc tx cell addr packet) with ⟨sound, descs, -⟩
  have balance : (prior.written tx cell addr packet).addresses = prior.addresses := by
    have held := Pool.popped_held_some popped
    simp only [written, addresses, ringAddresses, ← held, descs, List.map_append, List.map_cons,
      List.map_nil, ← Multiset.coe_add, Multiset.coe_singleton, offset_eq]
    abel
  refine ⟨?_, ⟨?_, ?_⟩, balance, Channel.pop_singleSpscLen _⟩
  · simp only [sendInner, allocFrame, popped, Option.map_some, written, writtenDesc, addr_eq]
  · refine { intact.toWorking with
      sane := Pool.popped_sane intact.sane
      tx := sound
      cells_lt := ?_
      tokens_inside := intact.tokens_inside }
    intro other
    by_cases here : other = cell
    · subst other
      simpa [written, TxRing.write, XskRing.store, offset_eq] using within
    · simpa [written, TxRing.write, XskRing.store, here, handsOut.ring_eq] using
        intact.cells_lt other
  · rw [balance]
    exact intact.addresses_lt

theorem written_live (sound : prior.tx.Sound) (handsOut : tx.HandsOut prior.tx cell) :
    (prior.written tx cell addr packet).live =
      prior.live ++ [(writtenDesc tx cell addr packet, prior.tx.issued.length)] := by
  rcases handsOut.write (writtenDesc tx cell addr packet) with ⟨-, descs, -⟩
  have number : (tx.write cell (writtenDesc tx cell addr packet)).exposed.length -
      (tx.write cell (writtenDesc tx cell addr packet)).tx.used =
      prior.tx.exposed.length - prior.tx.tx.used := by
    rw [← handsOut.exposed_eq, ← handsOut.used_eq]
    rfl
  simp only [live, written, descs, number, List.zipIdx_append, sound.number_add, List.zipIdx_cons,
    List.zipIdx_nil, List.append_assoc]

/-- The packet joins those that wait for the kernel, when it fits the rest of its frame. -/
theorem written_delivers {sent : List (List UInt8)} (intact : prior.Intact flags confined)
    (fits : flags.Fits) (handsOut : tx.HandsOut prior.tx cell)
    (popped : prior.pool.channel.pop.1 = some addr) (inside : flags.Inside addr packet.length)
    (nodup : (prior.frames flags).Nodup) (length : sent.length = prior.tx.issued.length)
    (delivers : prior.Delivers flags sent) :
    (prior.written tx cell addr packet).Delivers flags (sent ++ [packet]) := by
  rcases popped_lt intact popped with ⟨held, within⟩
  have issued : (prior.written tx cell addr packet).tx.issued =
      prior.tx.issued ++ [writtenDesc tx cell addr packet] :=
    (handsOut.write (writtenDesc tx cell addr packet)).2.2
  intro entry entry_live
  rw [written_live intact.tx handsOut, List.mem_append, List.mem_singleton] at entry_live
  rw [issued]
  rcases entry_live with earlier | rfl
  · rcases delivers entry earlier with ⟨numbered, waiting, sent_eq, waiting_inside, read⟩
    refine ⟨?_, waiting, ?_, waiting_inside, ?_⟩
    · rw [List.getElem?_append_left (List.getElem?_eq_some_iff.mp numbered).1, numbered]
    · rw [List.getElem?_append_left (List.getElem?_eq_some_iff.mp sent_eq).1, sent_eq]
    · have apart := frame_ne_of_live nodup (Multiset.mem_add.mpr (Or.inl held)) earlier
      have disjoint := inside.disjoint waiting_inside apart
      simp only [written]
      rw [readBytes_writeBytes_of_disjoint (by omega), read]
  · refine ⟨by simp, packet, by simp [← length], ?_, ?_⟩
    · rw [writtenDesc_offset tx cell packet fits within]
      exact inside
    · rw [writtenDesc_offset tx cell packet fits within]
      exact readBytes_writeBytes_self

end Written

end Nethuns.AfXdp.Sock
