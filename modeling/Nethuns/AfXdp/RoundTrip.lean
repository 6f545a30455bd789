import Nethuns.AfXdp.Accounting

/-!
# The round trip of the frames of an AF_XDP socket

A send moves a frame from the free channel to the transmit ring; a later flush takes it from the
completion ring and returns it. Here the packets are sent in bursts: in multiples of 16, which is
the batch of the free channel, so that no flush throws a frame away, and at most 64 at a time, as
many as `complete_tx` takes at once. When the kernel has sent a burst by the time of the flush after
it, all its frames are free again and the socket is ready for the next one. So bursts can follow
each other without end, on a socket that has a frame for each packet of a burst.
-/

namespace Nethuns.AfXdp

open Nethuns.Lib Nethuns.Mpsc Nethuns.Api

/-- A call during which the kernel does nothing. -/
def Interleaving.idle : Interleaving := ⟨[], [], []⟩

/-- Refills, and sends that obtain a slot, find free frames, and only empty or full batches are
flushed. -/
def Orderly (sock : Sock) (action : Action) : Prop :=
  RefillsServed sock action ∧ SendsServed sock action ∧ FlushesWhole sock action

/-- Nothing is being sent, nothing waits to be taken from the completion ring, and the one handle
of the free channel has an empty batch. -/
structure Resting (flags : AfXdpFlags) (site : Site) (sock : Sock) : Prop where
  intact : sock.Intact flags True
  sent : sock.tx.descs = []
  kernelTx : sock.kernelTx = []
  completed : sock.cq.used = 0
  unread : sock.cq.cachedProd = sock.cq.cachedCons
  txRoom : 128 ≤ sock.tx.tx.size.toNat
  cqRoom : 64 ≤ sock.cq.size.toNat
  only : sock.pool.channel.producers = [some .new]
  usable : sock.pool.channel.Usable site
  room : (sock.frames flags).card + 64 ≤ 16 * sock.pool.channel.singleSpscLen

/-- The state after `count` sends from a resting socket. -/
structure Sending (flags : AfXdpFlags) (start sock : Sock) (count : ℕ) : Prop where
  intact : sock.Intact flags True
  others : ∃ channel tx mem,
    sock = { start with pool := { start.pool with channel := channel }, tx := tx, mem := mem }
  sent : sock.tx.descs.length = count
  size : sock.tx.tx.size = start.tx.tx.size
  drawn : start.pool.channel.Drawn sock.pool.channel
  free : sock.pool.channel.available + count = start.pool.channel.available
  frames : sock.frames flags = start.frames flags
  capacity : sock.pool.channel.singleSpscLen = start.pool.channel.singleSpscLen

variable {flags : AfXdpFlags} {site : Site} {start sock : Sock} {count : ℕ}

/-! ## Sending a burst -/

theorem Sock.kernelRun_nil (sock : Sock) : sock.kernelRun [] = some sock := rfl

theorem Sock.obtainSlot_of_nextSlot {next : Sock} {cell : ℕ} {kernel : Interleaving}
    (asked : sock.nextSlot kernel.reserve = some (some cell, next)) :
    sock.obtainSlot site kernel = some (some cell, next) := by
  simp [Sock.obtainSlot, asked]

/-- As long as a batch of slots is free, a slot is found, in the cache or after a reservation. -/
theorem Sock.nextSlot_room (intact : sock.Intact flags True)
    (room : sock.tx.descs.length + 64 ≤ sock.tx.tx.size.toNat) :
    ∃ ring tx cell, sock.nextSlot [] = some (some cell, { sock with tx := tx }) ∧
      Sock.Moves flags True sock { sock with tx := ring } 0 ∧ tx.HandsOut ring cell ∧
      ring.descs = sock.tx.descs ∧ tx.tx.size = sock.tx.tx.size := by
  cases popped : sock.tx.popFront with
  | some first =>
      rcases first with ⟨cell, tx⟩
      refine ⟨sock.tx, tx, cell, ?_, Sock.Moves.refl intact, intact.tx.popFront popped, rfl, ?_⟩
      · simp only [Sock.nextSlot, popped]
      · rcases TxRing.popFront_cases popped with ⟨rest, -, rfl⟩
        rfl
  | none =>
      rcases intact.tx.sync with ⟨sound, flushed, cached, descs, -, -, -⟩
      have empty := cached.trans (TxRing.popFront_eq_none.mp popped)
      rcases sound.reserve_room flushed empty
          (by rw [intact.tx.sync_used, TxRing.sync_size]; exact room) with
        ⟨cell, tx, reserved, size⟩
      refine ⟨sock.tx.sync, tx, cell, ?_, Sock.sync_moves intact,
        sound.reserve flushed empty reserved, descs, size.trans sock.tx.sync_size⟩
      simp [Sock.nextSlot, popped, Sock.kernelRun, reserved]

theorem Resting.sending (resting : Resting flags site sock) : Sending flags sock sock 0 where
  intact := resting.intact
  others := ⟨_, _, _, rfl⟩
  sent := by rw [resting.sent, List.length_nil]
  size := rfl
  drawn := Channel.Drawn.refl _
  free := rfl
  frames := rfl
  capacity := rfl

/-- One more send: it finds a slot and a frame. -/
theorem Sending.send (sending : Sending flags start sock count) (fits : flags.Fits)
    (packet : List UInt8) (site : Site) (room : count + 64 ≤ start.tx.tx.size.toNat)
    (enough : count < start.pool.channel.available) :
    ∃ next, sock.step (.send packet site .idle) = some next ∧
      Orderly sock (.send packet site .idle) ∧ Sending flags start next (count + 1) := by
  have some_free : 0 < sock.pool.channel.available := by
    have := sending.free
    omega
  rcases Sock.nextSlot_room sending.intact (by rw [sending.sent, sending.size]; exact room) with
    ⟨ring, tx, cell, asked, moves, handsOut, descs, size⟩
  have obtained : sock.obtainSlot site .idle = some (some cell, { sock with tx := tx }) :=
    Sock.obtainSlot_of_nextSlot asked
  rcases Channel.pop_isSome some_free with ⟨addr, popped⟩
  rcases Sock.written_spec moves.intact fits handsOut popped with
    ⟨succeeded, intact, addresses, capacity⟩
  refine ⟨Sock.written { sock with tx := ring } tx cell addr packet, ?_, ⟨trivial, ?_, ?_⟩, ?_⟩
  · simp only [Sock.step, Sock.send, obtained, Option.map_some]
    exact congrArg (fun outcome => some outcome.2) succeeded
  · intro other middle obtained'
    rw [obtained, Option.some.injEq, Prod.mk.injEq] at obtained'
    rw [← obtained'.2]
    exact some_free.ne'
  · intro middle unserved
    have asked' : sock.nextSlot Interleaving.idle.reserve = _ := asked
    simp [asked'] at unserved
  · rcases sending.others with ⟨channel, early, mem, others⟩
    have left := Channel.available_pop popped
    refine ⟨intact, ?_, ?_, size.trans sending.size,
      sending.drawn.trans (Channel.pop_drawn _), ?_, ?_, capacity.trans sending.capacity⟩
    · rw [others]
      exact ⟨_, _, _, rfl⟩
    · have grown := (handsOut.write (Sock.writtenDesc tx cell addr packet)).2.1
      simp only [Sock.written, grown, descs, List.length_append, List.length_singleton,
        sending.sent]
    · have := sending.free
      simp only [Sock.written, Pool.popped] at left ⊢
      omega
    · rw [← sending.frames, ← moves.balance, add_zero, Sock.frames, addresses]
      rfl

theorem Sending.sends {packets : List (List UInt8)} (sending : Sending flags start sock count)
    (fits : flags.Fits) (site : Site)
    (room : count + packets.length + 64 ≤ start.tx.tx.size.toNat)
    (enough : count + packets.length ≤ start.pool.channel.available) :
    ∃ next, Passes Sock.step Orderly sock
        (packets.map fun packet => .send packet site .idle) next ∧
      Sending flags start next (count + packets.length) := by
  induction packets generalizing sock count with
  | nil => exact ⟨sock, .nil sock, sending⟩
  | cons packet packets ih =>
      simp only [List.length_cons] at room enough
      rcases sending.send fits packet site (by omega) (by omega) with
        ⟨middle, stepped, orderly, sending'⟩
      rcases ih sending' (by omega) (by omega) with ⟨next, passes, sending''⟩
      refine ⟨next, .cons orderly stepped passes, ?_⟩
      rwa [List.length_cons, Nat.add_comm packets.length, ← Nat.add_assoc]

/-! ## The kernel sends a burst -/

/-- The kernel takes descriptors and completes each at once. -/
def transmissions : ℕ → List KernelAction
  | 0 => []
  | count + 1 => .takeTx :: .complete 0 :: transmissions count

theorem transmissions_returns {confined : Prop} (count : ℕ) :
    KernelReturns flags confined (transmissions count) := by
  induction count with
  | zero => exact .nil
  | succ count ih =>
      simp only [transmissions, KernelReturns, List.forall_mem_cons]
      exact ⟨trivial, trivial, ih⟩

/-- The transmit ring and the completion ring after the kernel has sent everything. -/
structure Transmitted (sock : Sock) (tx : TxRing) (cq : XskRing UInt64) : Prop where
  used : tx.tx.used = 0
  toFlush : tx.toFlush = sock.tx.toFlush
  size : tx.tx.size = sock.tx.tx.size
  published : cq.used = sock.cq.used + sock.tx.tx.used
  cachedProd : cq.cachedProd = sock.cq.cachedProd
  cachedCons : cq.cachedCons = sock.cq.cachedCons
  cqSize : cq.size = sock.cq.size

theorem Sock.kernelRun_transmissions (tx : sock.tx.Sound) (cq : sock.cq.Consuming)
    (queued : sock.tx.tx.used = count)
    (room : sock.cq.used + count ≤ sock.cq.size.toNat) (idle : sock.kernelTx = []) :
    ∃ tx cq, sock.kernelRun (transmissions count) =
        some { sock with tx := tx, cq := cq, kernelTx := [] } ∧ Transmitted sock tx cq := by
  induction count generalizing sock with
  | zero =>
      refine ⟨sock.tx, sock.cq, ?_, queued, rfl, rfl, ?_, rfl, rfl, rfl⟩
      · rw [← idle]
        rfl
      · rw [queued, Nat.add_zero]
  | succ count ih =>
      have taken : sock.tx.kernelTake = some (sock.tx.tx.entry sock.tx.tx.consumer,
          { sock.tx with tx := { sock.tx.tx with consumer := sock.tx.tx.consumer + 1 } }) := by
        have some_queued : sock.tx.tx.used ≠ 0 := by omega
        simp only [TxRing.kernelTake, XskRing.kernelTake, if_neg some_queued, Option.map_some]
      rcases tx.kernelTake taken with ⟨sound, -, -, -, fewer, -, -, -⟩
      rcases cq.wellFormed.publish_room (sock.tx.tx.entry sock.tx.tx.consumer).addr (by omega) with
        ⟨ring, published, more, cachedProd, cachedCons, size⟩
      simp only at fewer
      rcases @ih { sock with
          tx := { sock.tx with tx := { sock.tx.tx with consumer := sock.tx.tx.consumer + 1 } }
          cq := ring
          kernelTx := [] } sound (cq.publish published).1
          (Nat.add_right_cancel (fewer.trans queued)) (by simp only [size]; omega) rfl with
        ⟨last, final, ran, transmitted⟩
      have later := transmitted.published
      simp only [more] at later
      refine ⟨last, final, ?_, transmitted.used, transmitted.toFlush, transmitted.size,
        by omega, transmitted.cachedProd.trans cachedProd,
        transmitted.cachedCons.trans cachedCons, transmitted.cqSize.trans size⟩
      rw [← ran]
      simp only [Sock.kernelRun, transmissions, run, Sock.kernelStep, taken, Option.map_some,
        Option.bind_some, idle, List.nil_append, List.getElem?_cons_zero, published,
        List.eraseIdx_cons_zero]

/-! ## Completing a burst -/

/-- `complete_tx` takes all the completions and returns their frames to the free channel, when they
fill up its batches. -/
theorem Sock.completeTx_all (intact : sock.Intact flags True)
    (only : sock.pool.channel.producers = [some .new]) (usable : sock.pool.channel.Usable site)
    (unread : sock.cq.cachedProd = sock.cq.cachedCons) (some_completed : sock.cq.used ≠ 0)
    (few : sock.cq.used ≤ 64) (whole : sock.cq.used % 16 = 0)
    (room : sock.pool.held.card + sock.cq.used ≤ 16 * sock.pool.channel.singleSpscLen) :
    ∃ channel cq, sock.completeTx site =
        some { sock with pool := { sock.pool with channel := channel }, cq := cq } ∧
      channel.producers = [some .new] ∧ channel.Usable site ∧
      channel.available = sock.pool.channel.available + sock.cq.used ∧ cq.used = 0 ∧
      cq.cachedProd = cq.cachedCons ∧ cq.size = sock.cq.size := by
  have live := Channel.batch?_of_only only
  rcases sock.cq.consPeek_spec 64 0 with ⟨entries, count, peeked⟩
  replace count : entries.toNat = sock.cq.available 64 := count
  have all := count.trans (intact.cq.available_unread unread few)
  have nonzero : entries ≠ 0 := by
    rintro rfl
    exact some_completed all.symm
  rcases Sock.peek_addrs intact.cq count with ⟨addrs, read, length, -, -⟩
  rcases Channel.pushAll_isSome (addrs.map UInt64.toNat) live usable with
    ⟨filled, discards, pushed, usable'⟩
  rcases Channel.pushAll_spec intact.sane.wellFormed live pushed with
    ⟨-, -, -, -, batch, held, -⟩
  rcases Option.isSome_iff_exists.mp (Channel.flush_isSome held usable') with
    ⟨⟨flushed, more⟩, done⟩
  have only' : flushed.producers = [some .new] := by
    apply Channel.flush_only _ done
    rw [Channel.pushAll_length pushed, only]
    rfl
  rcases Channel.pushAll_flush_spec intact.sane.wellFormed live pushed done with
    ⟨-, -, -, contents, lossless⟩
  have card : sock.pool.channel.contents.card ≤ sock.pool.held.card := by
    simp [Pool.held]
  have none_lost : discards ++ more = [] := by
    apply lossless
    · rw [List.length_map, length, all]
      omega
    · rw [List.length_map, length, all]
      simpa [ArrayVec.new] using whole
  have grown := congrArg Multiset.card contents
  simp only [none_lost, discardedValues_nil, add_zero, Multiset.card_add, Channel.card_contents,
    Channel.batchedValues_of_only only, Channel.batchedValues_of_only only', List.length_nil,
    Multiset.coe_card, List.length_map, length, all] at grown
  rcases intact.cq.take_unread unread all with ⟨emptied, read_up⟩
  refine ⟨flushed, (sock.cq.peeked entries).consRelease entries, ?_, only',
    Channel.flush_usable usable' done, grown, emptied, read_up, rfl⟩
  simp only [Sock.completeTx, peeked, if_neg nonzero, read, pushed, done, Option.bind_some,
    Option.map_some]

/-! ## Bursts -/

/-- All the frames that were sent are free again; reception and the users are not affected. -/
structure Returned (start next : Sock) : Prop where
  free : next.pool.channel.available = start.pool.channel.available
  fq : next.fq = start.fq
  rx : next.rx = start.rx
  tokens : next.pool.tokens = start.pool.tokens
  payloads : next.pool.payloads = start.pool.payloads

theorem Returned.refl (sock : Sock) : Returned sock sock := ⟨rfl, rfl, rfl, rfl, rfl⟩

theorem Returned.trans {middle next : Sock} (first : Returned start middle)
    (second : Returned middle next) : Returned start next :=
  ⟨second.free.trans first.free, second.fq.trans first.fq, second.rx.trans first.rx,
    second.tokens.trans first.tokens, second.payloads.trans first.payloads⟩

/-- A flush during which the kernel sends the whole burst. -/
def flushAll (site : Site) (count : ℕ) : Action := .flush site ⟨[], transmissions count, []⟩

/-- When the kernel has sent the burst, the completions wait to be taken. -/
theorem Sending.transmit (sending : Sending flags start sock count)
    (resting : Resting flags site start) (few : count ≤ 64) :
    ∃ tx cq, Sock.kernelRun { sock with tx := sock.tx.sync } (transmissions count) =
        some { sock with tx := tx, cq := cq, kernelTx := [] } ∧
      Sock.Moves flags True sock { sock with tx := tx, cq := cq, kernelTx := [] } 0 ∧
      tx.descs = [] ∧ tx.tx.size = start.tx.tx.size ∧ cq.used = count ∧
      cq.cachedProd = cq.cachedCons ∧ cq.size = start.cq.size := by
  rcases sending.others with ⟨channel, early, mem, others⟩
  have cq_eq : sock.cq = start.cq := by rw [others]
  have idle : sock.kernelTx = [] := by
    rw [others]
    exact resting.kernelTx
  rcases sending.intact.tx.sync with ⟨sound, flushed, -⟩
  have queued : sock.tx.sync.tx.used = count := sending.intact.tx.sync_used.trans sending.sent
  have cqRoom : sock.cq.used + count ≤ sock.cq.size.toNat := by
    have := resting.cqRoom
    rw [cq_eq, resting.completed]
    omega
  have synced := Sock.sync_moves sending.intact
  rcases @Sock.kernelRun_transmissions { sock with tx := sock.tx.sync } count sound
      sending.intact.cq queued cqRoom idle with ⟨tx, cq, ran, transmitted⟩
  have moves := synced.trans (Sock.kernelRun_moves synced.intact (transmissions_returns count) ran)
  have published := transmitted.published
  simp only [queued, cq_eq, resting.completed, Nat.zero_add] at published
  refine ⟨tx, cq, ran, moves, ?_, ?_, published, ?_, ?_⟩
  · rw [← List.length_eq_zero_iff, TxRing.length_descs, transmitted.used, transmitted.toFlush]
    simp [flushed]
  · exact (transmitted.size.trans sock.tx.sync_size).trans sending.size
  · rw [transmitted.cachedProd, transmitted.cachedCons]
    simp only [cq_eq, resting.unread]
  · rw [transmitted.cqSize]
    simp only [cq_eq]

theorem Sock.Moves.room {next : Sock} {lost : Multiset ℕ} {spare : ℕ}
    (moves : Sock.Moves flags True sock next lost)
    (room : (sock.frames flags).card + spare ≤ 16 * sock.pool.channel.singleSpscLen) :
    (next.frames flags).card + spare ≤ 16 * next.pool.channel.singleSpscLen := by
  have balance := congrArg Multiset.card moves.balance
  rw [Multiset.card_add] at balance
  rw [moves.capacity]
  omega

theorem Sending.flush (sending : Sending flags start sock count)
    (resting : Resting flags site start) (nonempty : count ≠ 0) (few : count ≤ 64)
    (whole : count % 16 = 0) :
    ∃ next, sock.step (flushAll site count) = some next ∧ Orderly sock (flushAll site count) ∧
      Resting flags site next ∧ Returned start next := by
  rcases sending.transmit resting few with
    ⟨tx, cq, ran, first, descs, size, completed, unread, cqSize⟩
  have only := sending.drawn.producers.trans resting.only
  have room : sock.pool.held.card + count ≤ 16 * sock.pool.channel.singleSpscLen := by
    have bound := resting.room
    rw [← sending.frames, ← sending.capacity] at bound
    simp only [Sock.frames, Sock.addresses, Multiset.card_map, Multiset.card_add] at bound
    omega
  subst count
  rcases Sock.completeTx_all first.intact only (sending.drawn.usable resting.usable) unread nonempty
      few whole room with
    ⟨channel, cq', taken, only', usable, free, emptied, unread', cqSize'⟩
  rcases Sock.completeTx_moves first.intact taken with ⟨lost, second, -⟩
  refine ⟨{ sock with
      pool := { sock.pool with channel := channel }
      tx := tx
      cq := cq'
      kernelTx := [] }, ?_, ⟨trivial, trivial, ?_⟩, ?_, ?_⟩
  · simp only [flushAll, Sock.step, Sock.flush, ran, Option.bind_some, taken, Sock.kernelRun_nil]
  · intro middle performed
    rw [ran, Option.some.injEq] at performed
    subst middle
    have found := first.intact.cq.available_unread unread few
    refine ⟨by simp only [found]; exact room, ?_⟩
    intro batch held
    rw [Channel.batch?_of_only only, Option.some.injEq] at held
    subst batch
    right
    simpa [found, ArrayVec.new] using whole
  · refine ⟨second.intact, descs, rfl, emptied, unread', ?_, ?_, only', usable, ?_⟩
    · rw [size]
      exact resting.txRoom
    · rw [cqSize'.trans cqSize]
      exact resting.cqRoom
    · apply (first.trans second).room
      rw [sending.frames, sending.capacity]
      exact resting.room
  · rcases sending.others with ⟨channel', early, mem, others⟩
    refine ⟨free.trans sending.free, ?_, ?_, ?_, ?_⟩
    all_goals rw [others]

/-- The sends of a burst and the flush after it. -/
def burst (site : Site) (packets : List (List UInt8)) : List Action :=
  packets.map (fun packet => .send packet site .idle) ++ [flushAll site packets.length]

/-- After a burst that the kernel has sent, the socket is as ready as it was before. -/
theorem Resting.burst_returns (resting : Resting flags site sock) (fits : flags.Fits)
    {packets : List (List UInt8)} (nonempty : packets ≠ []) (few : packets.length ≤ 64)
    (whole : packets.length % 16 = 0)
    (enough : packets.length ≤ sock.pool.channel.available) :
    ∃ next, Passes Sock.step Orderly sock (burst site packets) next ∧ Resting flags site next ∧
      Returned sock next := by
  have slots : 0 + packets.length + 64 ≤ sock.tx.tx.size.toNat := by
    have := resting.txRoom
    omega
  have free : 0 + packets.length ≤ sock.pool.channel.available := by
    rw [Nat.zero_add]
    exact enough
  rcases resting.sending.sends fits site slots free with ⟨middle, sent, sending⟩
  rw [Nat.zero_add] at sending
  have some_sent : packets.length ≠ 0 := by simpa using nonempty
  rcases sending.flush resting some_sent few whole with
    ⟨next, stepped, orderly, resting', returned⟩
  exact ⟨next, sent.append (.cons orderly stepped (.nil next)), resting', returned⟩

/-- Bursts can follow each other without end. -/
theorem Resting.bursts_return (resting : Resting flags site sock) (fits : flags.Fits)
    {bursts : List (List (List UInt8))}
    (sized : ∀ packets ∈ bursts, packets ≠ [] ∧ packets.length ≤ 64 ∧ packets.length % 16 = 0 ∧
      packets.length ≤ sock.pool.channel.available) :
    ∃ next, Passes Sock.step Orderly sock (bursts.flatMap (burst site)) next ∧
      Resting flags site next ∧ Returned sock next := by
  induction bursts generalizing sock with
  | nil => exact ⟨sock, .nil sock, resting, .refl sock⟩
  | cons packets bursts ih =>
      rw [List.forall_mem_cons] at sized
      rcases sized with ⟨⟨nonempty, few, whole, enough⟩, later⟩
      rcases resting.burst_returns fits nonempty few whole enough with
        ⟨middle, passes, resting', returned⟩
      rcases ih resting' (by rw [returned.free]; exact later) with
        ⟨next, passes', resting'', returned'⟩
      exact ⟨next, passes.append passes', resting'', returned.trans returned'⟩

/-! ## New sockets -/

/-- A new socket whose transmit ring has room for two batches of slots is ready for bursts. -/
theorem Sock.Fresh.resting {index : UInt32} (fresh : sock.Fresh flags)
    (created : Sock.create flags index site = some sock)
    (large : 128 ≤ flags.numFrames.toNat) : Resting flags site sock := by
  rcases Sock.create_unreceived created with ⟨-, -, -, -, only, usable, -⟩
  refine ⟨fresh.intact, ?_, fresh.kernelTx, ?_, ?_, ?_, ?_, only, usable, ?_⟩
  · rw [fresh.tx, ← List.length_eq_zero_iff, TxRing.length_descs]
    simp [newRing, XskRing.used]
  · rw [fresh.cq]
    rfl
  · rw [fresh.cq]
    rfl
  · rw [fresh.tx]
    exact large
  · rw [fresh.cq]
    decide
  · rcases fresh.frames with ⟨lost, frames, -⟩
    have card := congrArg Multiset.card frames
    rw [Multiset.card_add, Multiset.coe_card, List.length_range] at card
    rw [fresh.capacity]
    omega

/-! ## A refill, and a cloned context -/

/-- A call that finds nothing to receive refills the fill ring all the same. -/
theorem Sock.recvToken_refills (intact : sock.Intact flags True) (fits : flags.Fits)
    (silent : sock.rx.waiting = []) (filled : sock.fq.used ≠ 0)
    (enough : sock.fq.size.toNat ≤ sock.pool.channel.available) :
    ∃ next, sock.step (.recvToken [.takeFill] []) = some next ∧
      Orderly sock (.recvToken [.takeFill] []) ∧ Sock.Moves flags True sock next 0 ∧
      sock.pool.channel.Drawn next.pool.channel ∧ next.pool.payloads = sock.pool.payloads := by
  rcases RxRing.advance_silent intact.rx silent with ⟨rx, advanced, -, silent'⟩
  have taken : sock.fq.kernelTake = some (sock.fq.entry sock.fq.consumer,
      { sock.fq with consumer := sock.fq.consumer + 1 }) := if_neg filled
  have ran : Sock.kernelRun { sock with rx := rx } [.takeFill] =
      some { sock with
        rx := rx
        fq := { sock.fq with consumer := sock.fq.consumer + 1 }
        kernelRx := sock.kernelRx ++ [sock.fq.entry sock.fq.consumer] } := by
    simp only [Sock.kernelRun, run, Sock.kernelStep, taken, Option.map_some, Option.bind_some]
  have returns : KernelReturns flags True [.takeFill] ∧ KernelReturns flags True [] :=
    ⟨by simp [KernelReturns, KernelAction.Returns], .nil⟩
  have moves := Sock.advance_none_moves intact advanced
  have moves' := Sock.kernelRun_moves moves.intact returns.1 ran
  have served : sock.RecvServed [.takeFill] := by
    intro rx' middle advanced' ran'
    rw [advanced, Option.some.injEq, Prod.mk.injEq] at advanced'
    rcases advanced' with ⟨-, rfl⟩
    rw [ran, Option.some.injEq] at ran'
    subst middle
    exact (Sock.refillCount_le moves'.intact.fq).trans enough
  rcases Sock.refillFillRing_spec moves'.intact fits (served _ _ advanced ran) with
    ⟨pool, fq, refilled, moves'', -, -⟩
  rcases Sock.refillFillRing_users { sock with
      rx := rx
      fq := { sock.fq with consumer := sock.fq.consumer + 1 }
      kernelRx := sock.kernelRx ++ [sock.fq.entry sock.fq.consumer] } with
    ⟨channel, fq', drawn, -, users⟩
  rw [refilled] at users
  have pool_eq : pool = { sock.pool with channel := channel } := congrArg Sock.pool users
  rcases RxRing.advance_silent moves''.intact.rx silent' with ⟨rx', advanced', -, -⟩
  simp only at advanced'
  have received : sock.recvToken [.takeFill] [] = some (.error (.generic "No packets"), { sock with
      pool := pool
      rx := rx'
      fq := fq
      kernelRx := sock.kernelRx ++ [sock.fq.entry sock.fq.consumer] }) := by
    simp only [Sock.recvToken, advanced, Option.bind_some, ran, refilled, Sock.kernelRun_nil,
      advanced', Option.map_some]
  have all_moves := Sock.recvToken_moves intact fits returns served received
  refine ⟨_, ?_, ⟨served, trivial, trivial⟩, all_moves, ?_, ?_⟩
  · simp only [Sock.step, received, Option.map_some]
  · rw [pool_eq]
    exact drawn
  · rw [pool_eq]

/-- A context that is dropped right after it was cloned throws nothing away. -/
theorem Sock.clone_drop (intact : sock.Intact flags True) (site : Site)
    (unborrowed : sock.pool.payloads = [])
    (room : sock.pool.held.card ≤ 16 * sock.pool.channel.singleSpscLen) :
    ∃ next, Passes Sock.step Orderly sock
      [.pool (.cloneCtx 0), .pool (.dropCtx sock.pool.channel.producers.length site)] next := by
  rcases intact.sane.live with ⟨batch, live⟩
  rcases Channel.clone_drop live site with ⟨channel, cloned, fresh, dropped⟩
  have stepped : sock.pool.step (.cloneCtx 0) =
      some ({ sock.pool with channel := channel }, []) := by
    simp only [Pool.step, Pool.cloneCtx, cloned, Option.map_some]
  have other : sock.pool.channel.producers.length ≠ 0 := by
    have := Channel.batch?_lt live
    omega
  have first : sock.step (.pool (.cloneCtx 0)) =
      some { sock with pool := { sock.pool with channel := channel } } := by
    simp only [Sock.step, stepped, Option.map_some]
  have second : Sock.step { sock with pool := { sock.pool with channel := channel } }
      (.pool (.dropCtx sock.pool.channel.producers.length site)) =
      some { sock with pool := { sock.pool with channel :=
        { sock.pool.channel with producers := sock.pool.channel.producers ++ [none] } } } := by
    simp [Sock.step, Pool.step, Pool.dropCtx, other, unborrowed, dropped]
  refine ⟨_, .cons ⟨trivial, trivial, room, trivial⟩ first
    (.cons ⟨trivial, trivial, ?_, ?_⟩ second (.nil _))⟩
  · have held := Pool.step_held intact.sane stepped
    rw [discardedValues_nil, add_zero] at held
    rw [held, (Pool.step_parameters intact.sane stepped).2]
    exact room
  · intro own owned
    rw [fresh, Option.some.injEq] at owned
    rw [← owned]
    rfl

/-- Bursts, a call that refills the fill ring, and a context that is cloned and dropped. -/
def rounds (site : Site) (bursts : List (List (List UInt8))) : List Action :=
  bursts.flatMap (burst site) ++
    [.recvToken [.takeFill] [], .pool (.cloneCtx 0), .pool (.dropCtx 1 site)]

theorem Sock.Fresh.rounds {index : UInt32} (fresh : sock.Fresh flags)
    (created : Sock.create flags index site = some sock) (fits : flags.Fits)
    (multiple : flags.numFrames.toNat % 16 = 0)
    (free : sock.pool.channel.available + 2048 = flags.numFrames.toNat)
    (enough : 2048 ≤ sock.pool.channel.available) {bursts : List (List (List UInt8))}
    (sized : ∀ packets ∈ bursts,
      packets ≠ [] ∧ packets.length ≤ 64 ∧ packets.length % 16 = 0) :
    ∃ next, Passes Sock.step Orderly sock (AfXdp.rounds site bursts) next := by
  rcases Sock.create_unreceived created with ⟨rx, -, -, payloads, only, -, size⟩
  have used := fresh.fq_used created (by omega) multiple
  have resting := fresh.resting created (by omega)
  rcases resting.bursts_return fits (fun packets member => by
      rcases sized packets member with ⟨nonempty, few, whole⟩
      exact ⟨nonempty, few, whole, by omega⟩) with ⟨middle, sent, resting', returned⟩
  have silent : middle.rx.waiting = [] := by
    rw [returned.rx, rx]
    simp [RxRing.waiting, XskRing.pending, newRing, ArrayVec.new]
  rcases Sock.recvToken_refills resting'.intact fits silent (by rwa [returned.fq])
      (by rw [returned.fq, size, returned.free]; exact enough) with
    ⟨received, stepped, orderly, moves, drawn, kept⟩
  have room := moves.room resting'.room
  simp only [Sock.frames, Sock.addresses, Multiset.card_map, Multiset.card_add] at room
  rcases Sock.clone_drop moves.intact site (kept.trans (returned.payloads.trans payloads))
      (by omega) with ⟨next, dropped⟩
  have handles : received.pool.channel.producers.length = 1 := by
    rw [drawn.producers, resting'.only]
    rfl
  rw [handles] at dropped
  exact ⟨next, sent.append (.cons orderly stepped dropped)⟩

end Nethuns.AfXdp
