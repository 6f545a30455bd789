import Nethuns.Dpdk.Socket
import Nethuns.Dpdk.Stock

/-!
# Every mbuf has at most one owner

An mbuf is with the memory pool, with the NIC, among the received ones that are yet to be
returned, in a token or a payload, in the free channel, in stock or ready in the transmitter, or
in the hands of a send. No action of the socket, of its users or of the NIC makes a second owner
of an mbuf; the users can only lose some, when the free channel throws them away. The mbufs of
the transmitter never exceed one of its arrays, so that a restocking, which takes place when
`ready_bufs` is full, finds only null entries to overwrite.
-/

namespace Nethuns.Dpdk

open Nethuns.Lib Nethuns.Mpsc Nethuns.Api

/-- The entries that the bulk allocation inside `advance` overwrites are null. -/
def Transmitter.RestocksNull (tx : Transmitter) (device : Device) : Prop :=
  tx.readyBufs.isFull = true →
    ∀ entry ∈ (pad tx.bufs).elems.drop (tx.flush device.burst).2.readyBufs.len, entry = none

namespace Socket

/-- All the mbufs, once for each owner. -/
def owners (socket : Socket) : Multiset ℕ :=
  socket.mempool + socket.nic + ↑socket.rx.pending + socket.pool.held +
    ↑socket.out.tx.inStock + ↑socket.outstanding.toList + ↑socket.out.tx.readyBufs.elems

/-- The mbufs of the transmitter fit one of its arrays, and the pool is sane. -/
structure Sound (socket : Socket) : Prop where
  bounded : socket.out.tx.stock + socket.out.tx.readyBufs.elems.length +
    socket.outstanding.toList.length ≤ 32
  sane : socket.pool.Sane

/-- From a sound socket to a sound socket, without a new owner. -/
structure Keeps (socket next : Socket) : Prop where
  owners : next.owners ≤ socket.owners
  sound : next.Sound

variable {socket middle next : Socket}

theorem Keeps.trans (first : Keeps socket middle) (second : Keeps middle next) :
    Keeps socket next :=
  ⟨second.owners.trans first.owners, second.sound⟩

theorem Sound.idle (sound : socket.Sound) (idle : socket.outstanding = none) :
    socket.out.tx.Bounded := by
  have := sound.bounded
  simpa [idle, Transmitter.Bounded] using this

/-! ## The NIC -/

theorem nicStep_eq {action : NicAction} (stepped : socket.nicStep action = some next) :
    ∃ mempool nic, next = { socket with mempool := mempool, nic := nic } ∧
      mempool + nic = socket.mempool + socket.nic := by
  cases action with
  | provide mbuf =>
      simp only [nicStep] at stepped
      split at stepped
      · rename_i free
        simp only [Option.some.injEq] at stepped
        refine ⟨_, _, stepped.symm, ?_⟩
        rw [Multiset.add_cons, ← Multiset.cons_add, Multiset.cons_erase free]
      · simp at stepped
  | free mbuf =>
      simp only [nicStep] at stepped
      split at stepped
      · rename_i held
        simp only [Option.some.injEq] at stepped
        refine ⟨_, _, stepped.symm, ?_⟩
        rw [Multiset.cons_add, ← Multiset.add_cons, Multiset.cons_erase held]
      · simp at stepped

/-- What the NIC does stays between it and the memory pool. -/
theorem nicRun_eq {actions : List NicAction} (performed : run nicStep socket actions = some next) :
    ∃ mempool nic, next = { socket with mempool := mempool, nic := nic } ∧
      mempool + nic = socket.mempool + socket.nic := by
  apply @run_invariant_of_step _ _ nicStep (fun state => ∃ mempool nic,
    state = { socket with mempool := mempool, nic := nic } ∧
      mempool + nic = socket.mempool + socket.nic) _ socket next actions _ performed
  · rintro state later action ⟨mempool, nic, rfl, same⟩ stepped
    rcases nicStep_eq stepped with ⟨mempool', nic', rfl, same'⟩
    exact ⟨mempool', nic', rfl, same'.trans same⟩
  · exact ⟨socket.mempool, socket.nic, rfl, rfl⟩

theorem keeps_of_exchange {mempool nic : Multiset ℕ} (sound : socket.Sound)
    (same : mempool + nic = socket.mempool + socket.nic) :
    Keeps socket { socket with mempool := mempool, nic := nic } := by
  refine ⟨le_of_eq ?_, sound.bounded, sound.sane⟩
  simp only [owners, same]

/-! ## Receiving -/

/-- A burst moves mbufs from the NIC to the receiver, which returns the first one. -/
theorem rxNext_owners {delivered : List (ℕ × Mbuf)} {found : Option ℕ}
    (performed : socket.rxNext delivered = some (found, next)) :
    next.owners + ↑found.toList = socket.owners ∧ next.out.tx = socket.out.tx ∧
      next.pool = socket.pool ∧ next.outstanding = socket.outstanding := by
  simp only [rxNext] at performed
  generalize burst_eq : (if socket.rx.Exhausted then delivered else []) = burst at performed
  split at performed
  · rename_i possible
    cases advanced : socket.rx.advance (burst.map Prod.fst) with
    | error fault => simp [advanced] at performed
    | ok outcome =>
        rcases outcome with ⟨mbuf, rx⟩
        simp only [advanced, Option.some.injEq, Prod.mk.injEq] at performed
        rcases performed with ⟨rfl, rfl⟩
        refine ⟨?_, rfl, rfl, rfl⟩
        have moved : socket.rx.pending ++ burst.map Prod.fst = mbuf.toList ++ rx.pending := by
          have moved := Receiver.advance_pending advanced
          by_cases exhausted : socket.rx.Exhausted
          · rw [if_pos exhausted] at moved
            exact moved
          · rw [if_neg exhausted] at moved burst_eq
            rw [← burst_eq]
            exact moved
        have coe : (↑socket.rx.pending + ↑(burst.map Prod.fst) : Multiset ℕ) =
            ↑mbuf.toList + ↑rx.pending := by
          rw [Multiset.coe_add, Multiset.coe_add, moved]
        have taken := Multiset.sub_add_cancel possible.2
        generalize socket.nic - ↑(burst.map Prod.fst) = rest at taken
        simp only [owners, ← taken]
        calc _ = socket.mempool + rest + (↑mbuf.toList + ↑rx.pending) + socket.pool.held +
                ↑socket.out.tx.inStock + ↑socket.outstanding.toList +
                ↑socket.out.tx.readyBufs.elems := by abel
          _ = _ := by
            rw [← coe]
            abel
  · simp at performed

theorem recvInner_owners (socket : Socket) (mbuf : ℕ) :
    (socket.recvInner mbuf).owners = socket.owners + {mbuf} := by
  simp only [owners, recvInner, Pool.give_held]
  abel

theorem sound_of_same (sound : socket.Sound) (tx : next.out.tx = socket.out.tx)
    (pool : next.pool = socket.pool) (outstanding : next.outstanding = socket.outstanding) :
    next.Sound := by
  refine ⟨?_, pool ▸ sound.sane⟩
  rw [tx, outstanding]
  exact sound.bounded

theorem rxNext_recvInner {delivered : List (ℕ × Mbuf)} {mbuf : ℕ} (sound : socket.Sound)
    (performed : socket.rxNext delivered = some (some mbuf, middle)) :
    Keeps socket (middle.recvInner mbuf) := by
  rcases rxNext_owners performed with ⟨owners, tx, pool, outstanding⟩
  have kept := sound_of_same sound tx pool outstanding
  refine ⟨?_, kept.bounded, kept.sane.wellFormed, kept.sane.live⟩
  rw [recvInner_owners]
  exact owners.le

theorem rxNext_none {delivered : List (ℕ × Mbuf)} (sound : socket.Sound)
    (performed : socket.rxNext delivered = some (none, middle)) :
    Keeps socket middle ∧ middle.outstanding = socket.outstanding := by
  rcases rxNext_owners performed with ⟨owners, tx, pool, outstanding⟩
  refine ⟨⟨?_, sound_of_same sound tx pool outstanding⟩, outstanding⟩
  simpa using owners.le

theorem clear_contents (channel : Channel) :
    { channel with cached := .new }.contents + ↑channel.cached.elems = channel.contents := by
  simp only [Channel.contents, ArrayVec.new_elems, Multiset.coe_nil, zero_add]
  exact add_comm _ _ |>.trans (add_assoc _ _ _).symm

theorem flushToMemoryPool_keeps (sound : socket.Sound) :
    Keeps socket socket.flushToMemoryPool := by
  have synced := Channel.sync_wellFormed sound.sane.wellFormed
  refine ⟨le_of_eq ?_, sound.bounded, ⟨synced.ids_eq, synced.ids_nodup, synced.queue_le⟩,
    sound.sane.live⟩
  have contents : { socket.pool.channel.sync with cached := .new }.contents +
      ↑socket.pool.channel.sync.cached.elems = socket.pool.channel.contents :=
    (clear_contents _).trans (Channel.sync_contents _)
  simp only [owners, flushToMemoryPool, Pool.held, Pool.issued, ← contents]
  abel

theorem recvToken_keeps {device : RxDevice} {result : Except Error Unit} (sound : socket.Sound)
    (performed : socket.recvToken device = some (result, next)) : Keeps socket next := by
  simp only [recvToken, Option.bind_eq_some_iff] at performed
  rcases performed with ⟨⟨found, middle⟩, first, rest⟩
  cases found with
  | some mbuf =>
      simp only [Option.some.injEq, Prod.mk.injEq] at rest
      rw [← rest.2]
      exact rxNext_recvInner sound first
  | none =>
      simp only [Option.bind_eq_some_iff, Option.map_eq_some_iff] at rest
      rcases rest with ⟨restocked, performed, ⟨found, received⟩, second, outcome⟩
      have empty := (rxNext_none sound first).1
      have freed := empty.trans (flushToMemoryPool_keeps empty.sound)
      rcases nicRun_eq performed with ⟨mempool, nic, rfl, same⟩
      have moved := freed.trans (keeps_of_exchange freed.sound same)
      cases found with
      | some mbuf =>
          simp only [Prod.mk.injEq] at outcome
          rw [← outcome.2]
          exact moved.trans (rxNext_recvInner moved.sound second)
      | none =>
          simp only [Prod.mk.injEq] at outcome
          rw [← outcome.2]
          exact moved.trans (rxNext_none moved.sound second).1

/-! ## The users -/

theorem pool_keeps {action : PoolAction} {pool : Pool} {discards : List Discard}
    (sound : socket.Sound) (stepped : socket.pool.step action = some (pool, discards)) :
    Keeps socket { socket with pool := pool } := by
  have held := Pool.step_held sound.sane stepped
  refine ⟨?_, sound.bounded, Pool.step_sane sound.sane stepped⟩
  have fewer : pool.held ≤ socket.pool.held := by
    rw [← held]
    exact Multiset.le_add_right _ _
  simp only [owners]
  gcongr

theorem recv_keeps {device : RxDevice} {result : Except Error Unit} (sound : socket.Sound)
    (performed : socket.recv device = some (result, next)) : Keeps socket next := by
  simp only [recv, Option.bind_eq_some_iff] at performed
  rcases performed with ⟨⟨found, middle⟩, received, rest⟩
  have kept := recvToken_keeps sound received
  cases found with
  | error error =>
      simp only [Option.some.injEq, Prod.mk.injEq] at rest
      exact rest.2 ▸ kept
  | ok _ =>
      simp only [Option.map_eq_some_iff, Prod.mk.injEq] at rest
      rcases rest with ⟨pool, consumed, -, rfl⟩
      have stepped : middle.pool.step (.consume (middle.pool.tokens.length - 1) 0) =
          some (pool, []) := by
        simp [Pool.step, consumed]
      exact kept.trans (pool_keeps kept.sound stepped)

/-! ## Sending -/

theorem stock_split {stock others : List ℕ} {scan : Option ℕ} (last : scan = stock.getLast?)
    (rest : others = stock.dropLast) : (↑stock : Multiset ℕ) = ↑others + ↑scan.toList := by
  subst scan others
  rw [Multiset.coe_add]
  congr 1
  cases given : stock.getLast? with
  | none => simp [List.getLast?_eq_none_iff.mp given]
  | some mbuf => exact (List.dropLast_append_getLast? mbuf given).symm

theorem advance_room {tx after : Transmitter} {device : Device} {scan : Option ℕ}
    {sent fresh : List ℕ} (bounded : tx.Bounded)
    (advanced : tx.advance device = .ok (scan, after, sent, fresh)) :
    after.stock + after.readyBufs.elems.length + scan.toList.length ≤ 32 := by
  have unclogged : tx.Unclogged device := by
    by_contra clogged
    simp [Transmitter.advance_clogged bounded clogged] at advanced
  rcases Transmitter.advance_unclogged bounded unclogged with
    ⟨scan', after', sent', fresh', advanced', bounded', room⟩
  rw [advanced] at advanced'
  cases advanced'
  cases scan with
  | none => exact bounded'
  | some mbuf => exact room mbuf rfl

theorem sendNext_keeps {device : Device} {afterBurst : List NicAction} (sound : socket.Sound)
    (idle : socket.outstanding = none)
    (performed : socket.sendNext device afterBurst = some next) : Keeps socket next := by
  have bounded := sound.idle idle
  simp only [sendNext] at performed
  cases advanced : socket.out.tx.advance device with
  | error fault => simp [advanced] at performed
  | ok outcome =>
      rcases outcome with ⟨scan, tx, sent, fresh⟩
      simp only [advanced, Option.bind_eq_some_iff] at performed
      rcases performed with ⟨middle, moved, allocated⟩
      rcases nicRun_eq moved with ⟨mempool, nic, rfl, same⟩
      split at allocated
      · rename_i available
        simp only [Option.some.injEq] at allocated
        subst next
        have room := advance_room bounded advanced
        rcases Transmitter.advance_spec bounded advanced with
          ⟨-, scan_eq, stock_eq, left, ready⟩
        have stock := stock_split scan_eq stock_eq
        have dropped := tx.flush_ready device.dropBurst
        refine ⟨le_of_eq ?_, ?_, sound.sane⟩
        · -- The allocated mbufs are added on both sides, so that only sums are compared.
          have taken := Multiset.sub_add_cancel available
          simp only at taken same
          rw [← Multiset.coe_add] at stock
          have waiting : (↑socket.out.tx.readyBufs.elems : Multiset ℕ) = ↑sent +
              (↑(tx.flush device.dropBurst).1 +
                ↑(tx.flush device.dropBurst).2.readyBufs.elems) := by
            rw [ready, ← left, dropped, ← Multiset.coe_add, ← Multiset.coe_add]
          have kept : (tx.flush device.dropBurst).2.inStock = tx.inStock := rfl
          apply add_right_cancel (b := (↑fresh : Multiset ℕ))
          simp only [owners, idle, Option.toList_none, Multiset.coe_nil, add_zero, kept, waiting]
          generalize mempool - ↑fresh = rest at taken ⊢
          calc _ = (rest + ↑fresh + nic) + ↑socket.rx.pending + socket.pool.held +
                  (↑tx.inStock + ↑scan.toList) + (↑(tx.flush device.dropBurst).1 +
                    ↑(tx.flush device.dropBurst).2.readyBufs.elems) := by abel
            _ = _ := by
              rw [taken, same, ← stock]
              abel
        · have shorter := tx.flush_ready_length device.dropBurst
          have same_stock := tx.flush_stock device.dropBurst
          simp only [shorter, same_stock]
          omega
      · simp at allocated

theorem sendFinish_keeps {packet : List UInt8} {result : Except Error Unit}
    (sound : socket.Sound) (performed : socket.sendFinish packet = some (result, next)) :
    Keeps socket next := by
  have bounded := sound.bounded
  simp only [sendFinish, Option.bind_eq_some_iff] at performed
  rcases performed with ⟨mbuf, held, performed⟩
  simp only [held, Option.toList_some, List.length_singleton] at bounded
  rcases @Transmitter.pushReady_eq socket.out.tx mbuf (by omega) with ⟨tx, pushed, bufs, ready⟩
  simp only [pushed] at performed
  split at performed
  · simp at performed
  · simp only [Option.some.injEq, Prod.mk.injEq] at performed
    rcases performed with ⟨-, rfl⟩
    refine ⟨le_of_eq ?_, ?_, sound.sane⟩
    · simp only [owners, held, ready, Transmitter.inStock, bufs, Option.toList_some,
        Option.toList_none, Multiset.coe_nil, ← Multiset.coe_add]
      abel
    · simp only [Transmitter.stock, bufs, ready, List.length_append, List.length_singleton,
        Option.toList_none, List.length_nil] at bounded ⊢
      omega

theorem flush_keeps (sound : socket.Sound) (accepted : ℕ) :
    Keeps socket (socket.flush accepted) := by
  have ready := socket.out.tx.flush_ready accepted
  have bounded := sound.bounded
  refine ⟨le_of_eq ?_, ?_, sound.sane⟩
  · simp only [owners, flush]
    rw [ready, ← Multiset.coe_add]
    simp only [Transmitter.inStock, Transmitter.flush]
    abel
  · have shorter := socket.out.tx.flush_ready_length accepted
    have same_stock := socket.out.tx.flush_stock accepted
    simp only [flush, shorter, same_stock]
    omega

/-! ## Runs -/

theorem step_keeps {action : SocketAction} (sound : socket.Sound)
    (stepped : socket.step action = some next) : Keeps socket next := by
  cases action with
  | nic action =>
      rcases nicStep_eq stepped with ⟨mempool, nic, rfl, same⟩
      exact keeps_of_exchange sound same
  | pool action =>
      simp only [step, Option.map_eq_some_iff] at stepped
      rcases stepped with ⟨⟨pool, discards⟩, performed, rfl⟩
      exact pool_keeps sound performed
  | sendFinish packet =>
      simp only [step, Option.map_eq_some_iff] at stepped
      rcases stepped with ⟨⟨result, final⟩, performed, rfl⟩
      exact sendFinish_keeps sound performed
  | call call =>
      simp only [step] at stepped
      split at stepped
      · rename_i idle
        have idle : socket.outstanding = none := Option.isNone_iff_eq_none.mp idle
        cases call with
        | recvToken device =>
            simp only [perform, Option.map_eq_some_iff] at stepped
            rcases stepped with ⟨⟨result, final⟩, performed, rfl⟩
            exact recvToken_keeps sound performed
        | recv device =>
            simp only [perform, Option.map_eq_some_iff] at stepped
            rcases stepped with ⟨⟨result, final⟩, performed, rfl⟩
            exact recv_keeps sound performed
        | sendNext device afterBurst => exact sendNext_keeps sound idle stepped
        | flush accepted =>
            simp only [perform, Option.some.injEq] at stepped
            exact stepped ▸ flush_keeps sound accepted
        | flushToMemoryPool =>
            simp only [perform, Option.some.injEq] at stepped
            exact stepped ▸ flushToMemoryPool_keeps sound
      · simp at stepped

variable {mempool nic : Multiset ℕ} {mbufs : ℕ → Mbuf} {fresh : ℕ → ℕ} {allocs : List ℕ}
  {numMbufs : ℕ} {index : UInt32} {site : Site}

theorem create_owners
    (created : create mempool nic mbufs fresh allocs numMbufs index site = some socket) :
    socket.owners ≤ mempool + nic ∧ socket.Sound := by
  simp only [create] at created
  split at created
  · rename_i available
    simp only [Option.map_eq_some_iff] at created
    rcases created with ⟨⟨channel, discards⟩, pushed, rfl⟩
    have fresh_batch : (Mpsc.channel numMbufs).batch? 0 = some .new := rfl
    rcases Channel.pushAll_spec (Channel.channel_wellFormed numMbufs) fresh_batch pushed with
      ⟨wellFormed, -, contents, -, filled, live, -⟩
    rw [Channel.channel_contents, zero_add] at contents
    have stock := Sock.create_inStock fresh mbufs
    refine ⟨?_, ?_, ⟨wellFormed, filled, live⟩⟩
    · have fewer : channel.contents ≤ ↑allocs := by
        rw [← contents]
        exact Multiset.le_add_right _ _
      have taken := Multiset.sub_add_cancel available
      have nothing : Receiver.new.pending = [] := rfl
      simp only [owners, Pool.held, Pool.issued, stock, nothing]
      generalize mempool - (↑((List.range 32).map fresh) + ↑allocs) = rest at taken ⊢
      rw [← taken]
      calc _ = rest + nic + channel.contents + ↑((List.range 32).map fresh) := by
            simp [Sock.create, Transmitter.new]
        _ ≤ rest + nic + ↑allocs + ↑((List.range 32).map fresh) := by gcongr
        _ = _ := by abel
    · have bounded := create_bounded fresh mbufs
      simpa [Transmitter.Bounded] using bounded
  · simp at created

/-- After every run of a new socket every mbuf has at most one owner, and a restocking of the
transmitter would overwrite null entries only. -/
theorem mbufs_exclusive {actions : List SocketAction} {final : Socket}
    (distinct : (mempool + nic).Nodup)
    (created : create mempool nic mbufs fresh allocs numMbufs index site = some socket)
    (performed : run step socket actions = some final) :
    final.owners.Nodup ∧ ∀ device, final.out.tx.RestocksNull device := by
  rcases create_owners created with ⟨owners, sound⟩
  have kept : Keeps socket final := by
    apply run_invariant_of_step (Keeps socket) _ ⟨le_rfl, sound⟩ performed
    intro state next action kept stepped
    exact kept.trans (step_keeps kept.sound stepped)
  refine ⟨Multiset.nodup_of_le (kept.owners.trans owners) distinct, ?_⟩
  intro device full entry entry_mem
  have bounded : final.out.tx.Bounded := by
    have := kept.sound.bounded
    simp only [Transmitter.Bounded]
    omega
  exact Transmitter.pad_all_null (bounded.all_null full) entry (List.mem_of_mem_drop entry_mem)

/-- A packet is received, its buffer released, and a packet sent while the NIC takes a free
mbuf. -/
def receiveAndSend : List SocketAction :=
  [.call (.recvToken ⟨[(40, ⟨2048, 0, 3, 3, [7, 8, 9]⟩)], [], []⟩),
    .pool (.consume 0 0), .pool (.dropPayload 0 ⟨0, 0⟩), .call (.sendNext ⟨0, none, 0⟩ []),
    .nic (.provide 34), .sendFinish [1, 2, 3], .call (.flush 1), .call .flushToMemoryPool]

/-- A socket of 36 free mbufs, of which the free channel has two, and two with the NIC. -/
def smallSocket : Option Socket :=
  create ↑(List.range 36) {40, 41} (fun _ => ⟨2048, 0, 0, 0, []⟩) id [32, 33] 64 0 ⟨0, 0⟩

theorem mbufs_exclusive_receiveAndSend :
    ∃ socket final, smallSocket = some socket ∧ run step socket receiveAndSend = some final ∧
      final.nic = {31, 34, 41} ∧ final.owners.Nodup ∧
      ∀ device, final.out.tx.RestocksNull device := by
  have distinct : ((↑(List.range 36) : Multiset ℕ) + {40, 41}).Nodup := by decide
  have performed : (smallSocket.bind fun socket => run step socket receiveAndSend).map nic =
      some {31, 34, 41} := by decide
  simp only [Option.map_eq_some_iff, Option.bind_eq_some_iff] at performed
  rcases performed with ⟨final, ⟨socket, created, performed⟩, nic⟩
  exact ⟨socket, final, created, performed, nic, mbufs_exclusive distinct created performed⟩

end Socket

end Nethuns.Dpdk
