import Nethuns.Netmap.Ownership
import Nethuns.Netmap.Rings

/-!
# The slot that a netmap send takes

`Sock::send` takes the first free slot of the first transmit ring that has one, after a
synchronization if it is the first send, and after another if no ring had one. This file says so
on the state before the call, and with it shows when a send that fails with `TooBigPacket` leaves
the rings as they were: never. The slot is taken before the length of the packet is compared, and
nothing puts it back.

The kernel is assumed to write the tail and the slots of a transmit ring, not its `head` and
`cur`, and `NIOCRXSYNC` not to write the transmit rings at all.
-/

namespace Nethuns.Netmap

open Nethuns.Lib Nethuns.Mpsc Nethuns.Api

/-- The kernel leaves the user's cursors of a ring where they are, and its own in range. -/
structure NetmapRing.KeptBy (ring after : NetmapRing) : Prop where
  numSlots_eq : after.numSlots = ring.numSlots
  head_eq : after.head = ring.head
  cur_eq : after.cur = ring.cur
  tail_lt : after.tail < after.numSlots

/-- What `NIOCTXSYNC` does to the transmit rings of the NIC. -/
def Ioctl.KeepsTx (ioctl : Ioctl) (count : ℕ) : Prop :=
  ∀ kernel, ioctl = some kernel → ∀ (rings : ℕ → NetmapRing), ∀ index < count,
    (rings index).Valid → (rings index).KeptBy (kernel rings index)

/-- `NIOCRXSYNC` does not touch the transmit rings. -/
def Ioctl.LeavesTx (ioctl : Ioctl) (count : ℕ) : Prop :=
  ∀ kernel, ioctl = some kernel → ∀ rings, ∀ index < count, kernel rings index = rings index

namespace Port

/-- The cursors of the transmit rings of the NIC are in range. -/
def TxValid (port : Port) : Prop := ∀ index < port.niTxRings, (port.rings index).Valid

instance (port : Port) : Decidable port.TxValid :=
  inferInstanceAs (Decidable (∀ index < port.niTxRings, (port.rings index).Valid))

/-- The ports differ in their rings only. -/
def SameShape (before after : Port) : Prop := ∃ rings, after = { before with rings := rings }

/-- The port after some of the calls to the kernel, in order. -/
def SyncedBy (ioctls : List Ioctl) (before after : Port) : Prop :=
  ∃ performed : List Ioctl, performed.Sublist ioctls ∧ performed.foldlM sync before = some after

end Port

namespace Transmitter

/-- The port as the first scan of a send finds it. -/
def readied (tx : Transmitter) (port : Port) (ioctl : Ioctl) : Option Port :=
  if tx.synced then some port else port.sync ioctl

/-- A scan takes the first free slot of this ring. -/
def Takes (tx : Transmitter) (port : Port) (index : ℕ) : Prop :=
  NetmapRing.FirstReady port.rings port.niTxRings tx.ringIdx tx.lastTxRing index

/-- A send takes the first free slot of this ring, with the port as it is then. -/
def Obtains (tx : Transmitter) (port : Port) (first second : Ioctl) (index : ℕ)
    (ready : Port) : Prop :=
  ∃ readied, tx.readied port first = some readied ∧
    (readied = ready ∧ tx.Takes ready index ∨
      (∀ other, ¬tx.Takes readied other) ∧ readied.sync second = some ready ∧
        { tx with ringIdx := port.firstTxRing.toNat }.Takes ready index)

variable {tx : Transmitter} {port : Port}

theorem scan_of_ready (valid : port.TxValid) (present : tx.ringIdx < port.niTxRings)
    (ready : (port.rings tx.ringIdx).head ≠ (port.rings tx.ringIdx).tail) :
    (tx.scan port).outcome =
      some (some ⟨tx.ringIdx, (port.rings tx.ringIdx).head.toNat, .ofNat tx.ringIdx⟩, tx,
        port.setRing tx.ringIdx (port.rings tx.ringIdx).advance) := by
  have there : port.rawTxRingAt tx.ringIdx = some tx.ringIdx := by
    simp [Port.rawTxRingAt, present]
  rw [scan, there]
  simp only [((valid _ present).next_of_ne ready).1]

theorem scan_of_empty (present : tx.ringIdx < port.niTxRings)
    (empty : (port.rings tx.ringIdx).head = (port.rings tx.ringIdx).tail) :
    (tx.scan port).outcome =
      if tx.ringIdx + 1 > tx.lastTxRing then
        some (none, { tx with ringIdx := tx.ringIdx + 1 }, port)
      else
        ({ tx with ringIdx := tx.ringIdx + 1 }.scan port).outcome := by
  have there : port.rawTxRingAt tx.ringIdx = some tx.ringIdx := by
    simp [Port.rawTxRingAt, present]
  rw [scan, there]
  simp only [NetmapRing.next_of_eq empty, Port.setRing_self]
  split <;> rfl

theorem scan_cases (tx : Transmitter) (valid : port.TxValid) :
    (∃ index, tx.Takes port index ∧
        (tx.scan port).outcome = some (some ⟨index, (port.rings index).head.toNat, .ofNat index⟩,
          { tx with ringIdx := index }, port.setRing index (port.rings index).advance)) ∨
      ((∀ index, ¬tx.Takes port index) ∧
        ∃ ringIdx, (tx.scan port).outcome = some (none, { tx with ringIdx := ringIdx }, port)) := by
  generalize left : tx.lastTxRing - tx.ringIdx = count
  induction count using Nat.strong_induction_on generalizing tx with
  | _ count ih =>
  by_cases present : tx.ringIdx < port.niTxRings
  · by_cases empty : (port.rings tx.ringIdx).head = (port.rings tx.ringIdx).tail
    · have passed := scan_of_empty present empty
      by_cases past : tx.ringIdx + 1 > tx.lastTxRing
      · right
        refine ⟨?_, tx.ringIdx + 1, by rw [passed, if_pos past]⟩
        intro index takes
        obtain rfl : index = tx.ringIdx := by
          have := takes.start_le
          rcases takes.le_last with upper | same <;> omega
        exact takes.ready empty
      · have rest : ∀ index, tx.Takes port index ↔
            { tx with ringIdx := tx.ringIdx + 1 }.Takes port index := fun index =>
          NetmapRing.firstReady_succ empty (Nat.not_lt.mp past)
        simp only [rest, passed, if_neg past]
        exact ih _ (by simp only; omega) { tx with ringIdx := tx.ringIdx + 1 } rfl
    · left
      refine ⟨tx.ringIdx, ⟨le_refl _, Or.inr rfl, present, empty, ?_⟩,
        scan_of_ready valid present empty⟩
      intro before lower upper
      omega
  · right
    refine ⟨?_, tx.ringIdx, ?_⟩
    · intro index takes
      exact present (takes.start_le.trans_lt takes.present)
    · have outside : port.rawTxRingAt tx.ringIdx = none := by
        simpa [Port.rawTxRingAt] using present
      rw [scan, outside]

theorem Takes.unique {index other : ℕ} (first : tx.Takes port index)
    (second : tx.Takes port other) : index = other :=
  NetmapRing.FirstReady.unique first second

end Transmitter

/-! ## The kernel -/

section Kernel

variable {port synced : Port} {ioctl : Ioctl}

theorem Port.sync_txValid (valid : port.TxValid) (keeps : ioctl.KeepsTx port.niTxRings)
    (done : port.sync ioctl = some synced) : synced.TxValid := by
  rcases Port.sync_eq_some done with ⟨kernel, answered, rfl⟩
  intro index present
  have kept := keeps kernel answered port.rings index present (valid index present)
  refine ⟨?_, kept.tail_lt⟩
  rw [kept.head_eq, kept.numSlots_eq]
  exact (valid index present).head_lt

theorem Port.SameShape.refl (port : Port) : port.SameShape port := ⟨port.rings, rfl⟩

theorem Port.SameShape.trans {after : Port} (first : port.SameShape synced)
    (second : synced.SameShape after) : port.SameShape after := by
  rcases first with ⟨rings, rfl⟩
  rcases second with ⟨rings', rfl⟩
  exact ⟨rings', rfl⟩

theorem Port.sync_sameShape (done : port.sync ioctl = some synced) : port.SameShape synced := by
  rcases Port.sync_eq_some done with ⟨kernel, -, rfl⟩
  exact ⟨_, rfl⟩

theorem Port.SameShape.niTxRings (same : port.SameShape synced) :
    synced.niTxRings = port.niTxRings := by
  rcases same with ⟨rings, rfl⟩
  rfl

theorem Port.SameShape.firstTxRing (same : port.SameShape synced) :
    synced.firstTxRing = port.firstTxRing := by
  rcases same with ⟨rings, rfl⟩
  rfl

theorem Port.sync_head (valid : port.TxValid) (keeps : ioctl.KeepsTx port.niTxRings)
    (done : port.sync ioctl = some synced) {index : ℕ} (present : index < port.niTxRings) :
    (synced.rings index).head = (port.rings index).head := by
  rcases Port.sync_eq_some done with ⟨kernel, answered, rfl⟩
  exact (keeps kernel answered port.rings index present (valid index present)).head_eq

theorem Port.SyncedBy.head_eq {ioctls : List Ioctl} (synced_by : port.SyncedBy ioctls synced)
    (valid : port.TxValid) (keeps : ∀ ioctl ∈ ioctls, ioctl.KeepsTx port.niTxRings)
    {index : ℕ} (present : index < port.niTxRings) :
    (synced.rings index).head = (port.rings index).head := by
  rcases synced_by with ⟨performed, sublist, done⟩
  replace keeps : ∀ ioctl ∈ performed, ioctl.KeepsTx port.niTxRings := fun ioctl ioctl_mem =>
    keeps ioctl (sublist.subset ioctl_mem)
  clear sublist
  induction performed generalizing port with
  | nil =>
      simp only [List.foldlM_nil, Option.pure_def, Option.some.injEq] at done
      rw [done]
  | cons ioctl performed ih =>
      simp only [List.foldlM_cons, Option.bind_eq_bind, Option.bind_eq_some_iff] at done
      rcases done with ⟨middle, synced_once, rest⟩
      simp only [List.forall_mem_cons] at keeps
      have shape := Port.sync_sameShape synced_once
      have valid_synced := Port.sync_txValid valid keeps.1 synced_once
      have later := ih valid_synced (shape.niTxRings ▸ present) rest (shape.niTxRings ▸ keeps.2)
      exact later.trans (Port.sync_head valid keeps.1 synced_once present)

theorem Transmitter.readied_spec {tx : Transmitter} (valid : port.TxValid)
    (keeps : ioctl.KeepsTx port.niTxRings) (done : tx.readied port ioctl = some synced) :
    synced.TxValid ∧ port.SameShape synced := by
  simp only [readied] at done
  split at done
  · simp only [Option.some.injEq] at done
    subst synced
    exact ⟨valid, port.rings, rfl⟩
  · exact ⟨Port.sync_txValid valid keeps done, Port.sync_sameShape done⟩

end Kernel

/-! ## The slot that is taken -/

section Obtain

variable {tx : Transmitter} {port : Port} {first second : Ioctl}

theorem Transmitter.next_outcome (tx : Transmitter) (port : Port) (ioctl : Ioctl) :
    (tx.next port ioctl).outcome = (tx.readied port ioctl).bind fun readied =>
      ({ tx with synced := true }.scan readied).outcome := by
  by_cases synced : tx.synced
  · have same : { tx with synced := true } = tx := by rw [← synced]
    simp [next, readied, synced, same]
  · simp only [next, readied, synced]
    cases port.sync ioctl <;> rfl

theorem Transmitter.obtain_outcome (tx : Transmitter) (port : Port) (first second : Ioctl) :
    (tx.obtain port first second).outcome = (tx.next port first).outcome.bind
      fun (found, after, passed) =>
        match found with
        | some buf => some (some buf, after, passed)
        | none => (after.reset passed second).bind fun (restarted, synced) =>
            (restarted.next synced first).outcome := by
  simp only [obtain]
  rcases seen : (tx.next port first).outcome with _ | ⟨_ | buf, after, passed⟩
  · simp [seen]
  · simp only [Option.bind_some]
    rcases again : after.reset passed second with _ | ⟨restarted, synced⟩ <;> rfl
  · simp [seen]

theorem Transmitter.obtain_cases (tx : Transmitter) (valid : port.TxValid)
    (keepsFirst : first.KeepsTx port.niTxRings) (keepsSecond : second.KeepsTx port.niTxRings) :
    (∃ index ready, tx.Obtains port first second index ready ∧
        (tx.obtain port first second).outcome =
          some (some ⟨index, (ready.rings index).head.toNat, .ofNat index⟩,
            { tx with synced := true, ringIdx := index },
            ready.setRing index (ready.rings index).advance)) ∨
      ((∀ index ready, ¬tx.Obtains port first second index ready) ∧
        ((tx.obtain port first second).outcome = none ∨
          ∃ readied ready ringIdx, tx.readied port first = some readied ∧
            readied.sync second = some ready ∧ (tx.obtain port first second).outcome =
              some (none, { tx with synced := true, ringIdx := ringIdx }, ready))) := by
  rw [obtain_outcome, next_outcome]
  rcases unready : tx.readied port first with _ | readied
  · right
    refine ⟨?_, Or.inl rfl⟩
    rintro index ready ⟨readied, done, -⟩
    simp [unready] at done
  rcases readied_spec valid keepsFirst unready with ⟨valid', shape⟩
  rcases scan_cases { tx with synced := true } valid' with
    ⟨index, takes, scanned⟩ | ⟨nothing, ringIdx, scanned⟩
  · left
    refine ⟨index, readied, ⟨readied, unready, Or.inl ⟨rfl, takes⟩⟩, ?_⟩
    simp only [Option.bind_some, scanned]
  simp only [Option.bind_some, scanned, reset, shape.firstTxRing]
  rcases done : readied.sync second with _ | ready
  · right
    refine ⟨?_, Or.inl rfl⟩
    rintro index ready ⟨other, same, ⟨rfl, takes⟩ | ⟨-, synced, -⟩⟩
    · obtain rfl : readied = other := Option.some.inj (unready.symm.trans same)
      exact nothing index takes
    · obtain rfl : readied = other := Option.some.inj (unready.symm.trans same)
      simp [done] at synced
  have valid'' : ready.TxValid :=
    Port.sync_txValid valid' (shape.niTxRings ▸ keepsSecond) done
  simp only [Option.map_some, Option.bind_some, next_outcome, Transmitter.readied, if_true]
  rcases scan_cases { tx with synced := true, ringIdx := port.firstTxRing.toNat } valid'' with
    ⟨index, takes, scanned'⟩ | ⟨nothing', ringIdx', scanned'⟩
  · left
    exact ⟨index, ready, ⟨readied, unready, Or.inr ⟨nothing, done, takes⟩⟩, scanned'⟩
  · right
    refine ⟨?_, Or.inr ⟨readied, ready, ringIdx', rfl, done, scanned'⟩⟩
    rintro index other ⟨before, same, found⟩
    obtain rfl : readied = before := Option.some.inj (unready.symm.trans same)
    rcases found with ⟨rfl, takes⟩ | ⟨-, synced, takes⟩
    · exact nothing index takes
    · obtain rfl : ready = other := Option.some.inj (done.symm.trans synced)
      exact nothing' index takes

theorem Transmitter.readied_syncedBy {readied : Port}
    (done : tx.readied port first = some readied) :
    port.SyncedBy [first, second] readied ∧
      ∀ ready, readied.sync second = some ready → port.SyncedBy [first, second] ready := by
  simp only [Transmitter.readied] at done
  split at done
  · simp only [Option.some.injEq] at done
    subst readied
    refine ⟨⟨[], by simp, rfl⟩, fun ready synced => ⟨[second], by simp, ?_⟩⟩
    simp [synced]
  · refine ⟨⟨[first], by simp, ?_⟩, fun ready synced => ⟨[first, second], by simp, ?_⟩⟩
    · simp [done]
    · simp [done, synced]

theorem Transmitter.Obtains.unique {index other : ℕ} {ready ready' : Port}
    (obtains : tx.Obtains port first second index ready)
    (obtains' : tx.Obtains port first second other ready') : index = other ∧ ready = ready' := by
  rcases obtains with ⟨readied, done, obtains⟩
  rcases obtains' with ⟨_, done', obtains'⟩
  obtain rfl := Option.some.inj (done.symm.trans done')
  rcases obtains with ⟨rfl, takes⟩ | ⟨nothing, synced, takes⟩
  · rcases obtains' with ⟨rfl, takes'⟩ | ⟨nothing', -, -⟩
    · exact ⟨takes.unique takes', rfl⟩
    · exact absurd takes (nothing' index)
  · rcases obtains' with ⟨rfl, takes'⟩ | ⟨-, synced', takes'⟩
    · exact absurd takes' (nothing other)
    · obtain rfl := Option.some.inj (synced.symm.trans synced')
      exact ⟨takes.unique takes', rfl⟩

/-- The port when the slot is taken, in terms of the one before the call. -/
theorem Transmitter.Obtains.spec {index : ℕ} {ready : Port}
    (obtains : tx.Obtains port first second index ready) (valid : port.TxValid)
    (keepsFirst : first.KeepsTx port.niTxRings) (keepsSecond : second.KeepsTx port.niTxRings) :
    ready.TxValid ∧ port.SameShape ready ∧ port.SyncedBy [first, second] ready ∧
      index < port.niTxRings ∧ (ready.rings index).head ≠ (ready.rings index).tail := by
  rcases obtains with ⟨readied, done, ⟨rfl, takes⟩ | ⟨-, synced, takes⟩⟩
  · rcases readied_spec valid keepsFirst done with ⟨valid', shape⟩
    exact ⟨valid', shape, (readied_syncedBy done).1, shape.niTxRings ▸ takes.present, takes.ready⟩
  · rcases readied_spec valid keepsFirst done with ⟨valid', shape⟩
    have shape' := shape.trans (Port.sync_sameShape synced)
    exact ⟨Port.sync_txValid valid' (shape.niTxRings ▸ keepsSecond) synced, shape',
      (readied_syncedBy done).2 ready synced, shape'.niTxRings ▸ takes.present, takes.ready⟩

end Obtain

/-! ## The send -/

/-- The port after its first free slot of a ring is taken and its flags are cleared. -/
def Port.takeSlot (port : Port) (index : ℕ) : Port :=
  port.setRing index
    ((port.rings index).advance.updateSlot (port.rings index).head.toNat .clearFlags)

theorem Port.takeSlot_eq (port : Port) (index : ℕ) :
    port.takeSlot index = (port.setRing index (port.rings index).advance).updateSlot index
      (port.rings index).head.toNat .clearFlags := by
  simp [updateSlot, takeSlot, setRing]

section Send

variable {sock : Sock} {packet : List UInt8} {first second : Ioctl}

theorem Sock.send_cases (packet : List UInt8) (valid : sock.port.TxValid)
    (keepsFirst : first.KeepsTx sock.port.niTxRings)
    (keepsSecond : second.KeepsTx sock.port.niTxRings) :
    (∃ index ready slot, sock.tx.Obtains sock.port first second index ready ∧
        (∃ buf after, (sock.tx.obtain sock.port first second).outcome = some (some buf, after) ∧
          buf.pointer = index) ∧
        ready.slot? index (ready.rings index).head.toNat = some slot ∧
        sock.send packet first second = some
          (if packet.length > sock.port.nrBufSize then
            (.error (.tooBigPacket packet.length),
              { sock with
                tx := { sock.tx with synced := true, ringIdx := index }
                port := ready.takeSlot index })
          else
            (.ok (),
              { sock with
                tx := { sock.tx with synced := true, ringIdx := index }
                port := { ready.takeSlot index with
                  bufs := Function.update ready.bufs slot.bufIdx.toNat
                    (packet ++ (ready.bufs slot.bufIdx.toNat).drop packet.length) } }))) ∨
      ((∀ index ready, ¬sock.tx.Obtains sock.port first second index ready) ∧
        (sock.send packet first second = none ∨
          ∃ readied ready ringIdx, sock.tx.readied sock.port first = some readied ∧
            readied.sync second = some ready ∧ sock.send packet first second =
              some (.error .noMemory,
                { sock with
                  tx := { sock.tx with synced := true, ringIdx := ringIdx }
                  port := ready }))) := by
  simp only [Sock.send]
  rcases sock.tx.obtain_cases valid keepsFirst keepsSecond with
    ⟨index, ready, obtains, found⟩ |
      ⟨nothing, panics | ⟨readied, ready, ringIdx, done, synced, found⟩⟩
  · left
    rcases obtains.spec valid keepsFirst keepsSecond with ⟨valid', shape, -, present, -⟩
    have inside : (ready.rings index).head.toNat < (ready.rings index).slots.length := by
      rw [(ready.rings index).length_slots]
      exact (valid' index (shape.niTxRings ▸ present)).head_toNat_lt
    obtain ⟨slot, slot_eq⟩ : ∃ slot,
        ready.slot? index (ready.rings index).head.toNat = some slot :=
      ⟨_, List.getElem?_eq_getElem inside⟩
    refine ⟨index, ready, slot, obtains, ⟨_, _, found, rfl⟩, slot_eq, ?_⟩
    have found_slot : (ready.setRing index (ready.rings index).advance).slot? index
        (ready.rings index).head.toNat = some slot := by
      rw [← slot_eq]
      simp only [Port.slot?, Port.setRing, Function.update_self, NetmapRing.advance]
    have size_eq : ready.nrBufSize = sock.port.nrBufSize := by
      rcases shape with ⟨rings, rfl⟩
      rfl
    rw [found, Option.bind_some]
    simp only [Sock.sendInner, found_slot, Option.map_some, ← Port.takeSlot_eq]
    have size_eq' : (ready.takeSlot index).nrBufSize = sock.port.nrBufSize := size_eq
    have bufs_eq : (ready.takeSlot index).bufs = ready.bufs := rfl
    simp only [size_eq', bufs_eq]
  · right
    refine ⟨nothing, Or.inl ?_⟩
    rw [panics]
    rfl
  · right
    refine ⟨nothing, Or.inr ⟨readied, ready, ringIdx, done, synced, ?_⟩⟩
    rw [found]
    rfl

end Send

/-! ## The calls of the receiver -/

section Receive

variable {sock next : Sock}

/-- The transmitter and its rings are the same. -/
structure Sock.SameTx (sock next : Sock) : Prop where
  tx_eq : next.tx = sock.tx
  shape : sock.port.SameShape next.port
  rings_eq : ∀ index < sock.port.niTxRings, next.port.rings index = sock.port.rings index
  aimed : next.rx.Aimed next.port

theorem Sock.SameTx.trans {middle : Sock} (first : sock.SameTx middle)
    (second : middle.SameTx next) : sock.SameTx next := by
  refine ⟨second.tx_eq.trans first.tx_eq, first.shape.trans second.shape, ?_, second.aimed⟩
  intro index present
  rw [second.rings_eq index (first.shape.niTxRings ▸ present), first.rings_eq index present]

theorem Port.setRing_rings_of_rx {port : Port} {pointer index : ℕ} (receive : port.rxBase ≤ pointer)
    (ring : NetmapRing) (transmit : index < port.niTxRings) :
    (port.setRing pointer ring).rings index = port.rings index := by
  have apart : index ≠ pointer := by
    simp only [Port.rxBase] at receive
    omega
  simp only [Port.setRing, Function.update_of_ne apart]

theorem rx_scan_sameTx {rx rx' : Receiver} {port after : Port} {found : Option RxBuf}
    (aimed : rx.Aimed port) (scanned : rx.scan port = some (found, rx', after)) :
    port.SameShape after ∧
      ∀ index < port.niTxRings, after.rings index = port.rings index := by
  induction rx, port using Receiver.scan.induct with
  | case1 rx port null =>
      rw [Receiver.scan, null] at scanned
      simp at scanned
  | case2 rx port pointer current slot ring advanced =>
      rw [Receiver.scan, current] at scanned
      simp only [advanced, Option.some.injEq, Prod.mk.injEq] at scanned
      rcases scanned with ⟨rfl, rfl, rfl⟩
      exact ⟨⟨_, rfl⟩, fun _ => Port.setRing_rings_of_rx (aimed pointer current).1 ring⟩
  | case3 rx port pointer current ring advanced past =>
      rw [Receiver.scan, current] at scanned
      simp only [advanced, if_pos past, Option.some.injEq, Prod.mk.injEq] at scanned
      rcases scanned with ⟨rfl, rfl, rfl⟩
      exact ⟨⟨_, rfl⟩, fun _ => Port.setRing_rings_of_rx (aimed pointer current).1 ring⟩
  | case4 rx port pointer current ring advanced more ih =>
      rw [Receiver.scan, current] at scanned
      simp only [advanced, if_neg more] at scanned
      have aimed' : Receiver.Aimed { rx with
          ringIdx := rx.ringIdx + 1
          curRing := port.rawRxRingAt (rx.ringIdx + 1) } (port.setRing pointer ring) :=
        fun other present => Port.rawRxRingAt_eq_some present
      rcases ih aimed' scanned with ⟨⟨rings, shape⟩, same⟩
      refine ⟨⟨rings, shape⟩, fun index present => ?_⟩
      rw [same index present, Port.setRing_rings_of_rx (aimed pointer current).1 ring present]

theorem rx_next_sameTx {rx : Receiver} {after : Port} {found : Option RxBuf}
    (aimed : sock.rx.Aimed sock.port) (scanned : sock.rx.next sock.port = some (found, rx, after)) :
    sock.SameTx { sock with rx := rx, port := after } ∧
      ∀ buf, found = some buf → after.rxBase ≤ buf.pointer := by
  have received := rx_next_received aimed scanned
  refine ⟨?_, fun buf here => (received.region buf here).1⟩
  simp only [Receiver.next] at scanned
  split at scanned
  · simp only [Option.some.injEq, Prod.mk.injEq] at scanned
    rcases scanned with ⟨-, rfl, rfl⟩
    exact ⟨rfl, .refl _, fun _ _ => rfl, received.aimed⟩
  · rcases rx_scan_sameTx aimed scanned with ⟨shape, rings_eq⟩
    exact ⟨rfl, shape, rings_eq, received.aimed⟩

theorem rx_reset_sameTx {ioctl : Ioctl} {rx : Receiver} {after : Port}
    (leaves : ioctl.LeavesTx sock.port.niTxRings)
    (done : sock.rx.reset sock.port ioctl = some (rx, after)) :
    sock.SameTx { sock with rx := rx, port := after } := by
  simp only [Receiver.reset, Option.map_eq_some_iff, Prod.mk.injEq] at done
  rcases done with ⟨synced, done, rfl, rfl⟩
  rcases Port.sync_eq_some done with ⟨kernel, answered, rfl⟩
  exact ⟨rfl, ⟨_, rfl⟩, fun index present => leaves kernel answered sock.port.rings index present,
    fun pointer present => Port.rawRxRingAt_eq_some present⟩

theorem recvInner_sameTx {buf : RxBuf} {result : Except Error Unit}
    (aimed : sock.rx.Aimed sock.port) (receive : sock.port.rxBase ≤ buf.pointer)
    (received : sock.recvInner buf = some (result, next)) : sock.SameTx next := by
  simp only [Sock.recvInner, Option.map_eq_some_iff] at received
  rcases received with ⟨slot, -, received⟩
  split at received
  · simp only [Prod.mk.injEq] at received
    rcases received with ⟨-, rfl⟩
    exact ⟨rfl, .refl _, fun _ _ => rfl, aimed⟩
  · simp only [Prod.mk.injEq] at received
    rcases received with ⟨-, rfl⟩
    exact ⟨rfl, ⟨_, rfl⟩, fun _ => Port.setRing_rings_of_rx receive _, aimed⟩

theorem recvToken_sameTx {ioctl : Ioctl} {result : Except Error Unit}
    (aimed : sock.rx.Aimed sock.port) (leaves : ioctl.LeavesTx sock.port.niTxRings)
    (received : sock.recvToken ioctl = some (result, next)) : sock.SameTx next := by
  simp only [Sock.recvToken, Option.bind_eq_some_iff] at received
  rcases received with ⟨⟨found, rx, after⟩, scanned, received⟩
  rcases rx_next_sameTx aimed scanned with ⟨first, region⟩
  cases found with
  | some buf => exact first.trans (recvInner_sameTx first.aimed (region buf rfl) received)
  | none =>
      simp only [Option.bind_eq_some_iff] at received
      rcases received with ⟨⟨restarted, synced⟩, reset, ⟨found, rx', after'⟩, rescanned, received⟩
      have fresh := first.trans (@rx_reset_sameTx { sock with rx := rx, port := after } _ _ _
        (first.shape.niTxRings ▸ leaves) reset)
      have restart : sock.SameTx { sock with rx := restarted, port := synced, replaced := [] } :=
        ⟨fresh.tx_eq, fresh.shape, fresh.rings_eq, fresh.aimed⟩
      rcases rx_next_sameTx restart.aimed rescanned with ⟨second, region'⟩
      have whole := restart.trans second
      cases found with
      | none =>
          simp only [Option.some.injEq, Prod.mk.injEq] at received
          rcases received with ⟨-, rfl⟩
          exact whole
      | some buf => exact whole.trans (recvInner_sameTx whole.aimed (region' buf rfl) received)

theorem recv_sameTx {ioctl : Ioctl} {result : Except Error Unit}
    (aimed : sock.rx.Aimed sock.port) (leaves : ioctl.LeavesTx sock.port.niTxRings)
    (received : sock.recv ioctl = some (result, next)) : sock.SameTx next := by
  rcases Sock.recv_cases received with ⟨outcome, middle, token, ended⟩
  have first := recvToken_sameTx aimed leaves token
  rcases ended with rfl | ⟨pool, -, rfl⟩
  · exact first
  · exact ⟨first.tx_eq, first.shape, first.rings_eq, first.aimed⟩

end Receive

/-! ## Failed sends -/

section Atomicity

variable {sock next : Sock}

/-- What the kernel does to the transmit rings during an action. -/
def KernelKeepsTx (sock : Sock) : Action → Prop
  | .recvToken ioctl | .recv ioctl => ioctl.LeavesTx sock.port.niTxRings
  | .send _ first second =>
      first.KeepsTx sock.port.niTxRings ∧ second.KeepsTx sock.port.niTxRings
  | .flush ioctl => ioctl.KeepsTx sock.port.niTxRings
  | .pool _ => True

/-- A send that fails because the packet is too big leaves the transmit rings as they were, up to
its calls to the kernel. -/
def AtomicOnError (sock : Sock) : Action → Prop
  | .send packet first second => ∀ size after,
      sock.send packet first second = some (.error (.tooBigPacket size), after) →
        ∃ synced, sock.port.SyncedBy [first, second] synced ∧
          ∀ index < sock.port.niTxRings, after.port.rings index = synced.rings index
  | _ => True

/-- The packet fits into a buffer, or there is no free slot. -/
def FitsOrFull (sock : Sock) : Action → Prop
  | .send packet first second => packet.length ≤ sock.port.nrBufSize ∨
      ∀ index ready, ¬sock.tx.Obtains sock.port first second index ready
  | _ => True

/-- What holds in every run whose transmit rings are valid at its start. -/
structure Sock.TxReady (sock : Sock) : Prop where
  valid : sock.port.TxValid
  aimed : sock.rx.Aimed sock.port

theorem Sock.SameTx.txReady (same : sock.SameTx next) (ready : sock.TxReady) : next.TxReady := by
  refine ⟨?_, same.aimed⟩
  intro index present
  rw [same.shape.niTxRings] at present
  rw [same.rings_eq index present]
  exact ready.valid index present

theorem Port.takeSlot_txValid {port : Port} {index : ℕ} (valid : port.TxValid)
    (some_left : (port.rings index).head ≠ (port.rings index).tail)
    (present : index < port.niTxRings) : (port.takeSlot index).TxValid := by
  intro other other_present
  by_cases here : other = index
  · subst other
    have advanced := ((valid index present).next_of_ne some_left).2.1
    simp only [Port.takeSlot, Port.setRing, Function.update_self]
    exact ⟨advanced.head_lt, advanced.tail_lt⟩
  · simp only [Port.takeSlot, Port.setRing, Function.update_of_ne here]
    exact valid other other_present

theorem atomicOnError_iff {action : Action} (ready : sock.TxReady)
    (kernel : KernelKeepsTx sock action) :
    AtomicOnError sock action ↔ FitsOrFull sock action := by
  cases action with
  | send packet first second =>
      rcases kernel with ⟨keepsFirst, keepsSecond⟩
      simp only [AtomicOnError, FitsOrFull]
      rcases sock.send_cases packet ready.valid keepsFirst keepsSecond with
        ⟨index, taken_from, slot, obtains, -, -, sent⟩ | ⟨nothing, sent⟩
      · by_cases fits : packet.length ≤ sock.port.nrBufSize
        · simp [sent, fits, Nat.not_lt.mpr fits]
        · rcases obtains.spec ready.valid keepsFirst keepsSecond with
            ⟨valid, shape, taken_by, present, some_left⟩
          apply iff_of_false
          · intro atomic
            rw [if_pos (Nat.lt_of_not_le fits)] at sent
            rcases atomic _ _ sent with ⟨synced, synced_by, same⟩
            have keeps : ∀ ioctl ∈ [first, second], ioctl.KeepsTx sock.port.niTxRings := by
              simp [keepsFirst, keepsSecond]
            have unmoved := (synced_by.head_eq ready.valid keeps present).trans
              (taken_by.head_eq ready.valid keeps present).symm
            have moved := (valid index (shape.niTxRings ▸ present)).nextHead_ne some_left
            apply moved
            rw [← unmoved, ← same index present]
            simp [Port.takeSlot, Port.setRing, NetmapRing.updateSlot, NetmapRing.advance]
          · rintro (short | nothing)
            · exact fits short
            · exact nothing index taken_from obtains
      · refine iff_of_true ?_ (Or.inr nothing)
        intro size after failed
        rcases sent with sent | ⟨_, _, _, -, -, sent⟩ <;> simp [sent] at failed
  | recvToken ioctl | recv ioctl | flush ioctl | pool action =>
      exact Iff.rfl

theorem step_txReady {action : Action} (ready : sock.TxReady)
    (kernel : KernelKeepsTx sock action) (stepped : sock.step action = some next) :
    next.TxReady := by
  cases action with
  | send packet first second =>
      simp only [Sock.step, Option.map_eq_some_iff] at stepped
      rcases stepped with ⟨⟨result, _⟩, sent, rfl⟩
      rcases kernel with ⟨keepsFirst, keepsSecond⟩
      rcases sock.send_cases packet ready.valid keepsFirst keepsSecond with
        ⟨index, taken_from, slot, obtains, -, -, sends⟩ |
          ⟨-, panics | ⟨readied, synced, ringIdx, done, done', sends⟩⟩
      · rcases obtains.spec ready.valid keepsFirst keepsSecond with
          ⟨valid, ⟨rings, rfl⟩, -, present, some_left⟩
        have taken := Port.takeSlot_txValid valid some_left present
        rw [sends, Option.some.injEq] at sent
        split at sent
        all_goals
          simp only [Prod.mk.injEq] at sent
          rcases sent with ⟨-, rfl⟩
          exact ⟨taken, ready.aimed⟩
      · simp [panics] at sent
      · rw [sends, Option.some.injEq, Prod.mk.injEq] at sent
        rcases sent with ⟨-, rfl⟩
        rcases Transmitter.readied_spec ready.valid keepsFirst done with ⟨valid, shape⟩
        have valid' := Port.sync_txValid valid (shape.niTxRings ▸ keepsSecond) done'
        rcases shape.trans (Port.sync_sameShape done') with ⟨rings, rfl⟩
        exact ⟨valid', ready.aimed⟩
  | recvToken ioctl =>
      simp only [Sock.step, Option.map_eq_some_iff] at stepped
      rcases stepped with ⟨⟨result, _⟩, received, rfl⟩
      exact (recvToken_sameTx ready.aimed kernel received).txReady ready
  | recv ioctl =>
      simp only [Sock.step, Option.map_eq_some_iff] at stepped
      rcases stepped with ⟨⟨result, _⟩, received, rfl⟩
      exact (recv_sameTx ready.aimed kernel received).txReady ready
  | flush ioctl =>
      simp only [Sock.step, Sock.flush, Option.map_eq_some_iff] at stepped
      rcases stepped with ⟨after, done, rfl⟩
      rcases Port.sync_sameShape done with ⟨rings, rfl⟩
      exact ⟨Port.sync_txValid ready.valid kernel done, ready.aimed⟩
  | pool action =>
      simp only [Sock.step, Option.map_eq_some_iff] at stepped
      rcases stepped with ⟨⟨pool, discards⟩, -, rfl⟩
      exact ⟨ready.valid, ready.aimed⟩

theorem create_txReady {port : Port} {ioctl : Ioctl} {index : UInt32} {site : Site}
    (valid : port.TxValid) (leaves : ioctl.LeavesTx port.niTxRings)
    (created : Sock.create port ioctl index site = some sock) : sock.TxReady := by
  rcases Sock.create_cases created with ⟨extra, synced, pool, -, done, -, rfl⟩
  rcases Port.sync_eq_some done with ⟨kernel, answered, rfl⟩
  refine ⟨?_, fun pointer present => Port.rawRxRingAt_eq_some present⟩
  intro ring present
  simp only
  rw [leaves kernel answered port.rings ring present]
  exact valid ring present

/-- In every run, the sends that fail because of the length of their packet leave the transmit
rings alone exactly when there are none: each packet fits or finds no free slot. -/
theorem run_atomicOnError_iff {port : Port} {ioctl : Ioctl} {index : UInt32} {site : Site}
    {sock : Sock} (valid : port.TxValid) (leaves : ioctl.LeavesTx port.niTxRings)
    (created : Sock.create port ioctl index site = some sock) (actions : List Action)
    (kernel : RunMeets Sock.step KernelKeepsTx sock actions) :
    RunMeets Sock.step AtomicOnError sock actions ↔ RunMeets Sock.step FitsOrFull sock actions := by
  apply runMeets_iff_of Sock.TxReady _ _ (create_txReady valid leaves created) kernel
  · exact fun ready keeps => atomicOnError_iff ready keeps
  · exact fun ready keeps _ stepped => step_txReady ready keeps stepped

theorem Ioctl.id_keepsTx (count : ℕ) : Ioctl.KeepsTx (some id) count := by
  rintro kernel ⟨⟩ rings index - valid
  exact ⟨rfl, rfl, rfl, valid.tail_lt⟩

theorem Ioctl.id_leavesTx (count : ℕ) : Ioctl.LeavesTx (some id) count := by
  rintro kernel ⟨⟩
  exact fun _ _ _ => rfl

/-- The kernel gives the user all slots but one of the ring. -/
def Ioctl.giveAll (pointer : ℕ) : Ioctl :=
  some fun rings => Function.update rings pointer (rings pointer).giveAll

theorem Ioctl.giveAll_keepsTx (pointer count : ℕ) : (Ioctl.giveAll pointer).KeepsTx count := by
  rintro kernel ⟨⟩ rings index - valid
  by_cases here : index = pointer
  · subst here
    simp only [Function.update_self]
    exact ⟨rfl, rfl, rfl, valid.giveAll_tail_lt⟩
  · simp only [Function.update_of_ne here]
    exact ⟨rfl, rfl, rfl, valid.tail_lt⟩

/-- The packet fits, or the send fails for want of a slot. -/
def FitsOrNoMemory (sock : Sock) : Action → Prop
  | .send packet first second => packet.length ≤ sock.port.nrBufSize ∨
      (sock.send packet first second).map Prod.fst = some (.error .noMemory)
  | _ => True

instance (sock : Sock) (action : Action) : Decidable (FitsOrNoMemory sock action) :=
  match action with
  | .send packet first second => inferInstanceAs
      (Decidable (packet.length ≤ sock.port.nrBufSize ∨
        (sock.send packet first second).map Prod.fst = some (.error .noMemory)))
  | .recvToken _ | .recv _ | .flush _ | .pool _ => .isTrue trivial

theorem fitsOrFull_of_noMemory {action : Action} (ready : sock.TxReady)
    (kernel : KernelKeepsTx sock action) (fits : FitsOrNoMemory sock action) :
    FitsOrFull sock action := by
  cases action with
  | send packet first second =>
      rcases sock.send_cases packet ready.valid kernel.1 kernel.2 with
        ⟨index, taken_from, slot, -, -, -, sent⟩ | ⟨nothing, -⟩
      · rcases fits with short | failed
        · exact Or.inl short
        · rw [sent] at failed
          split at failed <;> cases failed
      · exact Or.inr nothing
  | recvToken _ | recv _ | flush _ | pool _ => trivial

def longPacket : List UInt8 := List.replicate 2049 0

/-- Two sends that fit, and between them a packet that is too long, while the ring is full. -/
def longWhileFull : List Action :=
  [.send [1, 2, 3] (some id) (some id), .send longPacket (some id) (some id), .flush (.giveAll 0),
    .send [4, 5] (some id) (some id), .recvToken (some id)]

theorem longWhileFull_kernelKeepsTx {action : Action} (sock : Sock)
    (action_mem : action ∈ longWhileFull) : KernelKeepsTx sock action := by
  simp only [longWhileFull, List.mem_cons, List.not_mem_nil, or_false] at action_mem
  rcases action_mem with rfl | rfl | rfl | rfl | rfl
  all_goals simp [KernelKeepsTx, Ioctl.id_keepsTx, Ioctl.id_leavesTx, Ioctl.giveAll_keepsTx]

/-- The two sends that fit take both slots of the ring. -/
theorem run_atomicOnError_longWhileFull :
    ∃ sock final, Sock.create onePacketPort (some id) 0 ⟨0, 0⟩ = some sock ∧
      run Sock.step sock longWhileFull = some final ∧ (final.port.rings 0).head = 0 ∧
      RunMeets Sock.step AtomicOnError sock longWhileFull := by
  have performed : ((Sock.create onePacketPort (some id) 0 ⟨0, 0⟩).bind fun sock =>
      (run Sock.step sock longWhileFull).map fun final =>
        ((final.port.rings 0).head,
          decide (RunMeets Sock.step FitsOrNoMemory sock longWhileFull))) = some (0, true) := by
    decide +kernel
  simp only [Option.bind_eq_some_iff, Option.map_eq_some_iff, Prod.mk.injEq, decide_eq_true_eq]
    at performed
  rcases performed with ⟨sock, created, final, performed, head, fits⟩
  have kernel : RunMeets Sock.step KernelKeepsTx sock longWhileFull :=
    runMeets_of_forall fun action action_mem sock => longWhileFull_kernelKeepsTx sock action_mem
  have valid : onePacketPort.TxValid := by decide
  have full : RunMeets Sock.step FitsOrFull sock longWhileFull :=
    (kernel.and fits).imp Sock.TxReady
      (fun ready both => fitsOrFull_of_noMemory ready both.1 both.2)
      (fun ready both stepped => step_txReady ready both.1 stepped)
      (create_txReady valid (Ioctl.id_leavesTx _) created)
  exact ⟨sock, final, created, performed, head,
    (run_atomicOnError_iff valid (Ioctl.id_leavesTx _) created longWhileFull kernel).mpr full⟩

theorem longPacket_takes_slot :
    ∃ sock after, Sock.create onePacketPort (some id) 0 ⟨0, 0⟩ = some sock ∧
      sock.send longPacket (some id) (some id) = some (.error (.tooBigPacket 2049), after) ∧
      (sock.port.rings 0).head = 0 ∧ (after.port.rings 0).head = 1 ∧
      ¬AtomicOnError sock (.send longPacket (some id) (some id)) := by
  have sent : ((Sock.create onePacketPort (some id) 0 ⟨0, 0⟩).bind fun sock =>
      (sock.send longPacket (some id) (some id)).map fun outcome =>
        (outcome.1, (sock.port.rings 0).head, (outcome.2.port.rings 0).head,
          sock.port.niTxRings)) =
      some (.error (.tooBigPacket 2049), 0, 1, 1) := by
    decide +kernel
  simp only [Option.bind_eq_some_iff, Option.map_eq_some_iff, Prod.exists, Prod.mk.injEq] at sent
  rcases sent with ⟨sock, created, _, after, sent, rfl, before, moved, rings⟩
  refine ⟨sock, after, created, sent, before, moved, ?_⟩
  intro atomic
  have ready := create_txReady (by decide) (Ioctl.id_leavesTx _) created
  have present : 0 < sock.port.niTxRings := by
    rw [rings]
    exact Nat.one_pos
  rcases atomic _ _ sent with ⟨synced, synced_by, same⟩
  have unmoved := synced_by.head_eq ready.valid (by simp [Ioctl.id_keepsTx]) present
  rw [← same 0 present, moved, before] at unmoved
  simp at unmoved

end Atomicity

end Nethuns.Netmap
