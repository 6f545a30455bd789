import Nethuns.Netmap.Reception
import Nethuns.Netmap.Transmission

/-!
# The packet that a netmap receive takes

`Sock::recv_token` takes the first packet of the first receive ring that has one, after a
synchronization if none has. This file says so on the state before the call, for every port: an
interval that goes on past the rings of the NIC can make the call access the null pointer. It
also says that the calls of the transmitter leave the receive rings alone.

At `NIOCRXSYNC` the kernel moves the tail of a ring over the slots that it has filled and leaves
those that the user has; `NIOCTXSYNC` does not write the receive rings.
-/

namespace Nethuns.Netmap

open Nethuns.Lib Nethuns.Mpsc Nethuns.Api

/-- The packet in a receive slot. -/
def Slot.packet (slot : Slot) : ℕ × UInt32 := (slot.bufIdx.toNat, slot.len.toUInt32)

/-- What the kernel does to a receive ring. -/
structure NetmapRing.Delivers (ring after : NetmapRing) : Prop where
  grows : ring.Grows after
  cur_eq : after.cur = ring.cur
  packets_eq : ∀ position ∈ ring.userSlots,
    after.slots[position]?.map Slot.packet = ring.slots[position]?.map Slot.packet

/-- What `NIOCRXSYNC` does to the receive rings of the NIC, which start at a pointer. -/
def Ioctl.DeliversRx (ioctl : Ioctl) (base count : ℕ) : Prop :=
  ∀ kernel, ioctl = some kernel → ∀ (rings : ℕ → NetmapRing), ∀ index < count,
    (rings (base + index)).Valid → (rings (base + index)).Delivers (kernel rings (base + index))

/-- `NIOCTXSYNC` does not write the receive rings. -/
def Ioctl.LeavesRx (ioctl : Ioctl) (base count : ℕ) : Prop :=
  ∀ kernel, ioctl = some kernel → ∀ (rings : ℕ → NetmapRing), ∀ index < count,
    kernel rings (base + index) = rings (base + index)

namespace Port

/-- The cursors of the receive rings of the NIC are in range. -/
def RxValid (port : Port) : Prop := ∀ index < port.niRxRings, (port.rxRing index).Valid

end Port

namespace Receiver

/-- A call takes the first packet of this ring. -/
def Takes (rx : Receiver) (port : Port) (index : ℕ) : Prop :=
  rx.curRing ≠ none ∧
    NetmapRing.FirstReady port.rxRing port.niRxRings rx.ringIdx rx.lastRxRing index

def restarted (rx : Receiver) (port : Port) : Receiver :=
  { rx with
    ringIdx := port.firstRxRing.toNat
    curRing := port.rawRxRingAt port.firstRxRing.toNat }

/-- A receive takes the first packet of this ring, with the port as it is then. -/
def Obtains (rx : Receiver) (port : Port) (ioctl : Ioctl) (index : ℕ) (ready : Port) : Prop :=
  ready = port ∧ rx.Takes port index ∨
    (∀ other, ¬rx.Takes port other) ∧ rx.next port ≠ none ∧ port.sync ioctl = some ready ∧
      (rx.restarted port).Takes ready index

/-- The ring pointer is that of the ring index, or null. -/
def Placed (rx : Receiver) (port : Port) : Prop :=
  rx.curRing = none ∨
    rx.curRing = some (port.rxBase + rx.ringIdx) ∧ rx.ringIdx < port.niRxRings

variable {rx : Receiver} {port : Port}

theorem next_search (placed : rx.Placed port) (valid : port.RxValid) :
    (∃ index, rx.Takes port index ∧ rx.next port = some (rx.foundAt port index)) ∨
      ((∀ index, ¬rx.Takes port index) ∧
        (rx.next port = none ∨ ∃ ringIdx, rx.next port =
          some (none, { rx with ringIdx := ringIdx, curRing := none }, port))) := by
  rcases placed with null | ⟨current, present⟩
  · right
    refine ⟨fun index takes => takes.1 null, Or.inr ⟨rx.ringIdx, ?_⟩⟩
    rw [next, if_pos null, ← null]
  · have some_ring : rx.curRing ≠ none := by simp [current]
    rw [next, if_neg some_ring]
    rcases rx.scan_search current present (fun index inside _ _ => valid index inside) with
      ⟨index, first, found⟩ | ⟨empties, rest⟩
    · exact Or.inl ⟨index, ⟨some_ring, first⟩, found⟩
    · right
      refine ⟨?_, ?_⟩
      · rintro index ⟨-, first⟩
        exact first.ready (empties index first.present first.start_le first.le_last)
      · rcases rest with ⟨-, null⟩ | nothing
        · exact Or.inl null
        · exact Or.inr ⟨_, nothing⟩

theorem restarted_placed (rx : Receiver) (port : Port) : (rx.restarted port).Placed port := by
  rcases Nat.lt_or_ge port.firstRxRing.toNat port.niRxRings with present | past
  · exact Or.inr ⟨Port.rawRxRingAt_of_lt present, present⟩
  · exact Or.inl (if_pos past)

theorem Placed.sameShape {after : Port} (placed : rx.Placed port) (shape : port.SameShape after) :
    rx.Placed after := by
  rcases shape with ⟨rings, rfl⟩
  exact placed

theorem Takes.placed {index : ℕ} {ready : Port} (takes : rx.Takes port index)
    (shape : port.SameShape ready) :
    Placed { rx with ringIdx := index, curRing := some (port.rxBase + index) } ready := by
  rcases shape with ⟨rings, rfl⟩
  exact Or.inr ⟨rfl, takes.2.present⟩

end Receiver

/-! ## What a receive does -/

section Receive

variable {sock : Sock} {ioctl : Ioctl}

theorem Port.sync_rxValid {port synced : Port} (valid : port.RxValid)
    (delivers : ioctl.DeliversRx port.rxBase port.niRxRings)
    (done : port.sync ioctl = some synced) : synced.RxValid := by
  rcases Port.sync_eq_some done with ⟨kernel, answered, rfl⟩
  intro index present
  have ring := delivers kernel answered port.rings index present (valid index present)
  exact ring.grows.valid (valid index present)

/-- The socket when a receive has taken the first slot of a ring. -/
def Sock.tookRx (sock : Sock) (index : ℕ) (ready : Port) (replaced : List (ℕ × ℕ)) : Sock :=
  { sock with
    rx := { sock.rx with ringIdx := index, curRing := some (ready.rxBase + index) }
    port := ready.setRing (ready.rxBase + index) (ready.rxRing index).advance
    replaced := replaced }

/-- The socket when a receive has also exchanged the buffer of the slot for a free one. -/
def Sock.exchanged (sock : Sock) (index : ℕ) (ready : Port) (replaced : List (ℕ × ℕ))
    (slot : Slot) (free : ℕ) : Sock :=
  { sock.tookRx index ready replaced with
    port := (sock.tookRx index ready replaced).port.updateSlot (ready.rxBase + index)
      (ready.rxRing index).head.toNat fun slot => slot.updateBuffer fun _ => .ofNat free
    pool := sock.pool.popped.give slot.bufIdx.toNat slot.len.toUInt32
    replaced := (ready.rxBase + index, (ready.rxRing index).head.toNat) :: replaced }

/-- A receive takes the first packet that there is, after a synchronization if there is none. -/
theorem Sock.recvToken_search (placed : sock.rx.Placed sock.port) (valid : sock.port.RxValid)
    (delivers : ioctl.DeliversRx sock.port.rxBase sock.port.niRxRings) :
    (∃ index ready replaced, sock.rx.Obtains sock.port ioctl index ready ∧
        sock.recvToken ioctl = (sock.tookRx index ready replaced).recvInner
          ⟨ready.rxBase + index, (ready.rxRing index).head.toNat, .ofNat index⟩) ∨
      ((∀ index ready, ¬sock.rx.Obtains sock.port ioctl index ready) ∧
        (sock.recvToken ioctl = none ∨ ∃ ready ringIdx, sock.rx.next sock.port ≠ none ∧
          sock.port.sync ioctl = some ready ∧
          sock.recvToken ioctl = some (.error .noPacket,
            { sock with
              rx := { sock.rx with ringIdx := ringIdx, curRing := none }
              port := ready
              replaced := [] }))) := by
  rcases sock.rx.next_search placed valid with
    ⟨index, takes, found⟩ | ⟨nothing, null | ⟨ringIdx, passed⟩⟩
  · left
    refine ⟨index, sock.port, sock.replaced, Or.inl ⟨rfl, takes⟩, ?_⟩
    simp only [recvToken, found, Option.bind_some]
    rfl
  · right
    refine ⟨?_, Or.inl ?_⟩
    · rintro index ready (⟨-, takes⟩ | ⟨-, safe, -⟩)
      · exact nothing index takes
      · exact safe null
    · simp only [recvToken, null, Option.bind_none]
  have safe : sock.rx.next sock.port ≠ none := by simp [passed]
  rcases done : sock.port.sync ioctl with _ | ready
  · right
    refine ⟨?_, Or.inl ?_⟩
    · rintro index ready (⟨-, takes⟩ | ⟨-, -, synced, -⟩)
      · exact nothing index takes
      · simp [done] at synced
    · simp only [recvToken, passed, Option.bind_some, Receiver.reset, done, Option.map_none,
        Option.bind_none]
  have shape := Port.sync_sameShape done
  have placed' : (sock.rx.restarted sock.port).Placed ready :=
    (sock.rx.restarted_placed sock.port).sameShape shape
  have reset : { sock.rx with ringIdx := ringIdx, curRing := none }.reset sock.port ioctl =
      some (sock.rx.restarted sock.port, ready) := by
    simp only [Receiver.reset, done, Option.map_some]
    rfl
  rcases Receiver.next_search placed' (Port.sync_rxValid valid delivers done) with
    ⟨index, takes, found⟩ | ⟨nothing', null | ⟨ringIdx', passed'⟩⟩
  · left
    refine ⟨index, ready, [], Or.inr ⟨nothing, safe, done, takes⟩, ?_⟩
    simp only [recvToken, passed, reset, found, Option.bind_some]
    rfl
  all_goals
    right
    refine ⟨?_, ?_⟩
    · rintro index other (⟨-, takes⟩ | ⟨-, -, synced, takes⟩)
      · exact nothing index takes
      · obtain rfl := Option.some.inj (done.symm.trans synced)
        exact nothing' index takes
  · left
    simp only [recvToken, passed, reset, null, Option.bind_some, Option.bind_none]
  · refine Or.inr ⟨ready, ringIdx', safe, rfl, ?_⟩
    simp only [recvToken, passed, reset, passed', Option.bind_some]
    rfl

theorem Receiver.Obtains.spec {rx : Receiver} {port ready : Port} {index : ℕ}
    (obtains : rx.Obtains port ioctl index ready) (valid : port.RxValid)
    (delivers : ioctl.DeliversRx port.rxBase port.niRxRings) :
    ready.RxValid ∧ port.SameShape ready ∧ index < port.niRxRings ∧
      (ready.rxRing index).head ≠ (ready.rxRing index).tail ∧
      (ready.rxRing index).head = (port.rxRing index).head := by
  rcases obtains with ⟨rfl, takes⟩ | ⟨-, -, done, takes⟩
  · exact ⟨valid, .refl _, takes.2.present, takes.2.ready, rfl⟩
  · have valid' := Port.sync_rxValid valid delivers done
    rcases Port.sync_eq_some done with ⟨kernel, answered, rfl⟩
    have ring := delivers kernel answered port.rings index takes.2.present
      (valid index takes.2.present)
    exact ⟨valid', ⟨_, rfl⟩, takes.2.present, takes.2.ready, ring.grows.head_eq⟩

theorem Port.RxValid.slot {port : Port} (valid : port.RxValid) {index : ℕ}
    (present : index < port.niRxRings) :
    ∃ slot, (port.rxRing index).slots[(port.rxRing index).head.toNat]? = some slot := by
  have inside : (port.rxRing index).head.toNat < (port.rxRing index).slots.length := by
    rw [(port.rxRing index).length_slots]
    exact (valid index present).head_toNat_lt
  exact ⟨_, List.getElem?_eq_getElem inside⟩

/-- With a free buffer the packet in the slot becomes a token; without one, nothing is left of
it. -/
theorem Sock.recvInner_tookRx {index : ℕ} {ready : Port} {replaced : List (ℕ × ℕ)} {slot : Slot}
    (slot_eq : (ready.rxRing index).slots[(ready.rxRing index).head.toNat]? = some slot) :
    (sock.pool.channel.pop.1 = none ∧
        (sock.tookRx index ready replaced).recvInner
            ⟨ready.rxBase + index, (ready.rxRing index).head.toNat, .ofNat index⟩ =
          some (.error .noMemory,
            { sock.tookRx index ready replaced with pool := sock.pool.popped })) ∨
      ∃ free, sock.pool.channel.pop.1 = some free ∧
        (sock.tookRx index ready replaced).recvInner
            ⟨ready.rxBase + index, (ready.rxRing index).head.toNat, .ofNat index⟩ =
          some (.ok (), sock.exchanged index ready replaced slot free) := by
  have found : (sock.tookRx index ready replaced).port.slot? (ready.rxBase + index)
      (ready.rxRing index).head.toNat = some slot := by
    rw [← slot_eq]
    simp [tookRx, Port.slot?, Port.setRing, NetmapRing.advance]
  have same_pool : (sock.tookRx index ready replaced).pool = sock.pool := rfl
  simp only [recvInner, found, Option.map_some, same_pool]
  rcases popped : sock.pool.channel.pop with ⟨_ | free, channel⟩
  · left
    refine ⟨rfl, ?_⟩
    simp only [Pool.popped, popped]
  · right
    refine ⟨free, rfl, ?_⟩
    simp only [exchanged, Pool.popped, popped]
    rfl

/-- What holds in every run whose receive rings are valid at its start. -/
structure Sock.RxReady (sock : Sock) : Prop where
  placed : sock.rx.Placed sock.port
  valid : sock.port.RxValid

theorem Sock.tookRx_rxRing (sock : Sock) (index : ℕ) (ready : Port) (replaced : List (ℕ × ℕ))
    (other : ℕ) :
    (sock.tookRx index ready replaced).port.rxRing other =
      if other = index then (ready.rxRing index).advance else ready.rxRing other := by
  simp only [tookRx, Port.setRing_rxRing]

theorem Sock.exchanged_rxRing (sock : Sock) (index : ℕ) (ready : Port)
    (replaced : List (ℕ × ℕ)) (slot : Slot) (free other : ℕ) :
    (sock.exchanged index ready replaced slot free).port.rxRing other =
      if other = index then
        (ready.rxRing index).advance.updateSlot (ready.rxRing index).head.toNat
          fun slot => slot.updateBuffer fun _ => .ofNat free
      else ready.rxRing other := by
  have same_base : (sock.tookRx index ready replaced).port.rxBase = ready.rxBase := rfl
  simp only [exchanged, Port.updateSlot, ← same_base, Port.setRing_rxRing, tookRx_rxRing]
  split
  · simp only [tookRx, Port.setRing, Port.rxBase, Function.update_self]
  · rfl

theorem Receiver.Obtains.rxReady {index : ℕ} {taken_from : Port} (ready : sock.RxReady)
    (delivers : ioctl.DeliversRx sock.port.rxBase sock.port.niRxRings)
    (obtains : sock.rx.Obtains sock.port ioctl index taken_from) (replaced : List (ℕ × ℕ))
    (slot : Slot) (free : ℕ) :
    (sock.tookRx index taken_from replaced).RxReady ∧
      (sock.exchanged index taken_from replaced slot free).RxReady := by
  rcases obtains.spec ready.valid delivers with ⟨valid, ⟨rings, rfl⟩, present, some_left, -⟩
  have advanced := ((valid index present).next_of_ne some_left).2.1
  refine ⟨⟨Or.inr ⟨rfl, present⟩, ?_⟩, ⟨Or.inr ⟨rfl, present⟩, ?_⟩⟩
  · intro other inside
    rw [Sock.tookRx_rxRing]
    split
    · exact advanced
    · exact valid other inside
  · intro other inside
    rw [Sock.exchanged_rxRing]
    split
    · exact ⟨advanced.head_lt, advanced.tail_lt⟩
    · exact valid other inside

theorem Sock.recvToken_cases (ready : sock.RxReady)
    (delivers : ioctl.DeliversRx sock.port.rxBase sock.port.niRxRings) :
    (∃ index taken_from slot replaced, sock.rx.Obtains sock.port ioctl index taken_from ∧
        (taken_from.rxRing index).slots[(taken_from.rxRing index).head.toNat]? = some slot ∧
        (sock.pool.channel.pop.1 = none ∧ sock.recvToken ioctl = some (.error .noMemory,
            { sock.tookRx index taken_from replaced with pool := sock.pool.popped }) ∨
          ∃ free, sock.pool.channel.pop.1 = some free ∧ sock.recvToken ioctl =
            some (.ok (), sock.exchanged index taken_from replaced slot free))) ∨
      ((∀ index taken_from, ¬sock.rx.Obtains sock.port ioctl index taken_from) ∧
        (sock.recvToken ioctl = none ∨ ∃ synced ringIdx, sock.rx.next sock.port ≠ none ∧
          sock.port.sync ioctl = some synced ∧
          sock.recvToken ioctl = some (.error .noPacket,
            { sock with
              rx := { sock.rx with ringIdx := ringIdx, curRing := none }
              port := synced
              replaced := [] }))) := by
  rcases sock.recvToken_search ready.placed ready.valid delivers with
    ⟨index, taken_from, replaced, obtains, received⟩ | nothing
  · left
    rcases obtains.spec ready.valid delivers with ⟨valid, shape, present, -⟩
    have count : taken_from.niRxRings = sock.port.niRxRings := by
      rcases shape with ⟨rings, rfl⟩
      rfl
    rcases valid.slot (count ▸ present) with ⟨slot, slot_eq⟩
    refine ⟨index, taken_from, slot, replaced, obtains, slot_eq, ?_⟩
    rw [received]
    exact Sock.recvInner_tookRx slot_eq
  · exact Or.inr nothing

end Receive

/-! ## The calls of the transmitter -/

section Transmit

variable {port after : Port} {first second : Ioctl}

/-- The receive rings of the NIC are the same. -/
structure Port.SameRxRings (before after : Port) : Prop where
  shape : ∃ rings bufs, after = { before with rings := rings, bufs := bufs }
  rings_eq : ∀ index < before.niRxRings, after.rxRing index = before.rxRing index

theorem Port.SameRxRings.refl (port : Port) : port.SameRxRings port :=
  ⟨⟨port.rings, port.bufs, rfl⟩, fun _ _ => rfl⟩

theorem Port.SameRxRings.trans {before middle after : Port} (same : before.SameRxRings middle)
    (same' : middle.SameRxRings after) : before.SameRxRings after := by
  rcases same with ⟨⟨rings, bufs, rfl⟩, rings_eq⟩
  rcases same' with ⟨⟨rings', bufs', rfl⟩, rings_eq'⟩
  refine ⟨⟨rings', bufs', rfl⟩, ?_⟩
  intro index present
  rw [rings_eq' index present, rings_eq index present]

theorem Port.setRing_sameRxRings {pointer : ℕ} (transmit : pointer < port.niTxRings)
    (ring : NetmapRing) : port.SameRxRings (port.setRing pointer ring) := by
  refine ⟨⟨_, port.bufs, rfl⟩, ?_⟩
  intro index present
  have apart : port.rxBase + index ≠ pointer := by
    simp only [Port.rxBase]
    omega
  exact Function.update_of_ne apart ring port.rings

theorem Port.sync_sameRxRings {ioctl : Ioctl} (leaves : ioctl.LeavesRx port.rxBase port.niRxRings)
    (done : port.sync ioctl = some after) : port.SameRxRings after := by
  rcases Port.sync_eq_some done with ⟨kernel, answered, rfl⟩
  exact ⟨⟨_, port.bufs, rfl⟩, fun index present => leaves kernel answered port.rings index present⟩

/-- What a search of the transmitter leaves: the receive rings, and a slot of a transmit ring if it
has found one. -/
def Searched (found : Option TxBuf) (before after : Port) : Prop :=
  before.SameRxRings after ∧ ∀ buf, found = some buf → buf.pointer < after.niTxRings

theorem Searched.trans {found : Option TxBuf} {before middle : Port}
    (same : before.SameRxRings middle) (searched : Searched found middle after) :
    Searched found before after :=
  ⟨same.trans searched.1, searched.2⟩

theorem scan_searched {found : Option TxBuf} {tx tx' : Transmitter}
    (scanned : (tx.scan port).outcome = some (found, tx', after)) : Searched found port after := by
  induction tx, port using Transmitter.scan.induct with
  | case1 tx port outside =>
      rw [Transmitter.scan, outside] at scanned
      simp only [Option.some.injEq, Prod.mk.injEq] at scanned
      rcases scanned with ⟨rfl, -, rfl⟩
      exact ⟨.refl _, by simp⟩
  | case2 tx port pointer pointer_eq slot ring advanced =>
      have transmit := Port.rawTxRingAt_eq_some pointer_eq
      rw [Transmitter.scan, pointer_eq] at scanned
      simp only [advanced, Option.some.injEq, Prod.mk.injEq] at scanned
      rcases scanned with ⟨rfl, -, rfl⟩
      refine ⟨Port.setRing_sameRxRings transmit ring, ?_⟩
      rintro buf ⟨⟩
      exact transmit
  | case3 tx port pointer pointer_eq ring advanced past =>
      rw [Transmitter.scan, pointer_eq] at scanned
      simp only [advanced, if_pos past, Option.some.injEq, Prod.mk.injEq] at scanned
      rcases scanned with ⟨rfl, -, rfl⟩
      exact ⟨Port.setRing_sameRxRings (Port.rawTxRingAt_eq_some pointer_eq) ring, by simp⟩
  | case4 tx port pointer pointer_eq ring advanced more ih =>
      rw [Transmitter.scan, pointer_eq] at scanned
      simp only [advanced, if_neg more] at scanned
      exact .trans (Port.setRing_sameRxRings (Port.rawTxRingAt_eq_some pointer_eq) ring)
        (ih scanned)

theorem next_searched {found : Option TxBuf} {tx tx' : Transmitter}
    (leaves : first.LeavesRx port.rxBase port.niRxRings)
    (scanned : (tx.next port first).outcome = some (found, tx', after)) :
    Searched found port after := by
  rw [Transmitter.next_outcome, Option.bind_eq_some_iff] at scanned
  rcases scanned with ⟨readied, done, scanned⟩
  simp only [Transmitter.readied] at done
  split at done
  · simp only [Option.some.injEq] at done
    exact done ▸ scan_searched scanned
  · exact .trans (Port.sync_sameRxRings leaves done) (scan_searched scanned)

theorem Port.SameRxRings.leavesRx {ioctl : Ioctl} (same : port.SameRxRings after)
    (leaves : ioctl.LeavesRx port.rxBase port.niRxRings) :
    ioctl.LeavesRx after.rxBase after.niRxRings := by
  rcases same.shape with ⟨rings, bufs, rfl⟩
  exact leaves

theorem obtain_searched {found : Option TxBuf} {tx tx' : Transmitter}
    (leavesFirst : first.LeavesRx port.rxBase port.niRxRings)
    (leavesSecond : second.LeavesRx port.rxBase port.niRxRings)
    (scanned : (tx.obtain port first second).outcome = some (found, tx', after)) :
    Searched found port after := by
  rw [Transmitter.obtain_outcome, Option.bind_eq_some_iff] at scanned
  rcases scanned with ⟨⟨seen, between, passed⟩, searched, scanned⟩
  have start := next_searched leavesFirst searched
  cases seen with
  | some buf =>
      rcases scanned with ⟨⟩
      exact start
  | none =>
      simp only [Transmitter.reset, Option.bind_eq_some_iff, Option.map_eq_some_iff] at scanned
      rcases scanned with ⟨⟨restarted, synced⟩, ⟨_, done, ⟨⟩⟩, scanned⟩
      have fresh := start.1.trans (Port.sync_sameRxRings (start.1.leavesRx leavesSecond) done)
      exact .trans fresh (next_searched (fresh.leavesRx leavesFirst) scanned)

theorem send_sameRxRings {sock next : Sock} {packet : List UInt8} {result : Except Error Unit}
    (leavesFirst : first.LeavesRx sock.port.rxBase sock.port.niRxRings)
    (leavesSecond : second.LeavesRx sock.port.rxBase sock.port.niRxRings)
    (sent : sock.send packet first second = some (result, next)) :
    sock.port.SameRxRings next.port ∧ next.rx = sock.rx := by
  simp only [Sock.send, Option.bind_eq_some_iff] at sent
  rcases sent with ⟨⟨found, tx, after⟩, obtained, sent⟩
  rcases obtain_searched leavesFirst leavesSecond obtained with ⟨same, transmit⟩
  cases found with
  | none =>
      simp only [Option.some.injEq, Prod.mk.injEq] at sent
      rcases sent with ⟨-, rfl⟩
      exact ⟨same, rfl⟩
  | some buf =>
      have cleared := same.trans (Port.setRing_sameRxRings (transmit buf rfl)
        ((after.rings buf.pointer).updateSlot buf.slot .clearFlags))
      simp only [Sock.sendInner, Option.map_eq_some_iff] at sent
      rcases sent with ⟨slot, -, sent⟩
      split at sent
      all_goals
        simp only [Prod.mk.injEq] at sent
        rcases sent with ⟨-, rfl⟩
      · exact ⟨cleared, rfl⟩
      · refine ⟨cleared.trans ⟨⟨_, _, rfl⟩, fun _ _ => rfl⟩, rfl⟩

end Transmit

/-! ## Reachable states -/

section Ready

variable {sock next : Sock} {action : Action}

/-- What the kernel does to the receive rings during an action. -/
def KernelDelivers (sock : Sock) : Action → Prop
  | .recvToken ioctl | .recv ioctl => ioctl.DeliversRx sock.port.rxBase sock.port.niRxRings
  | .send _ first second => first.LeavesRx sock.port.rxBase sock.port.niRxRings ∧
      second.LeavesRx sock.port.rxBase sock.port.niRxRings
  | .flush ioctl => ioctl.LeavesRx sock.port.rxBase sock.port.niRxRings
  | .pool _ => True

theorem Port.SameRxRings.rxReady (same : sock.port.SameRxRings next.port)
    (same_rx : next.rx = sock.rx) (ready : sock.RxReady) : next.RxReady := by
  have rings_eq := same.rings_eq
  have shape := same.shape
  refine ⟨?_, ?_⟩
  · rw [same_rx]
    have placed := ready.placed
    rcases shape with ⟨rings, bufs, shape⟩
    rw [shape]
    exact placed
  · intro index present
    have count : next.port.niRxRings = sock.port.niRxRings := by
      rcases shape with ⟨rings, bufs, shape⟩
      rw [shape]
    rw [count] at present
    rw [rings_eq index present]
    exact ready.valid index present

theorem recvToken_rxReady {ioctl : Ioctl} {result : Except Error Unit} (ready : sock.RxReady)
    (delivers : ioctl.DeliversRx sock.port.rxBase sock.port.niRxRings)
    (received : sock.recvToken ioctl = some (result, next)) : next.RxReady := by
  rcases sock.recvToken_cases ready delivers with
    ⟨index, taken_from, slot, replaced, obtains, -, ⟨-, failed⟩ | ⟨free, -, succeeded⟩⟩ |
      ⟨-, null | ⟨synced, ringIdx, -, done, nothing⟩⟩
  · rw [failed, Option.some.injEq, Prod.mk.injEq] at received
    rcases received with ⟨-, rfl⟩
    have taken := (obtains.rxReady ready delivers replaced slot 0).1
    exact ⟨taken.placed, taken.valid⟩
  · rw [succeeded, Option.some.injEq, Prod.mk.injEq] at received
    rcases received with ⟨-, rfl⟩
    exact (obtains.rxReady ready delivers replaced slot free).2
  · simp [null] at received
  · rw [nothing, Option.some.injEq, Prod.mk.injEq] at received
    rcases received with ⟨-, rfl⟩
    exact ⟨Or.inl rfl, Port.sync_rxValid ready.valid delivers done⟩

theorem step_rxReady (ready : sock.RxReady) (kernel : KernelDelivers sock action)
    (stepped : sock.step action = some next) : next.RxReady := by
  cases action with
  | recvToken ioctl =>
      simp only [Sock.step, Option.map_eq_some_iff] at stepped
      rcases stepped with ⟨⟨result, _⟩, received, rfl⟩
      exact recvToken_rxReady ready kernel received
  | recv ioctl =>
      simp only [Sock.step, Option.map_eq_some_iff] at stepped
      rcases stepped with ⟨⟨result, _⟩, received, rfl⟩
      rcases Sock.recv_cases received with ⟨outcome, middle, token, ended⟩
      have ready' := recvToken_rxReady ready kernel token
      rcases ended with rfl | ⟨pool, -, rfl⟩
      · exact ready'
      · exact ⟨ready'.placed, ready'.valid⟩
  | send packet first second =>
      simp only [Sock.step, Option.map_eq_some_iff] at stepped
      rcases stepped with ⟨⟨result, _⟩, sent, rfl⟩
      rcases send_sameRxRings kernel.1 kernel.2 sent with ⟨same, same_rx⟩
      exact same.rxReady same_rx ready
  | flush ioctl =>
      simp only [Sock.step, Sock.flush, Option.map_eq_some_iff] at stepped
      rcases stepped with ⟨after, done, rfl⟩
      exact @Port.SameRxRings.rxReady sock { sock with port := after }
        (Port.sync_sameRxRings kernel done) rfl ready
  | pool action =>
      simp only [Sock.step, Option.map_eq_some_iff] at stepped
      rcases stepped with ⟨⟨pool, discards⟩, -, rfl⟩
      exact ⟨ready.placed, ready.valid⟩

end Ready

end Nethuns.Netmap
