import Nethuns.ArrayVec
import Mathlib.Algebra.Group.Nat.Defs
import Mathlib.Logic.Function.Basic

/-!
# Netmap ports, transmitters and receivers

A port is what `nmport_open_desc` maps: the rings of the interface, in the order of `ring_ofs`
(first the transmit rings of the NIC, then those of the host, then the receive rings), the
buffers, and the interval of rings that the port is bound to. A ring pointer is the position in
`ring_ofs`, and the null pointer is `none`.

The kernel works on the rings only during the two `ioctl` calls; what it does then is a
parameter, and so is that a call fails, which panics. A function returns `none` when it panics.
Timestamps are left out.
-/

namespace Nethuns.Netmap

/-- `netmap_slot`. -/
structure Slot where
  bufIdx : UInt32
  len : UInt16
  flags : UInt16
  ptr : UInt64
deriving DecidableEq

/-- `NS_BUF_CHANGED`. -/
def nsBufChanged : UInt16 := 0x0001

/-- `RawSlot::update_buffer`. -/
def Slot.updateBuffer (slot : Slot) (f : UInt32 → UInt32) : Slot :=
  { slot with bufIdx := f slot.bufIdx, flags := slot.flags ||| nsBufChanged }

/-- `TxBuf::drop` on its slot. -/
def Slot.clearFlags (slot : Slot) : Slot := { slot with flags := 0 }

/-- `netmap_ring`, with its array of slots. -/
structure NetmapRing where
  numSlots : UInt32
  head : UInt32
  cur : UInt32
  tail : UInt32
  slots : List Slot
  length_slots : slots.length = numSlots.toNat
deriving DecidableEq

namespace NetmapRing

/-- `RingIterMut::next`: the position of the slot. The head moves on even when it does not point
at a slot of the ring. -/
def next (ring : NetmapRing) : Option ℕ × NetmapRing :=
  if ring.head = ring.tail then
    (none, ring)
  else
    let idx := ring.head
    let nextIdx := if idx + 1 = ring.numSlots then 0 else idx + 1
    (if idx.toNat < ring.slots.length then some idx.toNat else none,
      { ring with head := nextIdx, cur := nextIdx })

def updateSlot (ring : NetmapRing) (position : ℕ) (f : Slot → Slot) : NetmapRing :=
  { ring with
    slots := ring.slots.modify position f
    length_slots := by simpa using ring.length_slots }

end NetmapRing

/-- What the kernel does to the rings during an `ioctl`; `none` when the call fails. -/
abbrev Ioctl := Option ((ℕ → NetmapRing) → ℕ → NetmapRing)

structure Port where
  niTxRings : ℕ
  niHostTxRings : ℕ
  niRxRings : ℕ
  niHostRxRings : ℕ
  firstTxRing : UInt16
  lastTxRing : UInt16
  firstRxRing : UInt16
  lastRxRing : UInt16
  /-- Head of the chain of extra buffers. -/
  niBufsHead : UInt32
  /-- `nr_buf_size` of `a_ring`. -/
  nrBufSize : ℕ
  /-- The rings behind `ring_ofs`. -/
  rings : ℕ → NetmapRing
  /-- The bytes of the buffers, by index. -/
  bufs : ℕ → List UInt8

namespace Port

def rawTxRingAt (port : Port) (index : ℕ) : Option ℕ :=
  if index ≥ port.niTxRings then none else some index

def rawRxRingAt (port : Port) (index : ℕ) : Option ℕ :=
  if index ≥ port.niRxRings then none else some (port.niTxRings + port.niHostTxRings + index)

/-- `Port::tx_sync` and `Port::rx_sync`: the rings as the `ioctl` leaves them. -/
def sync (port : Port) (ioctl : Ioctl) : Option Port :=
  Option.map (fun kernel => { port with rings := kernel port.rings }) ioctl

theorem sync_eq_some {port synced : Port} {ioctl : Ioctl} (done : port.sync ioctl = some synced) :
    ∃ kernel, ioctl = some kernel ∧ synced = { port with rings := kernel port.rings } := by
  simp only [sync, Option.map_eq_some_iff] at done
  rcases done with ⟨kernel, answered, rfl⟩
  exact ⟨kernel, answered, rfl⟩

def setRing (port : Port) (pointer : ℕ) (ring : NetmapRing) : Port :=
  { port with rings := Function.update port.rings pointer ring }

/-- The slot behind a reference. -/
def slot? (port : Port) (pointer position : ℕ) : Option Slot :=
  (port.rings pointer).slots[position]?

def updateSlot (port : Port) (pointer position : ℕ) (f : Slot → Slot) : Port :=
  port.setRing pointer ((port.rings pointer).updateSlot position f)

/-- The `u32` at the start of a buffer, in the byte order of the machine. -/
def readU32 (bytes : List UInt8) : UInt32 :=
  .ofNat (((bytes.getD 3 0).toNat * 256 + (bytes.getD 2 0).toNat) * 65536 +
    (bytes.getD 1 0).toNat * 256 + (bytes.getD 0 0).toNat)

/-- The loop of `Port::extra_buffers_indexes`; `none` when the chain does not end in the given
number of steps. -/
def walkChain (port : Port) (scan : UInt32) : ℕ → Option (List UInt32)
  | 0 => none
  | steps + 1 =>
      if scan = 0 then
        some []
      else
        (port.walkChain (readU32 (port.bufs scan.toNat)) steps).map (scan :: ·)

/-- `Port::extra_buffers_indexes`. A chain that has not ended after `2 ^ 32` steps goes round in
circles, and the loop of the source does not end. -/
def extraBuffersIndexes (port : Port) : Option (List UInt32 × Port) :=
  (port.walkChain port.niBufsHead (2 ^ 32)).map fun indexes =>
    (indexes, { port with niBufsHead := 0 })

end Port

/-- `TxBuf`: the slot, by its ring pointer and position, and the ring index. -/
structure TxBuf where
  pointer : ℕ
  slot : ℕ
  ringIdx : UInt16
deriving DecidableEq

structure Transmitter where
  synced : Bool
  lastTxRing : ℕ
  ringIdx : ℕ
deriving DecidableEq

/-- What a call on the transmitter does: the ring indices it accesses, and the outcome unless
the call panics. -/
structure Visit where
  accessed : List ℕ
  outcome : Option (Option TxBuf × Transmitter × Port)

namespace Transmitter

def new (port : Port) : Transmitter where
  synced := false
  lastTxRing := port.lastTxRing.toNat
  ringIdx := port.firstTxRing.toNat

/-- The loop of `TransmitterIterMut::next`. -/
def scan (tx : Transmitter) (port : Port) : Visit :=
  match port.rawTxRingAt tx.ringIdx with
  | none => ⟨[], some (none, tx, port)⟩
  | some pointer =>
      match (port.rings pointer).next with
      | (some slot, ring) =>
          ⟨[tx.ringIdx],
            some (some ⟨pointer, slot, .ofNat tx.ringIdx⟩, tx, port.setRing pointer ring)⟩
      | (none, ring) =>
          if tx.ringIdx + 1 > tx.lastTxRing then
            ⟨[tx.ringIdx],
              some (none, { tx with ringIdx := tx.ringIdx + 1 }, port.setRing pointer ring)⟩
          else
            let rest := { tx with ringIdx := tx.ringIdx + 1 }.scan (port.setRing pointer ring)
            ⟨tx.ringIdx :: rest.accessed, rest.outcome⟩
termination_by tx.lastTxRing - tx.ringIdx

/-- `TransmitterIterMut::next`. -/
def next (tx : Transmitter) (port : Port) (ioctl : Ioctl) : Visit :=
  if tx.synced then
    tx.scan port
  else
    match port.sync ioctl with
    | none => ⟨[], none⟩
    | some port => { tx with synced := true }.scan port

def reset (tx : Transmitter) (port : Port) (ioctl : Ioctl) : Option (Transmitter × Port) :=
  (port.sync ioctl).map fun synced => ({ tx with ringIdx := port.firstTxRing.toNat }, synced)

/-- How `Sock::send` looks for a slot: after a failed scan it resets and scans again. -/
def obtain (tx : Transmitter) (port : Port) (first second : Ioctl) : Visit :=
  let visit := tx.next port first
  match visit.outcome with
  | none => visit
  | some (some _, _, _) => visit
  | some (none, tx, port) =>
      match tx.reset port second with
      | none => ⟨visit.accessed, none⟩
      | some (tx, port) =>
          let again := tx.next port first
          ⟨visit.accessed ++ again.accessed, again.outcome⟩

end Transmitter

structure RxBuf where
  pointer : ℕ
  slot : ℕ
  ringIdx : UInt16
deriving DecidableEq

structure Receiver where
  lastRxRing : ℕ
  ringIdx : ℕ
  curRing : Option ℕ
deriving DecidableEq

namespace Receiver

/-- `Receiver::new`, after its `rx_sync`. -/
def new (port : Port) : Receiver where
  lastRxRing := port.lastRxRing.toNat
  ringIdx := port.firstRxRing.toNat
  curRing := port.rawRxRingAt port.firstRxRing.toNat

/-- The loop of `ReceiverIterMut::next`, at a ring pointer: `none` is the access through the null
pointer that `raw_rx_ring_at` gives for a ring that the NIC does not have. -/
def scan (rx : Receiver) (port : Port) : Option (Option RxBuf × Receiver × Port) :=
  match rx.curRing with
  | none => none
  | some pointer =>
      match (port.rings pointer).next with
      | (some slot, ring) =>
          some (some ⟨pointer, slot, .ofNat rx.ringIdx⟩, rx, port.setRing pointer ring)
      | (none, ring) =>
          if rx.ringIdx + 1 > rx.lastRxRing then
            some (none, { rx with ringIdx := rx.ringIdx + 1, curRing := none },
              port.setRing pointer ring)
          else
            { rx with
                ringIdx := rx.ringIdx + 1
                curRing := port.rawRxRingAt (rx.ringIdx + 1) }.scan (port.setRing pointer ring)
termination_by rx.lastRxRing - rx.ringIdx

/-- `ReceiverIterMut::next`. -/
def next (rx : Receiver) (port : Port) : Option (Option RxBuf × Receiver × Port) :=
  if rx.curRing = none then some (none, rx, port) else rx.scan port

def reset (rx : Receiver) (port : Port) (ioctl : Ioctl) : Option (Receiver × Port) :=
  (port.sync ioctl).map fun synced =>
    ({ rx with
        ringIdx := port.firstRxRing.toNat
        curRing := port.rawRxRingAt port.firstRxRing.toNat }, synced)

end Receiver

end Nethuns.Netmap
