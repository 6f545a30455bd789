import Nethuns.ArrayVec
import Nethuns.Error
import Nethuns.Lib.Run

/-!
# The DPDK transmitter

`Transmitter` keeps two arrays of at most `BURST_SIZE` = 32 entries: `bufs`, the mbufs that can
be handed out, and `ready_bufs`, the mbufs that wait for a burst. A send pops an mbuf from `bufs`,
fills it, and the reference to it appends it to `ready_bufs` when it is dropped, on success and
on error alike. `bufs` is restocked only when `ready_bufs` is found full. Dropping the iterator
bursts what is ready; this happens at the end of the statement that asks for the mbuf, before the
packet is written.

An mbuf is named by its address, and a null pointer in `bufs` is `none`. The NIC and the memory
pool are parameters of every call: how many mbufs each burst accepts, and which mbufs a bulk
allocation writes, or that it fails. The reference reaches the transmitter through the iterator
that made it, which is gone by then; the model takes the access to mean the transmitter itself.
Arithmetic on the `u16` and `u32` fields wraps, as in the release profile.
-/

namespace Nethuns.Dpdk

/-- The fields of `rte_mbuf` that the transmitter reads or writes, and its data room. -/
structure Mbuf where
  bufLen : UInt16
  dataOff : UInt16
  dataLen : UInt16
  pktLen : UInt32
  data : List UInt8
deriving DecidableEq

/-- What makes a call abort the process. -/
inductive Fault
  /-- `NonNull::new(buf).unwrap()` on a null pointer. -/
  | nullPointer
  /-- `bufs.pop().unwrap()` on an empty array. -/
  | emptyPop
  /-- The slice given to the bulk allocation has not the length it is told. -/
  | sliceLength
  /-- `ready_bufs.push` on a full array. -/
  | readyFull
  /-- `copy_from_slice` between slices of different lengths. -/
  | copyLength
deriving DecidableEq

/-- The fault is raised by the transmitter, not by the copy of the packet. -/
def Fault.inTransmitter : Fault → Bool
  | .copyLength => false
  | _ => true

/-- What the NIC and the memory pool do during a send. -/
structure Device where
  /-- How many mbufs the burst inside `advance` accepts at most. -/
  burst : ℕ
  /-- The mbufs written by `rte_pktmbuf_alloc_bulk`, or its failure. -/
  alloc : Option (ℕ → ℕ)
  /-- How many mbufs the burst at the drop of the iterator accepts at most. -/
  dropBurst : ℕ

structure Transmitter where
  bufs : ArrayVec (Option ℕ) 32
  readyBufs : ArrayVec ℕ 32
deriving DecidableEq

namespace Transmitter

/-- `Transmitter::new`, when the first bulk allocation succeeds. -/
def new (fresh : ℕ → ℕ) : Transmitter where
  bufs := ⟨(List.range 32).map fun lane => some (fresh lane), by simp⟩
  readyBufs := .new

/-- `Transmitter::flush`: the mbufs the burst accepts, and the transmitter without them. -/
def flush (tx : Transmitter) (accepted : ℕ) : List ℕ × Transmitter :=
  (tx.readyBufs.elems.take accepted, { tx with readyBufs := tx.readyBufs.drain accepted })

/-- `while !bufs.is_full() { bufs.push(null) }`. -/
def pad (bufs : ArrayVec (Option ℕ) 32) : ArrayVec (Option ℕ) 32 :=
  ⟨bufs.elems ++ List.replicate (32 - bufs.elems.length) none, by
    have := bufs.length_le
    simp only [List.length_append, List.length_replicate]
    omega⟩

/-- `for _ in 0..count { bufs.pop().unwrap() }`. -/
def popMany (bufs : ArrayVec (Option ℕ) 32) (count : ℕ) :
    Except Fault (ArrayVec (Option ℕ) 32) :=
  if count ≤ bufs.elems.length then
    .ok ⟨bufs.elems.take (bufs.elems.length - count), by
      have := bufs.length_le
      simp only [List.length_take]
      omega⟩
  else
    .error .emptyPop

/-- The bulk allocation writes its mbufs over `bufs[oldLen..]`. -/
def restock (bufs : ArrayVec (Option ℕ) 32) (oldLen : ℕ) (fresh : ℕ → ℕ) :
    ArrayVec (Option ℕ) 32 :=
  ⟨bufs.elems.take oldLen ++
      (List.range (bufs.elems.length - oldLen)).map fun lane => some (fresh lane), by
    have := bufs.length_le
    simp only [List.length_append, List.length_take, List.length_map, List.length_range]
    omega⟩

/-- `bufs.pop().map(|buf| NonNull::new(buf).unwrap())`. -/
def popBuf (tx : Transmitter) : Except Fault (Option ℕ × Transmitter) :=
  match tx.bufs.pop with
  | (none, _) => .ok (none, tx)
  | (some none, _) => .error .nullPointer
  | (some (some mbuf), bufs) => .ok (some mbuf, { tx with bufs := bufs })

/-- `TransmitterIterMut::advance`: also the mbufs its burst accepted and those it allocated. -/
def advance (tx : Transmitter) (device : Device) :
    Except Fault (Option ℕ × Transmitter × List ℕ × List ℕ) :=
  if tx.readyBufs.isFull then
    let (sent, tx) := tx.flush device.burst
    let oldLen := tx.readyBufs.len
    let canAsk := 32 - oldLen
    let bufs := pad tx.bufs
    if bufs.elems.length - oldLen ≠ canAsk then
      .error .sliceLength
    else
      match device.alloc with
      | none =>
          match popMany bufs canAsk with
          | .error fault => .error fault
          | .ok bufs => .ok (none, { tx with bufs := bufs }, sent, [])
      | some fresh =>
          match popBuf { tx with bufs := restock bufs oldLen fresh } with
          | .error fault => .error fault
          | .ok (mbuf, tx) => .ok (mbuf, tx, sent, (List.range canAsk).map fresh)
  else
    match tx.popBuf with
    | .error fault => .error fault
    | .ok (mbuf, tx) => .ok (mbuf, tx, [], [])

/-- `RteMBufRef::drop`: appends the mbuf to `ready_bufs`, which panics when it is full. -/
def pushReady (tx : Transmitter) (mbuf : ℕ) : Except Fault Transmitter :=
  match tx.readyBufs.tryPush mbuf with
  | none => .error .readyFull
  | some readyBufs => .ok { tx with readyBufs := readyBufs }

end Transmitter

/-- The transmitting side of a socket: the transmitter and the memory of the mbufs. -/
structure Sock where
  tx : Transmitter
  mbufs : ℕ → Mbuf

/-- A new socket: the first allocation stocked the transmitter. -/
def Sock.create (fresh : ℕ → ℕ) (mbufs : ℕ → Mbuf) : Sock := ⟨.new fresh, mbufs⟩

/-- A freshly allocated mbuf holds no data. -/
def Mbuf.reset (mbuf : Mbuf) : Mbuf := { mbuf with dataLen := 0, pktLen := 0 }

/-- `Sock::send_inner` on the mbuf: the length is narrowed to `u16` before it is checked. -/
def Mbuf.fill (mbuf : Mbuf) (packet : List UInt8) : Except Fault (Mbuf × Except Error Unit) :=
  let len := UInt16.ofNat packet.length
  if len > mbuf.bufLen then
    .ok (mbuf, .error (.tooBigPacket len.toNat))
  else if len.toNat ≠ packet.length then
    .error .copyLength
  else
    .ok ({ mbuf with
        dataOff := 0
        dataLen := mbuf.dataLen + len
        pktLen := mbuf.pktLen + len.toUInt32
        data := packet ++ mbuf.data.drop packet.length }, .ok ())

namespace Sock

/-- The outcome of a call: the socket, the result, and the mbufs that the NIC accepted. -/
structure Outcome where
  sock : Sock
  result : Except Error Unit
  burst : List Mbuf

def send (sock : Sock) (packet : List UInt8) (device : Device) : Except Fault Outcome :=
  match sock.tx.advance device with
  | .error fault => .error fault
  | .ok (scan, tx, sent, fresh) =>
      -- The mbufs sent were read before the allocation could reuse their addresses.
      let wire := sent.map sock.mbufs
      let mbufs := fun mbuf => if mbuf ∈ fresh then (sock.mbufs mbuf).reset else sock.mbufs mbuf
      let (sentAtDrop, tx) := tx.flush device.dropBurst
      let wire := wire ++ sentAtDrop.map mbufs
      match scan with
      | none => .ok ⟨⟨tx, mbufs⟩, .error .noPacket, wire⟩
      | some mbuf =>
          match (mbufs mbuf).fill packet with
          | .error fault => .error fault
          | .ok (filled, result) =>
              match tx.pushReady mbuf with
              | .error fault => .error fault
              | .ok tx => .ok ⟨⟨tx, Function.update mbufs mbuf filled⟩, result, wire⟩

def flush (sock : Sock) (accepted : ℕ) : Outcome :=
  let (sent, tx) := sock.tx.flush accepted
  ⟨⟨tx, sock.mbufs⟩, .ok (), sent.map sock.mbufs⟩

end Sock

/-- A call on the socket, with what the device does during it. -/
inductive Call
  | send (packet : List UInt8) (device : Device)
  | flush (accepted : ℕ)

/-- Performs a call; `none` when it aborts the process. -/
def Sock.step (sock : Sock) (call : Call) : Option Sock :=
  match call with
  | .send packet device =>
      match sock.send packet device with
      | .error _ => none
      | .ok outcome => some outcome.sock
  | .flush accepted => some (sock.flush accepted).sock

end Nethuns.Dpdk
