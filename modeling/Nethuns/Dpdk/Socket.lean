import Nethuns.Api.Pool
import Nethuns.Dpdk.Receiver
import Nethuns.Dpdk.Transmitter

/-!
# The DPDK socket

The whole socket: the transmitting side, the receiver, the free channel with the tokens and the
payloads of the users, and the two owners of mbufs outside of it, the memory pool and the NIC. A
payload that is dropped releases its mbuf into the free channel; from there the socket frees the
mbufs in bulk when a receive finds no packet.

A send holds the mbuf that it was given in a reference until it returns. The model splits it
there, into `sendNext` and `sendFinish`: other threads and the NIC can act in between, the
socket itself cannot. The NIC takes mbufs from the memory pool to receive into them and frees
those that it has transmitted; during a call it does so at the given places, and all its other
steps can be moved before or after the call.
-/

namespace Nethuns.Dpdk

open Nethuns.Lib Nethuns.Mpsc Nethuns.Api

/-- `Sock`, with the memory pool and the NIC. -/
structure Socket where
  /-- The transmitter and the memory of the mbufs. -/
  out : Sock
  rx : Receiver
  pool : Pool
  mempool : Multiset ℕ
  nic : Multiset ℕ
  /-- The mbuf of the `RteMBufRef` of a send that has not returned. -/
  outstanding : Option ℕ

/-- A step of the NIC. -/
inductive NicAction
  /-- It takes an mbuf to receive into. -/
  | provide (mbuf : ℕ)
  /-- It frees an mbuf. -/
  | free (mbuf : ℕ)
deriving DecidableEq

/-- What the NIC and the memory pool do during a receive: two bursts, each used only when it takes
place, with what the NIC does after the bulk free. -/
structure RxDevice where
  first : List (ℕ × Mbuf)
  afterFree : List NicAction
  second : List (ℕ × Mbuf)

namespace Socket

def nicStep (socket : Socket) : NicAction → Option Socket
  | .provide mbuf =>
      if mbuf ∈ socket.mempool then
        some { socket with mempool := socket.mempool.erase mbuf, nic := mbuf ::ₘ socket.nic }
      else
        none
  | .free mbuf =>
      if mbuf ∈ socket.nic then
        some { socket with mempool := mbuf ::ₘ socket.mempool, nic := socket.nic.erase mbuf }
      else
        none

/-! ## Receiving -/

/-- The memory of the mbufs after the packets of a burst were written. -/
def writeMbufs (mbufs : ℕ → Mbuf) (delivered : List (ℕ × Mbuf)) : ℕ → Mbuf :=
  delivered.foldl (fun mbufs packet => Function.update mbufs packet.1 packet.2) mbufs

/-- `ReceiverIterMut::next`, when the NIC can deliver the burst: at most `BURST_SIZE` of its own
mbufs. -/
def rxNext (socket : Socket) (delivered : List (ℕ × Mbuf)) : Option (Option ℕ × Socket) :=
  let burst := if socket.rx.Exhausted then delivered else []
  if burst.length ≤ 32 ∧ ↑(burst.map Prod.fst) ≤ socket.nic then
    match socket.rx.advance (burst.map Prod.fst) with
    | .error _ => none
    | .ok (found, rx) =>
        some (found, { socket with
          rx := rx
          nic := socket.nic - ↑(burst.map Prod.fst)
          out := { socket.out with mbufs := writeMbufs socket.out.mbufs burst } })
  else
    none

/-- `Sock::recv_inner`. -/
def recvInner (socket : Socket) (mbuf : ℕ) : Socket :=
  { socket with pool := socket.pool.give mbuf (socket.out.mbufs mbuf).dataLen.toUInt32 }

/-- `Sock::flush_to_memory_pool`. -/
def flushToMemoryPool (socket : Socket) : Socket :=
  let channel := socket.pool.channel.sync
  { socket with
    mempool := socket.mempool + ↑channel.cached.elems
    pool := { socket.pool with channel := { channel with cached := .new } } }

/-- `Sock::recv_token`. -/
def recvToken (socket : Socket) (device : RxDevice) : Option (Except Error Unit × Socket) :=
  (socket.rxNext device.first).bind fun (found, socket) =>
    match found with
    | some mbuf => some (.ok (), socket.recvInner mbuf)
    | none =>
        (run nicStep socket.flushToMemoryPool device.afterFree).bind fun socket =>
          (socket.rxNext device.second).map fun (found, socket) =>
            match found with
            | some mbuf => (.ok (), socket.recvInner mbuf)
            | none => (.error .noPacket, socket)

/-- `Socket::recv`: the token is consumed at once, through the context of the socket. -/
def recv (socket : Socket) (device : RxDevice) : Option (Except Error Unit × Socket) :=
  (socket.recvToken device).bind fun (result, socket) =>
    match result with
    | .error error => some (.error error, socket)
    | .ok () =>
        (socket.pool.consume (socket.pool.tokens.length - 1) 0).map fun pool =>
          (.ok (), { socket with pool := pool })

/-! ## Sending -/

/-- The first half of `Sock::send`, to the drop of the iterator: what the NIC does after the
burst inside `advance` comes before the bulk allocation, which takes mbufs of the memory pool. -/
def sendNext (socket : Socket) (device : Device) (afterBurst : List NicAction) : Option Socket :=
  match socket.out.tx.advance device with
  | .error _ => none
  | .ok (scan, tx, sent, fresh) =>
      (run nicStep { socket with nic := socket.nic + ↑sent } afterBurst).bind fun socket =>
        if ↑fresh ≤ socket.mempool then
          let (sentAtDrop, tx) := tx.flush device.dropBurst
          some { socket with
            out := ⟨tx, fun mbuf =>
              if mbuf ∈ fresh then (socket.out.mbufs mbuf).reset else socket.out.mbufs mbuf⟩
            mempool := socket.mempool - ↑fresh
            nic := socket.nic + ↑sentAtDrop
            outstanding := scan }
        else
          none

/-- The second half of `Sock::send`: `send_inner`, and the drop of the reference. -/
def sendFinish (socket : Socket) (packet : List UInt8) : Option (Except Error Unit × Socket) :=
  socket.outstanding.bind fun mbuf =>
    match (socket.out.mbufs mbuf).fill packet with
    | .error _ => none
    | .ok (filled, result) =>
        match socket.out.tx.pushReady mbuf with
        | .error _ => none
        | .ok tx =>
            some (result, { socket with
              out := ⟨tx, Function.update socket.out.mbufs mbuf filled⟩
              outstanding := none })

/-- `Sock::flush`. -/
def flush (socket : Socket) (accepted : ℕ) : Socket :=
  let (sent, tx) := socket.out.tx.flush accepted
  { socket with out := ⟨tx, socket.out.mbufs⟩, nic := socket.nic + ↑sent }

/-! ## Creation -/

/-- `Sock::create`: the transmitter allocates its first mbufs, and all the mbufs that can then
still be allocated are pushed into the free channel, which is not flushed. -/
def create (mempool nic : Multiset ℕ) (mbufs : ℕ → Mbuf) (fresh : ℕ → ℕ) (allocs : List ℕ)
    (numMbufs : ℕ) (index : UInt32) (site : Site) : Option Socket :=
  if ↑((List.range 32).map fresh) + ↑allocs ≤ mempool then
    ((channel numMbufs).pushAll 0 site allocs).map fun (channel, _) =>
      { out := .create fresh mbufs
        rx := .new
        pool := { channel := channel, index := index, tokens := [], payloads := [] }
        mempool := mempool - (↑((List.range 32).map fresh) + ↑allocs)
        nic := nic
        outstanding := none }
  else
    none

end Socket

/-- A call that the thread of the socket makes when it is not inside a send. -/
inductive SockCall
  | recvToken (device : RxDevice)
  | recv (device : RxDevice)
  | sendNext (device : Device) (afterBurst : List NicAction)
  | flush (accepted : ℕ)
  | flushToMemoryPool

/-- A call on the socket, the rest of a send, an action of the users, or a step of the NIC. -/
inductive SocketAction
  | call (call : SockCall)
  | sendFinish (packet : List UInt8)
  | pool (action : PoolAction)
  | nic (action : NicAction)

namespace Socket

def perform (socket : Socket) : SockCall → Option Socket
  | .recvToken device => (socket.recvToken device).map Prod.snd
  | .recv device => (socket.recv device).map Prod.snd
  | .sendNext device afterBurst => socket.sendNext device afterBurst
  | .flush accepted => some (socket.flush accepted)
  | .flushToMemoryPool => some socket.flushToMemoryPool

/-- Performs one action; `none` when it panics, or when the NIC or the memory pool cannot do
that. -/
def step (socket : Socket) : SocketAction → Option Socket
  | .call call => if socket.outstanding.isNone then socket.perform call else none
  | .sendFinish packet => (socket.sendFinish packet).map Prod.snd
  | .pool action => (socket.pool.step action).map fun (pool, _) => { socket with pool := pool }
  | .nic action => socket.nicStep action

/-- When nothing happens in between, the two halves of a send are the send; without an mbuf the
first half is all of it. -/
theorem send_of_sendNext {socket middle : Socket} {device : Device} {packet : List UInt8}
    (started : socket.sendNext device [] = some middle) :
    (middle.outstanding = none → ∃ burst,
        socket.out.send packet device = .ok ⟨middle.out, .error .noPacket, burst⟩) ∧
      ∀ result final, middle.sendFinish packet = some (result, final) → ∃ burst,
        socket.out.send packet device = .ok ⟨final.out, result, burst⟩ := by
  simp only [sendNext, run_nil, Option.bind_some] at started
  cases advanced : socket.out.tx.advance device with
  | error fault => simp [advanced] at started
  | ok outcome =>
      rcases outcome with ⟨scan, tx, sent, fresh⟩
      simp only [advanced] at started
      split at started
      · simp only [Option.some.injEq] at started
        subst middle
        constructor
        · intro nothing
          simp only at nothing
          subst scan
          exact ⟨_, by simp only [Sock.send, advanced]; rfl⟩
        · intro result final finished
          cases scan with
          | none => simp [sendFinish] at finished
          | some mbuf =>
              simp only [sendFinish, Option.bind_some] at finished
              split at finished
              · simp at finished
              · rename_i filled written
                split at finished
                · simp at finished
                · rename_i pushed
                  simp only [Option.some.injEq, Prod.mk.injEq] at finished
                  rcases finished with ⟨rfl, rfl⟩
                  exact ⟨_, by simp only [Sock.send, advanced, written, pushed]; rfl⟩
      · simp at started

end Socket

end Nethuns.Dpdk
