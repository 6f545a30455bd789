import Nethuns.Api.Pool
import Nethuns.Error
import Nethuns.Netmap.Port

/-!
# The netmap socket

A receive exchanges the buffer of a slot for a free one and hands the old buffer out as a token;
a send writes the packet into the buffer that the slot has. The state of a socket includes the
port it works on and the tokens and payloads of its users, so that all the places where a buffer
can be are in one state. It also records which receive slots had their buffer replaced since the
last `NIOCRXSYNC`, which the code does not.
-/

namespace Nethuns.Netmap

open Nethuns.Mpsc Nethuns.Api

/-- `Sock`, with its port and its users. -/
structure Sock where
  port : Port
  tx : Transmitter
  rx : Receiver
  pool : Pool
  /-- The receive slots whose buffer was replaced since the last `NIOCRXSYNC`, by ring pointer
  and position. -/
  replaced : List (ℕ × ℕ)

/-- `Ctx::new`: the channel with the extra buffers. The final flush is what the source does. -/
def Ctx.new (indexes : List UInt32) (index : UInt32) (site : Site) : Option Pool :=
  ((channel indexes.length).pushAll 0 site (indexes.map UInt32.toNat)).bind fun (filled, _) =>
    (filled.flush 0 site).map fun (flushed, _) =>
      { channel := flushed, index := index, tokens := [], payloads := [] }

namespace Sock

/-- `Sock::create` on an open port; `Receiver::new` synchronizes it. -/
def create (port : Port) (ioctl : Ioctl) (index : UInt32) (site : Site) : Option Sock :=
  port.extraBuffersIndexes.bind fun (extraBufs, port) =>
    (port.sync ioctl).bind fun synced =>
      (Ctx.new extraBufs index site).map fun pool =>
        { port := synced
          tx := .new port
          rx := .new synced
          pool := pool
          replaced := [] }

/-- `Sock::send_inner`, with the drop of the `TxBuf` that clears the flags of the slot. -/
def sendInner (sock : Sock) (buf : TxBuf) (packet : List UInt8) :
    Option (Except Error Unit × Sock) :=
  (sock.port.slot? buf.pointer buf.slot).map fun slot =>
    let port := sock.port.updateSlot buf.pointer buf.slot .clearFlags
    let token := slot.bufIdx.toNat
    if packet.length > port.nrBufSize then
      (.error (.tooBigPacket packet.length), { sock with port := port })
    else
      let bytes := packet ++ (port.bufs token).drop packet.length
      (.ok (), { sock with port := { port with bufs := Function.update port.bufs token bytes } })

def send (sock : Sock) (packet : List UInt8) (first second : Ioctl) :
    Option (Except Error Unit × Sock) :=
  (sock.tx.obtain sock.port first second).outcome.bind fun (found, tx, port) =>
    let sock := { sock with tx := tx, port := port }
    match found with
    | none => some (.error .noMemory, sock)
    | some buf => sock.sendInner buf packet

def flush (sock : Sock) (ioctl : Ioctl) : Option Sock :=
  (sock.port.sync ioctl).map fun port => { sock with port := port }

/-- `Sock::recv_inner`: without a free buffer the slot keeps its buffer, although the ring has
moved past it. -/
def recvInner (sock : Sock) (buf : RxBuf) : Option (Except Error Unit × Sock) :=
  (sock.port.slot? buf.pointer buf.slot).map fun slot =>
    match sock.pool.channel.pop with
    | (none, channel) =>
        (.error .noMemory, { sock with pool := { sock.pool with channel := channel } })
    | (some freeIdx, channel) =>
        (.ok (),
          { sock with
            port := sock.port.updateSlot buf.pointer buf.slot fun slot =>
              slot.updateBuffer fun _ => .ofNat freeIdx
            pool := { sock.pool with channel := channel }.give slot.bufIdx.toNat
              slot.len.toUInt32
            replaced := (buf.pointer, buf.slot) :: sock.replaced })

/-- `Sock::recv_token`: after a failed scan the receiver is reset, which synchronizes it. -/
def recvToken (sock : Sock) (ioctl : Ioctl) : Option (Except Error Unit × Sock) :=
  (sock.rx.next sock.port).bind fun (found, rx, port) =>
    match found with
    | some buf => { sock with rx := rx, port := port }.recvInner buf
    | none =>
        (rx.reset port ioctl).bind fun (rx, port) =>
          (rx.next port).bind fun (found, rx, port) =>
            let sock := { sock with rx := rx, port := port, replaced := [] }
            match found with
            | none => some (.error .noPacket, sock)
            | some buf => sock.recvInner buf

/-- `Socket::recv`: the token is consumed at once, through the context of the socket. -/
def recv (sock : Sock) (ioctl : Ioctl) : Option (Except Error Unit × Sock) :=
  (sock.recvToken ioctl).bind fun (result, sock) =>
    match result with
    | .error error => some (.error error, sock)
    | .ok () =>
        (sock.pool.consume (sock.pool.tokens.length - 1) 0).map fun pool =>
          (.ok (), { sock with pool := pool })

end Sock

/-- A call on the socket or an action of its users. -/
inductive Action
  | recvToken (ioctl : Ioctl)
  | recv (ioctl : Ioctl)
  | send (packet : List UInt8) (first second : Ioctl)
  | flush (ioctl : Ioctl)
  | pool (action : PoolAction)

/-- Performs one action; `none` when it panics. -/
def Sock.step (sock : Sock) : Action → Option Sock
  | .recvToken ioctl => (sock.recvToken ioctl).map Prod.snd
  | .recv ioctl => (sock.recv ioctl).map Prod.snd
  | .send packet first second => (sock.send packet first second).map Prod.snd
  | .flush ioctl => sock.flush ioctl
  | .pool action => (sock.pool.step action).map fun (pool, _) => { sock with pool := pool }

namespace Sock

variable {sock next : Sock} {ioctl : Ioctl}

theorem create_cases {port : Port} {index : UInt32} {site : Site}
    (created : create port ioctl index site = some sock) :
    ∃ extra synced pool,
      port.extraBuffersIndexes = some (extra, { port with niBufsHead := 0 }) ∧
      { port with niBufsHead := 0 }.sync ioctl = some synced ∧
      Ctx.new extra index site = some pool ∧
      sock = ⟨synced, .new { port with niBufsHead := 0 }, .new synced, pool, []⟩ := by
  simp only [create, Option.bind_eq_some_iff, Option.map_eq_some_iff] at created
  rcases created with ⟨⟨extra, taken⟩, chain, synced, done, pool, filled, rfl⟩
  have walked := chain
  simp only [Port.extraBuffersIndexes, Option.map_eq_some_iff, Prod.mk.injEq] at walked
  rcases walked with ⟨_, -, -, rfl⟩
  exact ⟨extra, synced, pool, chain, done, filled, rfl⟩

/-- A receive is a `recv_token`, and an action of the users when this succeeds. -/
theorem recv_cases {result : Except Error Unit}
    (received : sock.recv ioctl = some (result, next)) :
    ∃ outcome middle, sock.recvToken ioctl = some (outcome, middle) ∧
      (next = middle ∨
        ∃ pool, middle.pool.step (.consume (middle.pool.tokens.length - 1) 0) = some (pool, []) ∧
          next = { middle with pool := pool }) := by
  simp only [recv, Option.bind_eq_some_iff] at received
  rcases received with ⟨⟨outcome, middle⟩, token, received⟩
  refine ⟨outcome, middle, token, ?_⟩
  cases outcome with
  | error error =>
      simp only [Option.some.injEq, Prod.mk.injEq] at received
      exact Or.inl received.2.symm
  | ok =>
      simp only [Option.map_eq_some_iff, Prod.mk.injEq] at received
      rcases received with ⟨pool, consumed, -, rfl⟩
      exact Or.inr ⟨pool, by simp [Pool.step, consumed], rfl⟩

end Sock

end Nethuns.Netmap
