import Nethuns.AfXdp.TxRing
import Nethuns.Api.Pool
import Nethuns.Error
import Nethuns.Lib.Bytes

/-!
# The AF_XDP socket

A socket shares four rings with the kernel. Free frames go to the kernel through the fill ring
and come back with a packet through the receive ring; frames to send go through the transmit
ring and come back through the completion ring. The state includes the frames that the kernel
has, and the tokens and payloads of the users, so that all the places where a frame can be are in
one state.

The kernel runs beside the calls of the socket. A call that reads a counter of the kernel after
it has made something visible to the kernel takes the list of the kernel's steps in between; all
other kernel steps can be moved before or after the call. The statistics, which nothing reads,
are left out.
-/

namespace Nethuns.AfXdp

open Nethuns.Lib Nethuns.Mpsc Nethuns.Api

/-- The fields of `AfXdpFlags` that the modelled code reads. -/
structure AfXdpFlags where
  numFrames : UInt32
  frameSize : UInt32
deriving DecidableEq

/-- `Sock`, with the UMEM, the rings, the kernel and the users. -/
structure Sock where
  pool : Pool
  fq : XskRing UInt64
  cq : XskRing UInt64
  rx : RxRing
  tx : TxRing
  /-- The bytes of the UMEM. -/
  mem : ℕ → UInt8
  /-- The addresses that the kernel took from the fill ring and has not returned. -/
  kernelRx : List UInt64
  /-- The descriptors that the kernel took from the transmit ring and has not completed, each
  with its position in the sequence of exposed descriptors. -/
  kernelTx : List (XdpDesc × ℕ)

/-- `struct xsk_umem_config`. -/
structure XskUmemConfig where
  fillSize : UInt32
  compSize : UInt32
  frameSize : UInt32
  frameHeadroom : UInt32
  flags : UInt32

/-- `xsk_set_umem_config`: the configuration of the user, or the defaults of libxdp. -/
def xskSetUmemConfig : Option XskUmemConfig → XskUmemConfig
  | none => ⟨2048, 2048, 4096, 0, 0⟩
  | some usrCfg => usrCfg

/-- The size of the chunks into which the kernel cuts the UMEM. `Umem::new` passes no
configuration, so it does not depend on the frame size of the flags. -/
def chunkSize : ℕ := (xskSetUmemConfig none).frameSize.toNat

theorem chunkSize_eq : chunkSize = 4096 := rfl

/-- The kernel writes a packet into the chunk of an address of the fill ring, at any offset. -/
def InChunk (addr : UInt64) (desc : XdpDesc) (packet : List UInt8) : Prop :=
  desc.addr.toNat / chunkSize = addr.toNat / chunkSize ∧ desc.len.toNat = packet.length ∧
    desc.addr.toNat % chunkSize + packet.length ≤ chunkSize

instance (addr : UInt64) (desc : XdpDesc) (packet : List UInt8) :
    Decidable (InChunk addr desc packet) := inferInstanceAs (Decidable (_ ∧ _ ∧ _))

/-- A step of the kernel. -/
inductive KernelAction
  | takeFill
  | receive (addr : UInt64) (desc : XdpDesc) (packet : List UInt8)
  | takeTx
  | complete (position : ℕ)
deriving DecidableEq

/-- The steps of the kernel during a call that sends: after a `sync` and before the transmit ring
is read, after it and before the completion ring is read, and during `sendto`. -/
structure Interleaving where
  reserve : List KernelAction
  completion : List KernelAction
  wakeup : List KernelAction
deriving DecidableEq

namespace Sock

/-- One step of the kernel, when it is possible. A received packet is in the chunk of an address
that was taken from the fill ring. -/
def kernelStep (sock : Sock) : KernelAction → Option Sock
  | .takeFill =>
      sock.fq.kernelTake.map fun (addr, fq) =>
        { sock with fq := fq, kernelRx := sock.kernelRx ++ [addr] }
  | .receive addr desc packet =>
      if addr ∈ sock.kernelRx ∧ InChunk addr desc packet then
        (sock.rx.rx.kernelPublish desc).map fun rx =>
          { sock with
            rx := { sock.rx with rx := rx }
            kernelRx := sock.kernelRx.erase addr
            mem := writeBytes sock.mem desc.addr.toNat packet }
      else
        none
  | .takeTx =>
      sock.tx.kernelTake.map fun (desc, tx) =>
        { sock with
          tx := tx
          kernelTx := sock.kernelTx ++ [(desc, sock.tx.exposed.length - sock.tx.tx.used)] }
  | .complete position =>
      sock.kernelTx[position]?.bind fun (desc, _) =>
        (sock.cq.kernelPublish desc.addr).map fun cq =>
          { sock with cq := cq, kernelTx := sock.kernelTx.eraseIdx position }

def kernelRun (sock : Sock) (actions : List KernelAction) : Option Sock :=
  run kernelStep sock actions

/-- `UmemManager::alloc_frame`. -/
def allocFrame (sock : Sock) : Option UInt32 × Sock :=
  (sock.pool.channel.pop.1.map .ofNat, { sock with pool := sock.pool.popped })

/-- The loop of `UmemManager::refill_fill_ring`. -/
def fillFrom (sock : Sock) (idx : UInt32) : ℕ → Except Error Unit × Sock
  | 0 => (.ok (), sock)
  | count + 1 =>
      match sock.allocFrame with
      | (none, sock) => (.error (.generic "refill_fill_ring: no free frames"), sock)
      | (some addr, sock) =>
          fillFrom { sock with fq := sock.fq.store (sock.fq.cell idx) addr.toUInt64 } (idx + 1)
            count

/-- The synchronization of an empty cache at the beginning of `UmemManager::refill_fill_ring`. -/
def restocked (sock : Sock) : Sock :=
  if sock.pool.channel.availableLen = 0 then
    { sock with pool := { sock.pool with channel := sock.pool.channel.sync } }
  else
    sock

/-- `UmemManager::refill_fill_ring`. -/
def refillFillRing (sock : Sock) : Except Error Unit × Sock :=
  let sock := sock.restocked
  let wanted : UInt32 := .ofNat sock.pool.channel.availableLen
  if wanted = 0 then
    (.ok (), sock)
  else
    let (available, fq) := sock.fq.prodNbFree wanted
    if available = 0 then
      (.ok (), { sock with fq := fq })
    else
      let (reserved, idx, fq) := fq.prodReserve available 0
      if reserved ≠ available then
        (.error (.generic "refill_fill_ring: not enough descriptors reserved"),
          { sock with fq := fq })
      else
        match { sock with fq := fq }.fillFrom idx available.toNat with
        | (.error error, sock) => (.error error, sock)
        | (.ok (), sock) => (.ok (), { sock with fq := sock.fq.prodSubmit available })

/-- `complete_tx`: the addresses are pushed one after the other, through the producer of the
socket's own context. -/
def completeTx (sock : Sock) (site : Site) : Option Sock :=
  let (completed, idx, cq) := sock.cq.consPeek 64 0
  if completed = 0 then
    some { sock with cq := cq }
  else
    let addrs := (cq.cellsFrom idx completed.toNat).map cq.ring
    (sock.pool.channel.pushAll 0 site (addrs.map UInt64.toNat)).bind fun (channel, _) =>
      (channel.flush 0 site).map fun (channel, _) =>
        { sock with
          pool := { sock.pool with channel := channel }
          cq := cq.consRelease completed }

def flush (sock : Sock) (site : Site) (kernel : Interleaving) :
    Option Sock :=
  (kernelRun { sock with tx := sock.tx.sync } kernel.completion).bind fun sock =>
    (sock.completeTx site).bind fun sock => sock.kernelRun kernel.wakeup

/-- `TxRingIter::next` on the transmit ring of the socket. -/
def nextSlot (sock : Sock) (kernel : List KernelAction) :
    Option (Option ℕ × Sock) :=
  match sock.tx.popFront with
  | some (cell, tx) => some (some cell, { sock with tx := tx })
  | none =>
      (kernelRun { sock with tx := sock.tx.sync } kernel).bind fun sock =>
        sock.tx.reserve.map fun (found, tx) => (found, { sock with tx := tx })

/-- `Sock::send_inner` on the slot of a cell. -/
def sendInner (sock : Sock) (cell : ℕ) (packet : List UInt8) : Except Error Unit × Sock :=
  match sock.allocFrame with
  | (none, sock) => (.error (.generic "No free frames for TX"), sock)
  | (some frameAddr, sock) =>
      (.ok (),
        { sock with
          tx := sock.tx.write cell
            { sock.tx.tx.ring cell with
              addr := frameAddr.toUInt64
              len := .ofNat packet.length }
          mem := writeBytes sock.mem frameAddr.toNat packet })

/-- The slot that `Sock::send` obtains, at once or after a `flush`. -/
def obtainSlot (sock : Sock) (site : Site) (kernel : Interleaving) :
    Option (Option ℕ × Sock) :=
  (sock.nextSlot kernel.reserve).bind fun (found, sock) =>
    match found with
    | some cell => some (some cell, sock)
    | none => (sock.flush site kernel).bind fun sock => sock.nextSlot []

def send (sock : Sock) (packet : List UInt8) (site : Site) (kernel : Interleaving) :
    Option (Except Error Unit × Sock) :=
  (sock.obtainSlot site kernel).map fun (found, sock) =>
    match found with
    | some cell => sock.sendInner cell packet
    | none => (.error .noMemory, sock)

def recvInner (sock : Sock) (slot : XdpDesc) : Sock :=
  { sock with pool := sock.pool.give slot.addr.toNat slot.len }

/-- `Sock::recv_token`. The kernel can run before the fill ring is refilled and after it. -/
def recvToken (sock : Sock) (before after : List KernelAction) :
    Option (Except Error Unit × Sock) :=
  sock.rx.advance.bind fun (found, rx) =>
    match found with
    | some slot => some (.ok (), { sock with rx := rx }.recvInner slot)
    | none =>
        (kernelRun { sock with rx := rx } before).bind fun sock =>
          match sock.refillFillRing with
          | (.error error, sock) => some (.error error, sock)
          | (.ok (), sock) =>
              (sock.kernelRun after).bind fun sock =>
                sock.rx.advance.map fun (found, rx) =>
                  match found with
                  | none => (.error (.generic "No packets"), { sock with rx := rx })
                  | some slot => (.ok (), { sock with rx := rx }.recvInner slot)

/-- `Socket::recv`: the token is consumed at once, through the context of the socket. -/
def recv (sock : Sock) (before after : List KernelAction) :
    Option (Except Error Unit × Sock) :=
  (sock.recvToken before after).bind fun (result, sock) =>
    match result with
    | .error error => some (.error error, sock)
    | .ok () =>
        (sock.pool.consume (sock.pool.tokens.length - 1) 0).map fun pool =>
          (.ok (), { sock with pool := pool })

/-- A write through `DerefMut` of a payload, from its beginning. -/
def writePayload (sock : Sock) (position : ℕ) (bytes : List UInt8) : Option Sock :=
  sock.pool.payloads[position]?.bind fun payload =>
    if bytes.length ≤ payload.token.len.toNat then
      some { sock with mem := writeBytes sock.mem payload.token.idx bytes }
    else
      none

/-- A ring that nothing was put into; on a ring that user space produces `cached_cons` starts
with the size of the ring. -/
def newRing {α : Type} (size cachedCons : UInt32) (blank : α) : XskRing α :=
  ⟨0, cachedCons, size - 1, size, 0, 0, fun _ => blank⟩

/-- The socket that `Sock::create` makes, before its fill ring is filled. The fill and completion
rings have the default size of `xsk.h`, the others have `num_frames` entries. -/
def unfilled (flags : AfXdpFlags) (index : UInt32) (channel : Channel) : Sock where
  pool := { channel := channel, index := index, tokens := [], payloads := [] }
  fq := newRing 2048 2048 0
  cq := newRing 2048 0 0
  rx := ⟨newRing flags.numFrames 0 ⟨0, 0, 0⟩, .new⟩
  tx := ⟨newRing flags.numFrames flags.numFrames ⟨0, 0, 0⟩, [], 0, []⟩
  mem := fun _ => 0
  kernelRx := []
  kernelTx := []

/-- The refill at the end of `Sock::create`, which must succeed. -/
def filled (sock : Sock) : Option Sock :=
  match sock.refillFillRing with
  | (.error _, _) => none
  | (.ok (), sock) => some sock

/-- `Sock::create`: `none` when it fails. The size of the UMEM is computed in 32 bits, an empty
one is refused, and the kernel refuses rings whose size is not a power of two. -/
def create (flags : AfXdpFlags) (index : UInt32) (site : Site) : Option Sock :=
  let umemBytesLen := flags.numFrames * flags.frameSize
  if umemBytesLen = 0 ∨ ¬flags.numFrames.toNat.isPowerOfTwo then
    none
  else
    let addrs := (List.range flags.numFrames.toNat).map (· * flags.frameSize.toNat)
    ((channel flags.numFrames.toNat).pushAll 0 site addrs).bind fun (filled, _) =>
      (filled.flush 0 site).bind fun (flushed, _) =>
        (unfilled flags index flushed).filled

end Sock

/-- A call on the socket, an action of its users, or a step of the kernel. -/
inductive Action
  | recvToken (before after : List KernelAction)
  | recv (before after : List KernelAction)
  | send (packet : List UInt8) (site : Site) (kernel : Interleaving)
  | flush (site : Site) (kernel : Interleaving)
  | kernel (action : KernelAction)
  | pool (action : PoolAction)
  | writePayload (payload : ℕ) (bytes : List UInt8)
deriving DecidableEq

/-- Performs one action; `none` when it panics or is undefined. -/
def Sock.step (sock : Sock) : Action → Option Sock
  | .recvToken before after => (sock.recvToken before after).map Prod.snd
  | .recv before after => (sock.recv before after).map Prod.snd
  | .send packet site kernel => (sock.send packet site kernel).map Prod.snd
  | .flush site kernel => sock.flush site kernel
  | .kernel action => sock.kernelStep action
  | .pool action => (sock.pool.step action).map fun (pool, _) => { sock with pool := pool }
  | .writePayload payload bytes => sock.writePayload payload bytes

end Nethuns.AfXdp
