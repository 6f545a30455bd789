import Nethuns.Api.Pool
import Nethuns.Error
import Nethuns.Lib.Bytes

/-!
# The pcap socket

`recv_token` asks libpcap for the next packet, allocates a zeroed buffer of `buffer_size` bytes, and
returns a token with the address of the buffer and the length of the packet. A payload reads as
many bytes at that address; when it is dropped the buffer is freed.

The heap is modelled by its bytes and the blocks that are allocated. Where the allocator puts a
buffer is a parameter of the call; an empty buffer is not allocated, its address is dangling. An
access that is not inside one block is undefined. What libpcap returns is a parameter too, with
its error converted to `Error`; live and offline captures differ only in where it comes from. The
flags that are only handed to libpcap are left out. What the packet of a token held is kept
beside it.
-/

namespace Nethuns.Pcap

open Nethuns.Lib Nethuns.Api

/-- The field of `PcapFlags` that the modelled code reads. -/
structure PcapFlags where
  bufferSize : ℕ
deriving DecidableEq

structure PcapContext where
  poolId : UInt32
  bufCapacity : ℕ
deriving DecidableEq

/-- `pcap::Packet` with its header; libpcap delivers as many bytes as it has captured. -/
structure Packet where
  /-- Seconds and microseconds. -/
  ts : ℤ × ℤ
  caplen : UInt32
  len : UInt32
  data : List UInt8
  length_data : data.length = caplen.toNat

structure Meta where
  timestamp : ℤ × ℤ
  len : UInt32
  caplen : UInt32
deriving DecidableEq

/-- An allocated block of the heap. -/
structure Block where
  address : ℕ
  size : ℕ
deriving DecidableEq

/-- A token with the data that its packet was captured with. -/
structure Delivery where
  token : Token
  captured : List UInt8
deriving DecidableEq

/-- `Sock`, with the heap and the users. -/
structure Sock where
  ctx : PcapContext
  /-- The context of the socket and its clones. -/
  contexts : List PcapContext
  mem : ℕ → UInt8
  blocks : List Block
  tokens : List Delivery
  payloads : List (Delivery × PcapContext)

namespace Block

def Contains (block : Block) (address len : ℕ) : Prop :=
  block.address ≤ address ∧ address + len ≤ block.address + block.size

instance (block : Block) (address len : ℕ) : Decidable (block.Contains address len) :=
  inferInstanceAs (Decidable (_ ∧ _))

def Apart (block other : Block) : Prop :=
  block.address + block.size ≤ other.address ∨ other.address + other.size ≤ block.address

instance (block other : Block) : Decidable (block.Apart other) :=
  inferInstanceAs (Decidable (_ ∨ _))

end Block

/-- `Context::check_token`. -/
def PcapContext.checkToken (ctx : PcapContext) (token : Token) : Bool :=
  token.bufferPool == ctx.poolId

namespace Sock

/-- `Sock::create`, when libpcap opens the capture; the heap is as it is then. -/
def create (flags : PcapFlags) (poolId : UInt32) (mem : ℕ → UInt8) : Sock where
  ctx := ⟨poolId, flags.bufferSize⟩
  contexts := [⟨poolId, flags.bufferSize⟩]
  mem := mem
  blocks := []
  tokens := []
  payloads := []

/-- `Box::into_raw(vec![0u8; buf_capacity].into_boxed_slice())`, when the allocator can place it
there. -/
def allocate (sock : Sock) (address : ℕ) : Option (ℕ × Sock) :=
  if sock.ctx.bufCapacity = 0 then
    some (1, sock)
  else if ∀ block ∈ sock.blocks, block.Apart ⟨address, sock.ctx.bufCapacity⟩ then
    some (address, { sock with
      mem := writeBytes sock.mem address (List.replicate sock.ctx.bufCapacity 0)
      blocks := ⟨address, sock.ctx.bufCapacity⟩ :: sock.blocks })
  else
    none

/-- `Sock::recv_token`. The captured data is not read, but for its length. -/
def recvToken (sock : Sock) (delivered : Except Error Packet) (address : ℕ) :
    Option (Except Error Meta × Sock) :=
  match delivered with
  | .error error => some (.error error, sock)
  | .ok pkt =>
      (sock.allocate address).map fun (ptr, sock) =>
        let token : Token := ⟨ptr, .ofNat pkt.data.length, sock.ctx.poolId⟩
        (.ok ⟨pkt.ts, pkt.len, pkt.caplen⟩,
          { sock with tokens := sock.tokens ++ [⟨token, pkt.data⟩] })

/-- `Token::consume`: `none` is the panic of `Context::packet`. -/
def consume (sock : Sock) (position ctx : ℕ) : Option Sock :=
  sock.tokens[position]?.bind fun delivery =>
    sock.contexts[ctx]?.bind fun context =>
      if context.checkToken delivery.token then
        some { sock with
          tokens := sock.tokens.eraseIdx position
          payloads := sock.payloads ++ [(delivery, context)] }
      else
        none

/-- `Socket::recv`. -/
def recv (sock : Sock) (delivered : Except Error Packet) (address : ℕ) :
    Option (Except Error Meta × Sock) :=
  (sock.recvToken delivered address).bind fun (result, sock) =>
    match result with
    | .error error => some (.error error, sock)
    | .ok info =>
        (sock.consume (sock.tokens.length - 1) 0).map fun sock => (.ok info, sock)

/-- `Payload::deref` of the payload of a token: `PcapContext::unsafe_buffer` does not depend on the
context. -/
def deref (sock : Sock) (token : Token) : Option (List UInt8) :=
  if token.len = 0 ∨ ∃ block ∈ sock.blocks, block.Contains token.idx token.len.toNat then
    some (readBytes sock.mem token.idx token.len.toNat)
  else
    none

/-- `PcapContext::release`: the box that is dropped must be an allocated block. -/
def release (sock : Sock) (ctx : PcapContext) (ptr : ℕ) : Option Sock :=
  if ctx.bufCapacity = 0 then
    some sock
  else if ⟨ptr, ctx.bufCapacity⟩ ∈ sock.blocks then
    some { sock with blocks := sock.blocks.erase ⟨ptr, ctx.bufCapacity⟩ }
  else
    none

end Sock

/-- A receive, or what the users do with tokens, payloads and contexts. -/
inductive Action
  | recvToken (delivered : Except Error Packet) (address : ℕ)
  | recv (delivered : Except Error Packet) (address : ℕ)
  | consume (token ctx : ℕ)
  | intoToken (payload : ℕ)
  | dropPayload (payload : ℕ)
  | cloneCtx (ctx : ℕ)

/-- Performs one action; `none` when it panics or is undefined. -/
def Sock.step (sock : Sock) : Action → Option Sock
  | .recvToken delivered address => (sock.recvToken delivered address).map Prod.snd
  | .recv delivered address => (sock.recv delivered address).map Prod.snd
  | .consume token ctx => sock.consume token ctx
  | .intoToken payload =>
      sock.payloads[payload]?.map fun (delivery, _) =>
        { sock with
          tokens := sock.tokens ++ [delivery]
          payloads := sock.payloads.eraseIdx payload }
  | .dropPayload payload =>
      sock.payloads[payload]?.bind fun (delivery, ctx) =>
        { sock with payloads := sock.payloads.eraseIdx payload }.release ctx delivery.token.idx
  | .cloneCtx ctx =>
      sock.contexts[ctx]?.map fun context =>
        { sock with contexts := sock.contexts ++ [context] }

end Nethuns.Pcap
