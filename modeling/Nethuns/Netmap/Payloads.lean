import Mathlib.Data.List.Pairwise
import Nethuns.Netmap.Exhaustion

/-!
# The packets received through a netmap socket

The NIC writes packets into the buffers of the receive slots that are not the user's, at any time,
and the kernel publishes them at `NIOCRXSYNC`. A receive copies nothing: the token has the buffer
itself, and the slot gets a free one. This file shows that the exchange keeps the packets whole:
what is received from a ring is what the kernel published there, byte by byte and in order, and a
payload reads as it did when it was received, but for what its own holder wrote to it, whatever is
sent, received and written meanwhile.
-/

namespace Nethuns.Netmap

open Nethuns.Lib Nethuns.Mpsc Nethuns.Api

/-- The bytes of a packet, given by its buffer and its length. -/
def Port.content (port : Port) (packet : ℕ × UInt32) : List UInt8 :=
  (port.bufs packet.1).take packet.2.toNat

namespace Sock

/-- `Payload::deref`: the bytes behind a token. -/
def packetOf (sock : Sock) (token : Token) : List UInt8 := sock.port.content (token.idx, token.len)

/-- The packets that are to be received from a ring. -/
def pendingPackets (sock : Sock) (index : ℕ) : List (List UInt8) :=
  (sock.port.pending index).map sock.port.content

/-- The NIC writes into the buffer of a receive slot that is not the user's. -/
def fill (sock : Sock) (pointer position : ℕ) (bytes : List UInt8) : Option Sock :=
  if pointer ∈ sock.port.rxPointers ∧ position ∉ (sock.port.rings pointer).userSlots then
    (sock.port.slot? pointer position).map fun slot =>
      { sock with
        port := { sock.port with
          bufs := Function.update sock.port.bufs slot.bufIdx.toNat bytes } }
  else
    none

/-- A write through `DerefMut` of a payload, from its beginning. -/
def writePayload (sock : Sock) (position : ℕ) (bytes : List UInt8) : Option Sock :=
  sock.pool.payloads[position]?.bind fun payload =>
    if bytes.length ≤ payload.token.len.toNat then
      some { sock with
        port := { sock.port with
          bufs := Function.update sock.port.bufs payload.token.idx
            (bytes ++ (sock.port.bufs payload.token.idx).drop bytes.length) } }
    else
      none

/-- A step that leaves the packets alone that are to be received and those that the users hold. -/
structure Carries (sock next : Sock) : Prop where
  rings : next.port.niRxRings = sock.port.niRxRings
  tokens : next.pool.tokens = sock.pool.tokens
  payloads : next.pool.payloads = sock.pool.payloads
  contents : ∀ index < sock.port.niRxRings, ∀ packet ∈ sock.port.pending index,
    next.port.content packet = sock.port.content packet
  held : ∀ token ∈ sock.pool.liveTokens, next.packetOf token = sock.packetOf token

variable {sock middle next : Sock}

/-! ## Where the buffers are -/

theorem slot_mem_ringBufs {port : Port} {pointer position : ℕ} {slot : Slot}
    (present : port.slot? pointer position = some slot) :
    (port.ringBufs pointer)[position]? = some slot.bufIdx.toNat := by
  simp only [Port.slot?] at present
  simp only [Port.ringBufs, List.getElem?_map, present, Option.map_some]

theorem mem_txBufs {port : Port} {pointer position : ℕ} {slot : Slot}
    (transmit : pointer < port.niTxRings) (present : port.slot? pointer position = some slot) :
    slot.bufIdx.toNat ∈ port.txBufs := by
  simp only [Port.txBufs, Multiset.mem_coe, List.mem_flatMap, List.mem_range]
  refine ⟨pointer, ?_, List.mem_of_getElem? (slot_mem_ringBufs present)⟩
  rw [Port.rxBase]
  omega

theorem mem_rxBufs {port : Port} {pointer position : ℕ} {slot : Slot}
    (receive : pointer ∈ port.rxPointers) (present : port.slot? pointer position = some slot) :
    slot.bufIdx.toNat ∈ port.rxBufs := by
  simp only [Port.rxBufs, Multiset.mem_coe, List.mem_flatMap]
  exact ⟨pointer, receive, List.mem_of_getElem? (slot_mem_ringBufs present)⟩

theorem mem_rxPointers {port : Port} {index : ℕ} (present : index < port.niRxRings) :
    port.rxBase + index ∈ port.rxPointers := by
  simp only [Port.rxPointers, List.mem_range'_1]
  omega

theorem mem_pending {port : Port} {index : ℕ} {packet : ℕ × UInt32}
    (waits : packet ∈ port.pending index) :
    ∃ position ∈ (port.rxRing index).userSlots, ∃ slot,
      port.slot? (port.rxBase + index) position = some slot ∧ packet = slot.packet := by
  simp only [Port.pending, Port.packets, List.mem_filterMap, Option.map_eq_some_iff] at waits
  rcases waits with ⟨position, inside, slot, present, rfl⟩
  exact ⟨position, inside, slot, present, rfl⟩

theorem pending_mem_rxBufs {port : Port} {index : ℕ} {packet : ℕ × UInt32}
    (present : index < port.niRxRings) (waits : packet ∈ port.pending index) :
    packet.1 ∈ port.rxBufs := by
  rcases mem_pending waits with ⟨position, -, slot, at_position, rfl⟩
  exact mem_rxBufs (mem_rxPointers present) at_position

theorem token_mem_held {token : Token} (live : token ∈ sock.pool.liveTokens) :
    token.idx ∈ sock.pool.held := by
  rw [Pool.held, Multiset.mem_add, Pool.issued_eq_map]
  exact Or.inl (Multiset.mem_map_of_mem _ (Multiset.mem_coe.mpr live))

theorem payload_live {payload : Payload} {position : ℕ}
    (present : sock.pool.payloads[position]? = some payload) :
    payload.token ∈ sock.pool.liveTokens :=
  List.mem_append.mpr
    (Or.inr (List.mem_map.mpr ⟨payload, List.mem_of_getElem? present, rfl⟩))

/-- Two receive slots with the same buffer are the same slot. -/
theorem rxSlot_unique {port : Port} (distinct : port.rxBufs.Nodup)
    {pointer other position place : ℕ} {slot slot' : Slot}
    (receive : pointer ∈ port.rxPointers) (receive' : other ∈ port.rxPointers)
    (here : port.slot? pointer position = some slot) (there : port.slot? other place = some slot')
    (same : slot.bufIdx = slot'.bufIdx) : pointer = other ∧ position = place := by
  simp only [Port.rxBufs, Multiset.coe_nodup, List.nodup_flatMap] at distinct
  rcases distinct with ⟨within, across⟩
  have here_mem := slot_mem_ringBufs here
  have there_mem := slot_mem_ringBufs there
  rw [← same] at there_mem
  have same_ring : pointer = other := by
    by_contra apart
    have symmetric : Std.Symm (Function.onFun List.Disjoint port.ringBufs) :=
      ⟨fun _ _ apart => apart.symm⟩
    exact across.forall receive receive' apart (List.mem_of_getElem? here_mem)
      (List.mem_of_getElem? there_mem)
  subst other
  refine ⟨rfl, ?_⟩
  rcases List.getElem?_eq_some_iff.mp here_mem with ⟨inside, -⟩
  exact (List.getElem?_inj inside (within pointer receive)).mp (here_mem.trans there_mem.symm)

section Owners

variable {buf other : ℕ}

theorem ne_of_transmit (nodup : sock.owners.Nodup) (transmit : buf ∈ sock.port.txBufs)
    (circulates : other ∈ sock.circulating) : other ≠ buf := by
  rw [owners, Multiset.nodup_add] at nodup
  rintro rfl
  exact Multiset.disjoint_left.mp nodup.2.2 transmit circulates

theorem ne_of_receive (nodup : sock.owners.Nodup) (receive : buf ∈ sock.port.rxBufs)
    (held : other ∈ sock.pool.held) : other ≠ buf := by
  rw [owners, Multiset.nodup_add, circulating, Multiset.nodup_add] at nodup
  rintro rfl
  exact Multiset.disjoint_left.mp nodup.2.1.2.2 receive held

theorem rxBufs_nodup (nodup : sock.owners.Nodup) : sock.port.rxBufs.Nodup := by
  rw [owners, Multiset.nodup_add, circulating, Multiset.nodup_add] at nodup
  exact nodup.2.1.1

theorem idx_nodup (nodup : sock.owners.Nodup) : (sock.pool.liveTokens.map Token.idx).Nodup := by
  rw [owners, Multiset.nodup_add, circulating, Multiset.nodup_add, Pool.held,
    Multiset.nodup_add, Pool.issued_eq_map, Multiset.map_coe, Multiset.coe_nodup] at nodup
  exact nodup.2.1.2.1.1

theorem liveTokens_distinct (nodup : sock.owners.Nodup) : sock.pool.liveTokens.Nodup :=
  (idx_nodup nodup).of_map _

/-- Two live tokens with the same buffer are the same. -/
theorem eq_of_idx_eq {token token' : Token} (nodup : sock.owners.Nodup)
    (live : token ∈ sock.pool.liveTokens) (live' : token' ∈ sock.pool.liveTokens)
    (same : token.idx = token'.idx) : token = token' :=
  List.inj_on_of_nodup_map (idx_nodup nodup) live live' same

end Owners

/-! ## Writes -/

theorem content_update {port : Port} {buf : ℕ} {bytes : List UInt8} {packet : ℕ × UInt32}
    (apart : packet.1 ≠ buf) :
    Port.content { port with bufs := Function.update port.bufs buf bytes } packet =
      port.content packet := by
  simp only [Port.content, Function.update_of_ne apart]

theorem Carries.of_bufs (rings : next.port.niRxRings = sock.port.niRxRings)
    (bufs : next.port.bufs = sock.port.bufs)
    (tokens : next.pool.tokens = sock.pool.tokens)
    (payloads : next.pool.payloads = sock.pool.payloads) : Carries sock next := by
  refine ⟨rings, tokens, payloads, ?_, ?_⟩
  · intro index _ packet _
    simp only [Port.content, bufs]
  · intro token _
    simp only [packetOf, Port.content, bufs]

/-- A write into a buffer that is not in a receive slot of the user, nor in the hands of the
users. -/
theorem Carries.of_write {buf : ℕ} {bytes : List UInt8}
    (rings : next.port.niRxRings = sock.port.niRxRings)
    (bufs : next.port.bufs = Function.update sock.port.bufs buf bytes)
    (tokens : next.pool.tokens = sock.pool.tokens)
    (payloads : next.pool.payloads = sock.pool.payloads)
    (waits : ∀ index < sock.port.niRxRings, ∀ packet ∈ sock.port.pending index, packet.1 ≠ buf)
    (holds : ∀ token ∈ sock.pool.liveTokens, token.idx ≠ buf) : Carries sock next := by
  refine ⟨rings, tokens, payloads, ?_, ?_⟩
  · intro index present packet packet_waits
    simp only [Port.content, bufs, Function.update_of_ne (waits index present packet packet_waits)]
  · intro token live
    simp only [packetOf, Port.content, bufs, Function.update_of_ne (holds token live)]

theorem fill_carries {pointer position : ℕ} {bytes : List UInt8} (nodup : sock.owners.Nodup)
    (filled : sock.fill pointer position bytes = some next) : Carries sock next := by
  simp only [fill, Option.ite_none_right_eq_some, Option.map_eq_some_iff] at filled
  rcases filled with ⟨⟨receive, notUser⟩, slot, present, rfl⟩
  refine @Carries.of_write sock _ slot.bufIdx.toNat bytes rfl rfl rfl rfl ?_ ?_
  · intro index inside packet waits same
    rcases mem_pending waits with ⟨place, user, slot', present', rfl⟩
    have unique := rxSlot_unique (rxBufs_nodup nodup) receive (mem_rxPointers inside) present
      present' (UInt32.toNat_inj.mp same.symm)
    rw [unique.1, unique.2] at notUser
    exact notUser user
  · intro token live
    exact ne_of_receive nodup (mem_rxBufs receive present) (token_mem_held live)

/-- A search of the transmitter changes nothing but rings. -/
theorem scan_sameShape {found : Option TxBuf} {tx tx' : Transmitter} {port after : Port}
    (scanned : (tx.scan port).outcome = some (found, tx', after)) : port.SameShape after := by
  induction tx, port using Transmitter.scan.induct with
  | case1 tx port outside =>
      rw [Transmitter.scan, outside] at scanned
      rcases scanned with ⟨⟩
      exact .refl _
  | case2 tx port pointer pointer_eq slot ring advanced =>
      rw [Transmitter.scan, pointer_eq] at scanned
      simp only [advanced] at scanned
      rcases scanned with ⟨⟩
      exact ⟨_, rfl⟩
  | case3 tx port pointer pointer_eq ring advanced past =>
      rw [Transmitter.scan, pointer_eq] at scanned
      simp only [advanced, if_pos past] at scanned
      rcases scanned with ⟨⟩
      exact ⟨_, rfl⟩
  | case4 tx port pointer pointer_eq ring advanced more ih =>
      rw [Transmitter.scan, pointer_eq] at scanned
      simp only [advanced, if_neg more] at scanned
      exact Port.SameShape.trans ⟨_, rfl⟩ (ih scanned)

theorem next_sameShape {found : Option TxBuf} {tx tx' : Transmitter} {port after : Port}
    {ioctl : Ioctl} (scanned : (tx.next port ioctl).outcome = some (found, tx', after)) :
    port.SameShape after := by
  rw [Transmitter.next_outcome, Option.bind_eq_some_iff] at scanned
  rcases scanned with ⟨readied, done, scanned⟩
  simp only [Transmitter.readied] at done
  split at done
  · simp only [Option.some.injEq] at done
    exact done ▸ scan_sameShape scanned
  · exact (Port.sync_sameShape done).trans (scan_sameShape scanned)

theorem obtain_sameShape {found : Option TxBuf} {tx tx' : Transmitter} {port after : Port}
    {first second : Ioctl}
    (scanned : (tx.obtain port first second).outcome = some (found, tx', after)) :
    port.SameShape after := by
  rw [Transmitter.obtain_outcome, Option.bind_eq_some_iff] at scanned
  rcases scanned with ⟨⟨seen, between, passed⟩, searched, scanned⟩
  have start := next_sameShape searched
  cases seen with
  | some buf =>
      rcases scanned with ⟨⟩
      exact start
  | none =>
      simp only [Transmitter.reset, Option.bind_eq_some_iff, Option.map_eq_some_iff] at scanned
      rcases scanned with ⟨⟨restarted, synced⟩, ⟨_, done, ⟨⟩⟩, scanned⟩
      exact (start.trans (Port.sync_sameShape done)).trans (next_sameShape scanned)

/-- A send writes into the buffer of a transmit slot. -/
theorem send_carries {packet : List UInt8} {first second : Ioctl} {result : Except Error Unit}
    (nodup : sock.owners.Nodup) (kernel : KernelKeeps sock (.send packet first second))
    (sent : sock.send packet first second = some (result, next)) : Carries sock next := by
  rcases kernel with ⟨⟨keepsFirst, leavesFirst⟩, keepsSecond, leavesSecond⟩
  simp only [send, Option.bind_eq_some_iff] at sent
  rcases sent with ⟨⟨found, tx, after⟩, obtained, sent⟩
  rcases obtain_quiet keepsFirst leavesFirst keepsSecond leavesSecond found tx after obtained with
    ⟨keeps, -, transmit⟩
  rcases obtain_sameShape obtained with ⟨rings, rfl⟩
  cases found with
  | none =>
      simp only [Option.some.injEq, Prod.mk.injEq] at sent
      rcases sent with ⟨-, rfl⟩
      exact .of_bufs rfl rfl rfl rfl
  | some buf =>
      simp only [sendInner, Option.map_eq_some_iff] at sent
      rcases sent with ⟨slot, present, sent⟩
      split at sent
      · simp only [Prod.mk.injEq] at sent
        rcases sent with ⟨-, rfl⟩
        exact .of_bufs rfl rfl rfl rfl
      · simp only [Prod.mk.injEq] at sent
        rcases sent with ⟨-, rfl⟩
        have owned : slot.bufIdx.toNat ∈ sock.port.txBufs := by
          rw [← keeps.txBufs]
          exact mem_txBufs (transmit buf rfl) present
        refine .of_write rfl rfl rfl rfl ?_ ?_
        · intro index inside packet waits
          exact ne_of_transmit nodup owned
            (Multiset.mem_add.mpr (Or.inl (pending_mem_rxBufs inside waits)))
        · intro token live
          exact ne_of_transmit nodup owned
            (Multiset.mem_add.mpr (Or.inr (token_mem_held live)))

/-- A write through a payload is seen through this payload only. -/
theorem writePayload_held {position : ℕ} {bytes : List UInt8} (nodup : sock.owners.Nodup)
    (written : sock.writePayload position bytes = some next) :
    ∃ payload, sock.pool.payloads[position]? = some payload ∧ next.pool = sock.pool ∧
      (∀ index < sock.port.niRxRings, ∀ packet ∈ sock.port.pending index,
        next.port.content packet = sock.port.content packet) ∧
      next.packetOf payload.token =
        bytes ++ (sock.packetOf payload.token).drop bytes.length ∧
      ∀ other ∈ sock.pool.liveTokens, other ≠ payload.token →
        next.packetOf other = sock.packetOf other := by
  simp only [writePayload, Option.bind_eq_some_iff, Option.ite_none_right_eq_some,
    Option.some.injEq] at written
  rcases written with ⟨payload, present, short, rfl⟩
  have live := payload_live present
  refine ⟨payload, present, rfl, ?_, ?_, ?_⟩
  · intro index inside packet waits
    apply content_update
    exact (ne_of_receive nodup (pending_mem_rxBufs inside waits) (token_mem_held live)).symm
  · simp only [packetOf, Port.content, Function.update_self, List.take_append, List.drop_take]
    rw [List.take_of_length_le short]
  · intro other other_live different
    apply content_update
    intro same
    exact different (eq_of_idx_eq nodup other_live live same)

/-! ## Receiving -/

/-- The ring and the token of a receive that succeeds. -/
def receipt (sock : Sock) (ioctl : Ioctl) : Option (ℕ × Token) :=
  match sock.recvToken ioctl with
  | some (.ok (), next) =>
      (sock.rx.search sock.port ioctl).bind fun buf =>
        next.pool.tokens.getLast?.map fun token => (buf.pointer - sock.port.rxBase, token)
  | _ => none

/-- A receive leaves all bytes as they are, and its token is the last. -/
theorem recvToken_receipt {ioctl : Ioctl} {result : Except Error Unit} (ready : sock.RxReady)
    (delivers : ioctl.DeliversRx sock.port.rxBase sock.port.niRxRings)
    (received : sock.recvToken ioctl = some (result, next)) :
    next.port.bufs = sock.port.bufs ∧ next.port.niRxRings = sock.port.niRxRings ∧
      next.pool.payloads = sock.pool.payloads ∧
      ((∃ error, result = .error error ∧ sock.receipt ioctl = none ∧
          next.pool.tokens = sock.pool.tokens) ∨
        ∃ index token, result = .ok () ∧ sock.receipt ioctl = some (index, token) ∧
          next.pool.tokens = sock.pool.tokens ++ [token]) := by
  rcases sock.recvToken_cases ready delivers with
    ⟨index, taken_from, slot, replaced, obtains, -, ⟨-, failed⟩ | ⟨free, -, succeeded⟩⟩ |
      ⟨-, null | ⟨synced, ringIdx, -, done, nothing⟩⟩
  · rw [failed, Option.some.injEq, Prod.mk.injEq] at received
    rcases received with ⟨rfl, rfl⟩
    rcases obtains.spec ready.valid delivers with ⟨-, ⟨rings, rfl⟩, -⟩
    exact ⟨rfl, rfl, rfl, Or.inl ⟨_, rfl, by simp only [receipt, failed], rfl⟩⟩
  · rw [succeeded, Option.some.injEq, Prod.mk.injEq] at received
    rcases received with ⟨rfl, rfl⟩
    have searched := (obtains.search_eq ready.placed ready.valid delivers).1
    rcases obtains.spec ready.valid delivers with ⟨-, ⟨rings, rfl⟩, -⟩
    refine ⟨rfl, rfl, rfl, Or.inr ⟨index, _, rfl, ?_, rfl⟩⟩
    simp only [receipt, succeeded, searched, Option.bind_some, exchanged, Pool.give,
      Pool.popped, List.getLast?_concat, Option.map_some, Nat.add_sub_cancel_left]
  · simp [null] at received
  · rw [nothing, Option.some.injEq, Prod.mk.injEq] at received
    rcases received with ⟨rfl, rfl⟩
    rcases Port.sync_sameShape done with ⟨rings, rfl⟩
    exact ⟨rfl, rfl, rfl, Or.inl ⟨_, rfl, by simp only [receipt, nothing], rfl⟩⟩

end Sock

/-! ## Runs -/

/-- A call on the socket or an action of its users, a write of the NIC, or a write of a user. -/
inductive Event
  | act (action : Action)
  | fill (pointer position : ℕ) (bytes : List UInt8)
  | writePayload (payload : ℕ) (bytes : List UInt8)

/-- The ring and the token that an action hands out. -/
def Sock.handsOut (sock : Sock) : Action → Option (ℕ × Token)
  | .recvToken ioctl | .recv ioctl => sock.receipt ioctl
  | .send _ _ _ | .flush _ | .pool _ => none

/-- The packet that an action sends. -/
def Sock.sends (sock : Sock) : Action → List (List UInt8)
  | .send packet first second =>
      match sock.send packet first second with
      | some (.ok (), _) => [packet]
      | _ => []
  | .recvToken _ | .recv _ | .flush _ | .pool _ => []

/-- A socket with the packets sent, the packets that the kernel published on each ring, the
packets received, with their rings, and what the packets of the users should be since, by
buffer. -/
structure PacketTrace where
  recv : RecvTrace
  sent : List (List UInt8)
  delivered : ℕ → List (List UInt8)
  received : List (ℕ × List UInt8)
  held : ℕ → List UInt8

namespace PacketTrace

/-- What an action adds, where `recv` is what it leads to. -/
def act (trace : PacketTrace) (action : Action) (recv : RecvTrace) : PacketTrace where
  recv := recv
  sent := trace.sent ++ trace.recv.sock.sends action
  delivered index := trace.delivered index ++
    ((recv.published index).drop (trace.recv.published index).length).map
      trace.recv.sock.port.content
  received := trace.received ++ (trace.recv.sock.handsOut action).toList.map fun (index, token) =>
    (index, recv.sock.packetOf token)
  held :=
    match trace.recv.sock.handsOut action with
    | some (_, token) => Function.update trace.held token.idx (recv.sock.packetOf token)
    | none => trace.held

def step (trace : PacketTrace) : Event → Option PacketTrace
  | .act action => (trace.recv.step action).map (trace.act action)
  | .fill pointer position bytes => (trace.recv.sock.fill pointer position bytes).map fun sock =>
      { trace with recv := { trace.recv with sock := sock } }
  | .writePayload position bytes => (trace.recv.sock.writePayload position bytes).map fun sock =>
      { trace with
        recv := { trace.recv with sock := sock }
        held :=
          match trace.recv.sock.pool.payloads[position]? with
          | some payload =>
              Function.update trace.held payload.token.idx
                (bytes ++ (trace.held payload.token.idx).drop bytes.length)
          | none => trace.held }

/-- The packets received from a ring. -/
def receivedAt (trace : PacketTrace) (index : ℕ) : List (List UInt8) :=
  (trace.received.filter (·.1 = index)).map Prod.snd

/-- The kernel does what it is trusted to do, and a receive that finds a packet finds a free
buffer. -/
def Served (trace : PacketTrace) : Event → Prop
  | .act action => KernelKeeps trace.recv.sock action ∧ KernelDelivers trace.recv.sock action ∧
      FindsBuffer trace.recv.sock action
  | .fill _ _ _ | .writePayload _ _ => True

/-- On each ring, what was published is what was received and what is pending; the packets of the
users are what their holders made of them. -/
structure Faithful (trace : PacketTrace) : Prop where
  intact : trace.recv.sock.Intact
  nodup : trace.recv.sock.owners.Nodup
  lossless : trace.recv.Lossless
  stream : ∀ index < trace.recv.sock.port.niRxRings,
    trace.delivered index = trace.receivedAt index ++ trace.recv.sock.pendingPackets index
  held : ∀ token ∈ trace.recv.sock.pool.liveTokens,
    trace.recv.sock.packetOf token = trace.held token.idx

section Step

variable {trace next : PacketTrace} {recv : RecvTrace} {middle : Sock} {action : Action}
  {ioctl : Ioctl} {result : Except Error Unit}

/-- The users have dropped or consumed some of their tokens. -/
structure Consumes (sock next : Sock) : Prop where
  port : next.port = sock.port
  rx : next.rx = sock.rx
  live : ∀ token ∈ next.pool.liveTokens, token ∈ sock.pool.liveTokens

theorem Consumes.refl (sock : Sock) : Consumes sock sock := ⟨rfl, rfl, fun _ live => live⟩

theorem Consumes.packetOf {sock after : Sock} (consumes : Consumes sock after) (token : Token) :
    after.packetOf token = sock.packetOf token := by
  simp only [Sock.packetOf, consumes.port]

theorem pool_consumes {sock : Sock} {action : PoolAction} {pool : Pool} {discards : List Discard}
    (stepped : sock.pool.step action = some (pool, discards)) :
    Consumes sock { sock with pool := pool } :=
  ⟨rfl, rfl, fun _ live => Pool.step_liveTokens stepped live⟩

/-- Where nothing is published and nothing is returned, the same packets are pending. -/
theorem Faithful.of_carries (faithful : trace.Faithful)
    (carries : Sock.Carries trace.recv.sock middle) (consumes : Consumes middle recv.sock)
    (intact : recv.sock.Intact) (nodup : recv.sock.owners.Nodup) (lossless : recv.Lossless)
    (published : recv.published = trace.recv.published)
    (returned : recv.returned = trace.recv.returned) (sent : List (List UInt8)) :
    Faithful { trace with recv := recv, sent := sent } := by
  refine ⟨intact, nodup, lossless, ?_, ?_⟩
  · intro index present
    replace present : index < recv.sock.port.niRxRings := present
    have before : index < trace.recv.sock.port.niRxRings := by
      rw [← carries.rings, ← consumes.port]
      exact present
    have same : recv.sock.port.pending index = trace.recv.sock.port.pending index := by
      have whole := lossless.published_eq index present
      rw [published, returned, faithful.lossless.published_eq index before] at whole
      exact (List.append_cancel_left whole).symm
    have contents : recv.sock.pendingPackets index = trace.recv.sock.pendingPackets index := by
      rw [Sock.pendingPackets, Sock.pendingPackets, same, consumes.port]
      exact List.map_congr_left (carries.contents index before)
    have stream := faithful.stream index before
    rw [← contents] at stream
    exact stream
  · intro token live
    have carried : token ∈ trace.recv.sock.pool.liveTokens := by
      have middle_live := consumes.live token live
      rwa [Pool.liveTokens, carries.tokens, carries.payloads] at middle_live
    rw [consumes.packetOf, carries.held token carried]
    exact faithful.held token carried

theorem record_published (trace : RecvTrace) (ioctl : Ioctl) (result : Except Error Unit)
    (next : Sock) (index : ℕ) :
    ∃ fresh, (trace.record ioctl result next).published index = trace.published index ++ fresh := by
  simp only [RecvTrace.record]
  cases trace.sock.rx.syncPoint trace.sock.port with
  | none => exact ⟨[], (List.append_nil _).symm⟩
  | some port =>
      cases synced : port.sync ioctl with
      | none => exact ⟨[], by simp only [synced, List.append_nil]⟩
      | some after => exact ⟨_, by simp only [synced]; rfl⟩

theorem record_returned {trace : RecvTrace} {next : Sock}
    (received : trace.sock.recvToken ioctl = some (result, next)) (index : ℕ) :
    (trace.record ioctl result next).returned index = trace.returned index ++
      ((trace.sock.receipt ioctl).toList.filter (·.1 = index)).map fun place =>
        (place.2.idx, place.2.len) := by
  simp only [RecvTrace.record, Sock.receipt, received]
  cases result with
  | error error => simp
  | ok =>
      cases trace.sock.rx.search trace.sock.port ioctl with
      | none => simp
      | some buf =>
          cases last : next.pool.tokens.getLast? with
          | none => simp [last]
          | some token =>
              by_cases here : buf.pointer - trace.sock.port.rxBase = index
              · simp [last, here]
              · simp [last, here, Function.update_of_ne (Ne.symm here)]

theorem act_receivedAt (trace : PacketTrace) (action : Action) (recv : RecvTrace) (index : ℕ) :
    (trace.act action recv).receivedAt index = trace.receivedAt index ++
      ((trace.recv.sock.handsOut action).toList.filter (·.1 = index)).map fun place =>
        recv.sock.packetOf place.2 := by
  cases handed : trace.recv.sock.handsOut action with
  | none => simp [receivedAt, act, handed]
  | some place =>
      by_cases here : place.1 = index
      · simp [receivedAt, act, handed, here]
      · simp [receivedAt, act, handed, here]

/-- A receive, whether its token is consumed at once or not. -/
theorem Faithful.of_receive {sock : Sock} (faithful : trace.Faithful)
    (delivers : ioctl.DeliversRx trace.recv.sock.port.rxBase trace.recv.sock.port.niRxRings)
    (finds : FindsBuffer trace.recv.sock (.recvToken ioctl))
    (received : trace.recv.sock.recvToken ioctl = some (result, middle))
    (hands : trace.recv.sock.handsOut action = trace.recv.sock.receipt ioctl)
    (consumes : Consumes middle sock) (intact : sock.Intact) (nodup : sock.owners.Nodup)
    (middleNodup : middle.owners.Nodup) :
    (trace.act action { trace.recv.record ioctl result middle with sock := sock }).Faithful := by
  have ready := faithful.lossless.ready
  have recorded := RecvTrace.record_lossless faithful.lossless delivers finds received
  rcases Sock.recvToken_receipt ready delivers received with ⟨bufs, rings, payloads, outcome⟩
  have contents : sock.port.content = trace.recv.sock.port.content := by
    funext packet
    rw [Port.content, Port.content, consumes.port, bufs]
  have same_port : middle.port.SameRxRings sock.port := consumes.port ▸ .refl middle.port
  refine ⟨intact, nodup, recorded.sameRxRings same_port consumes.rx, ?_, ?_⟩
  · intro index present
    replace present : index < sock.port.niRxRings := present
    rw [consumes.port] at present
    rcases record_published trace.recv ioctl result middle index with ⟨fresh, published⟩
    have before := faithful.lossless.published_eq index (rings ▸ present)
    have after := recorded.published_eq index present
    rw [record_returned received, published, before, List.append_assoc, List.append_assoc] at after
    have split : trace.recv.sock.port.pending index ++ fresh =
        ((trace.recv.sock.receipt ioctl).toList.filter (·.1 = index)).map
            (fun place => (place.2.idx, place.2.len)) ++ sock.port.pending index := by
      rw [consumes.port]
      exact List.append_cancel_left after
    rw [act_receivedAt, hands]
    calc trace.delivered index ++ _
        = trace.delivered index ++ fresh.map trace.recv.sock.port.content := by
          simp only [published, List.drop_left]
      _ = trace.receivedAt index ++ (trace.recv.sock.port.pending index ++ fresh).map
            trace.recv.sock.port.content := by
          rw [faithful.stream index (rings ▸ present), Sock.pendingPackets, List.map_append,
            List.append_assoc]
      _ = trace.receivedAt index ++
            ((trace.recv.sock.receipt ioctl).toList.filter (·.1 = index)).map
              (fun place => sock.packetOf place.2) ++ sock.pendingPackets index := by
          rw [split, List.map_append, List.map_map, List.append_assoc, Sock.pendingPackets,
            contents]
          simp only [Sock.packetOf, contents]
          rfl
  · intro token live
    replace live : token ∈ sock.pool.liveTokens := live
    have present := consumes.live token live
    have same : sock.packetOf token = trace.recv.sock.packetOf token := by
      rw [Sock.packetOf, contents, Sock.packetOf]
    rcases outcome with ⟨error, -, nothing, tokens⟩ | ⟨index, last, -, handed, tokens⟩
    · rw [Pool.liveTokens, tokens, payloads] at present
      simp only [act, hands, nothing, same]
      exact faithful.held token present
    · simp only [act, hands, handed]
      by_cases own : token.idx = last.idx
      · have last_live : last ∈ middle.pool.liveTokens := by
          simp [Pool.liveTokens, tokens]
        rw [Sock.eq_of_idx_eq middleNodup present last_live own, Function.update_self]
      · rw [Function.update_of_ne own, same]
        apply faithful.held
        simp only [Pool.liveTokens, tokens, payloads, List.mem_append,
          List.mem_singleton] at present
        rcases present with (before | rfl) | inside
        · exact List.mem_append_left _ before
        · exact absurd rfl own
        · exact List.mem_append_right _ inside

/-- An action that hands out no token. -/
theorem Faithful.of_quiet (faithful : trace.Faithful)
    (hands : trace.recv.sock.handsOut action = none)
    (carries : Sock.Carries trace.recv.sock middle) (consumes : Consumes middle recv.sock)
    (intact : recv.sock.Intact) (nodup : recv.sock.owners.Nodup) (lossless : recv.Lossless)
    (published : recv.published = trace.recv.published)
    (returned : recv.returned = trace.recv.returned) : (trace.act action recv).Faithful := by
  have quiet : trace.act action recv =
      { trace with recv := recv, sent := trace.sent ++ trace.recv.sock.sends action } := by
    simp [act, hands, published]
  rw [quiet]
  exact faithful.of_carries carries consumes intact nodup lossless published returned _

theorem step_exclusive {sock after : Sock} (intact : sock.Intact) (nodup : sock.owners.Nodup)
    (kernel : KernelKeeps sock action) (stepped : sock.step action = some after) :
    after.Intact ∧ after.owners.Nodup := by
  rcases step_intact intact kernel stepped with ⟨done, circulating, txBufs⟩
  refine ⟨done, Multiset.nodup_of_le ?_ nodup⟩
  simp only [Sock.owners, txBufs]
  exact add_le_add_right circulating _

theorem act_faithful (faithful : trace.Faithful) (served : trace.Served (.act action))
    (stepped : trace.recv.step action = some recv) : (trace.act action recv).Faithful := by
  rcases served with ⟨keeps, delivers, finds⟩
  have lossless := RecvTrace.step_lossless faithful.lossless delivers finds stepped
  have moved := trace.recv.step_sock action
  rw [stepped, Option.map_some] at moved
  rcases step_exclusive faithful.intact faithful.nodup keeps moved.symm with ⟨intact, nodup⟩
  cases action with
  | recvToken ioctl =>
      simp only [RecvTrace.step, Option.map_eq_some_iff] at stepped
      rcases stepped with ⟨⟨result, middle⟩, received, rfl⟩
      exact faithful.of_receive delivers finds received rfl (.refl middle) intact nodup nodup
  | recv ioctl =>
      simp only [RecvTrace.step, Option.bind_eq_some_iff, Option.map_eq_some_iff] at stepped
      rcases stepped with ⟨⟨result, middle⟩, received, ⟨outcome, sock⟩, ended, rfl⟩
      have tokened : trace.recv.sock.step (.recvToken ioctl) = some middle := by
        simp only [Sock.step, received, Option.map_some]
      have middleNodup := (@step_exclusive (.recvToken ioctl) _ _ faithful.intact faithful.nodup
        keeps tokened).2
      have consumes : Consumes middle sock := by
        simp only [Sock.recv, received, Option.bind_some] at ended
        cases result with
        | error error =>
            simp only [Option.some.injEq, Prod.mk.injEq] at ended
            exact ended.2 ▸ .refl middle
        | ok =>
            simp only [Option.map_eq_some_iff, Prod.mk.injEq] at ended
            rcases ended with ⟨pool, consumed, -, rfl⟩
            have used : middle.pool.step (.consume (middle.pool.tokens.length - 1) 0) =
                some (pool, []) := by
              simp only [Pool.step, consumed, Option.map_some]
            exact pool_consumes used
      exact faithful.of_receive delivers finds received rfl consumes intact nodup middleNodup
  | send packet first second =>
      simp only [RecvTrace.step, Sock.step, Option.map_map, Option.map_eq_some_iff] at stepped
      rcases stepped with ⟨⟨result, sock⟩, sent, rfl⟩
      exact faithful.of_quiet rfl (Sock.send_carries faithful.nodup keeps sent) (.refl sock) intact
        nodup lossless rfl rfl
  | flush ioctl =>
      simp only [RecvTrace.step, Sock.step, Sock.flush, Option.map_map,
        Option.map_eq_some_iff] at stepped
      rcases stepped with ⟨after, done, rfl⟩
      rcases Port.sync_sameShape done with ⟨rings, rfl⟩
      have carries : Sock.Carries trace.recv.sock
          { trace.recv.sock with port := { trace.recv.sock.port with rings := rings } } :=
        .of_bufs rfl rfl rfl rfl
      exact faithful.of_quiet rfl carries (.refl _) intact nodup lossless rfl rfl
  | pool action =>
      simp only [RecvTrace.step, Sock.step, Option.map_map, Option.map_eq_some_iff] at stepped
      rcases stepped with ⟨⟨pool, discards⟩, used, rfl⟩
      exact faithful.of_quiet rfl (.of_bufs rfl rfl rfl rfl) (pool_consumes used) intact nodup
        lossless rfl rfl

/-- A write into a buffer leaves the places of all buffers. -/
theorem Faithful.written {sock : Sock} (faithful : trace.Faithful) {bufs : ℕ → List UInt8}
    (sock_eq : sock = { trace.recv.sock with port := { trace.recv.sock.port with bufs := bufs } }) :
    sock.Intact ∧ sock.owners.Nodup ∧ RecvTrace.Lossless { trace.recv with sock := sock } := by
  subst sock_eq
  rcases faithful.intact with ⟨sane, aimed, small, flagged⟩
  refine ⟨⟨sane, aimed, small, flagged⟩, faithful.nodup, ?_⟩
  exact faithful.lossless.sameRxRings ⟨⟨_, _, rfl⟩, fun _ _ => rfl⟩ rfl

theorem step_faithful {event : Event} (faithful : trace.Faithful) (served : trace.Served event)
    (stepped : trace.step event = some next) : next.Faithful := by
  cases event with
  | act action =>
      simp only [step, Option.map_eq_some_iff] at stepped
      rcases stepped with ⟨recv, stepped, rfl⟩
      exact act_faithful faithful served stepped
  | fill pointer position bytes =>
      simp only [step, Option.map_eq_some_iff] at stepped
      rcases stepped with ⟨sock, filled, rfl⟩
      have carries := Sock.fill_carries faithful.nodup filled
      simp only [Sock.fill, Option.ite_none_right_eq_some, Option.map_eq_some_iff] at filled
      rcases filled with ⟨-, slot, -, same⟩
      rcases faithful.written same.symm with ⟨intact, nodup, lossless⟩
      exact faithful.of_carries carries (.refl sock) intact nodup lossless rfl rfl trace.sent
  | writePayload position bytes =>
      simp only [step, Option.map_eq_some_iff] at stepped
      rcases stepped with ⟨sock, written, rfl⟩
      rcases Sock.writePayload_held faithful.nodup written with
        ⟨payload, present, pool, contents, own, others⟩
      have live := Sock.payload_live present
      have rings : ∃ bufs, sock =
          { trace.recv.sock with port := { trace.recv.sock.port with bufs := bufs } } := by
        simp only [Sock.writePayload, present, Option.bind_some, Option.ite_none_right_eq_some,
          Option.some.injEq] at written
        exact ⟨_, written.2.symm⟩
      rcases rings with ⟨bufs, rings⟩
      rcases faithful.written rings with ⟨intact, nodup, lossless⟩
      refine ⟨intact, nodup, lossless, ?_, ?_⟩
      · intro index inside
        replace inside : index < trace.recv.sock.port.niRxRings := by
          rw [rings] at inside
          exact inside
        have stream := faithful.stream index inside
        have pending : sock.pendingPackets index = trace.recv.sock.pendingPackets index := by
          rw [Sock.pendingPackets, Sock.pendingPackets, show sock.port.pending index =
            trace.recv.sock.port.pending index from by rw [rings]; rfl]
          exact List.map_congr_left (contents index inside)
        rw [← pending] at stream
        exact stream
      · simp only [present, pool]
        intro token token_live
        by_cases same : token = payload.token
        · rw [same, own, Function.update_self, faithful.held payload.token live]
        · have apart : token.idx ≠ payload.token.idx := fun idx =>
            same (Sock.eq_of_idx_eq faithful.nodup token_live live idx)
          rw [Function.update_of_ne apart, others token token_live same]
          exact faithful.held token token_live

end Step

/-- A new socket: what its rings contain is published, and nothing is received. -/
def start (sock : Sock) : PacketTrace := ⟨.start sock, [], sock.pendingPackets, [], fun _ => []⟩

end PacketTrace

theorem Ctx.new_unused {extra : List UInt32} {index : UInt32} {site : Site} {pool : Pool}
    (stocked : Ctx.new extra index site = some pool) : pool.tokens = [] ∧ pool.payloads = [] := by
  simp only [Ctx.new, Option.bind_eq_some_iff, Option.map_eq_some_iff] at stocked
  rcases stocked with ⟨_, -, _, -, rfl⟩
  exact ⟨rfl, rfl⟩

section Create

variable {port taken : Port} {extra : List UInt32} {ioctl : Ioctl} {index : UInt32} {site : Site}
  {sock : Sock}

theorem create_unused (created : Sock.create port ioctl index site = some sock) :
    sock.pool.tokens = [] ∧ sock.pool.payloads = [] := by
  rcases Sock.create_cases created with ⟨extra, synced, pool, -, -, stocked, rfl⟩
  exact Ctx.new_unused stocked

theorem PacketTrace.start_faithful (chain : port.extraBuffersIndexes = some (extra, taken))
    (distinct : (port.txBufs + port.rxBufs + ↑(extra.map UInt32.toNat)).Nodup)
    (valid : port.RxValid) (keepsBufs : ioctl.KeepsBufs)
    (delivers : ioctl.DeliversRx port.rxBase port.niRxRings)
    (created : Sock.create port ioctl index site = some sock) :
    (PacketTrace.start sock).Faithful := by
  rcases create_spec keepsBufs created with
    ⟨extra', taken', discards, chain', intact, -, -, held, -, rxBufs, txBufs⟩
  rw [chain, Option.some.injEq, Prod.mk.injEq] at chain'
  rcases chain' with ⟨rfl, rfl⟩
  have nodup : sock.owners.Nodup := by
    apply Multiset.nodup_of_le _ distinct
    simp only [Sock.owners, Sock.circulating, rxBufs, txBufs, ← held, ← add_assoc]
    exact Multiset.le_add_right _ _
  have ready := RecvTrace.create_rxReady valid delivers created
  rcases create_unused created with ⟨tokens, payloads⟩
  refine ⟨intact, nodup, ⟨ready, fun _ _ => rfl⟩, fun _ _ => rfl, ?_⟩
  intro token live
  simp [start, RecvTrace.start, Pool.liveTokens, tokens, payloads] at live

/-- In every run of a socket, in any interleaving with the writes of the NIC and of the users: as
long as the kernel does what it is trusted to do and each receive that finds a packet finds a free
buffer, the packets that the kernel published on a ring are those received from it, in order, and
then those that are pending; and each token and payload in the hands of the users has the bytes
that it had when it was received, but for what was written through that payload. -/
theorem packets_intact {final : PacketTrace} {events : List Event}
    (chain : port.extraBuffersIndexes = some (extra, taken))
    (distinct : (port.txBufs + port.rxBufs + ↑(extra.map UInt32.toNat)).Nodup)
    (valid : port.RxValid) (keepsBufs : ioctl.KeepsBufs)
    (delivers : ioctl.DeliversRx port.rxBase port.niRxRings)
    (created : Sock.create port ioctl index site = some sock)
    (served : RunMeets PacketTrace.step PacketTrace.Served (.start sock) events)
    (performed : run PacketTrace.step (.start sock) events = some final) :
    (∀ ring < final.recv.sock.port.niRxRings, final.delivered ring =
        final.receivedAt ring ++ final.recv.sock.pendingPackets ring) ∧
      ∀ token ∈ final.recv.sock.pool.liveTokens,
        final.recv.sock.packetOf token = final.held token.idx := by
  have faithful : final.Faithful :=
    run_invariant PacketTrace.Faithful PacketTrace.step_faithful
      (PacketTrace.start_faithful chain distinct valid keepsBufs delivers created) served performed
  exact ⟨faithful.stream, faithful.held⟩

end Create

/-- A receive, a write of the NIC into the buffer that the slot got, and a write of the user. -/
def receiveAndWrite : List Event :=
  [.act (.recv (some id)), .fill 1 0 [7, 7], .writePayload 0 [9]]

theorem packets_intact_receiveAndWrite :
    ∃ sock final, Sock.create onePacketPort (some id) 0 ⟨0, 0⟩ = some sock ∧
      run PacketTrace.step (.start sock) receiveAndWrite = some final ∧
      final.delivered 0 = final.receivedAt 0 ++ final.recv.sock.pendingPackets 0 ∧
      final.receivedAt 0 = [[4, 0, 0, 0]] ∧
      final.recv.sock.pool.payloads.map (fun payload => final.held payload.token.idx) =
        [[9, 0, 0, 0]] := by
  have performed : ((Sock.create onePacketPort (some id) 0 ⟨0, 0⟩).bind fun sock =>
      (run PacketTrace.step (.start sock) receiveAndWrite).map fun final =>
        (sock.pool.channel.pop.1.isSome, final.recv.sock.port.niRxRings, final.receivedAt 0,
          final.recv.sock.pool.payloads.map fun payload => final.held payload.token.idx)) =
      some (true, 1, [[4, 0, 0, 0]], [[9, 0, 0, 0]]) := by
    decide +kernel
  simp only [Option.bind_eq_some_iff, Option.map_eq_some_iff, Prod.mk.injEq] at performed
  rcases performed with ⟨sock, created, final, performed, poppable, rings, received, held⟩
  have chain : (onePacketPort.extraBuffersIndexes.map Prod.fst) =
      some [5, 6, 7, 8, 9, 10, 11, 12, 13, 14, 15, 16, 17, 18, 19, 20] := by
    decide +kernel
  simp only [Option.map_eq_some_iff, Prod.exists, exists_and_right, exists_eq_right] at chain
  rcases chain with ⟨taken, chain⟩
  have valid : onePacketPort.RxValid := by
    intro index present
    obtain rfl : index = 0 := Nat.lt_one_iff.mp present
    decide
  have served : RunMeets PacketTrace.step PacketTrace.Served (.start sock) receiveAndWrite := by
    refine ⟨⟨Ioctl.id_keepsBufs, RecvTrace.Ioctl.id_deliversRx _ _, ?_⟩,
      fun _ _ => ⟨trivial, fun _ _ => ⟨trivial, fun _ _ => trivial⟩⟩⟩
    intro index ready _ empty
    change sock.pool.channel.pop.1 = none at empty
    simp [empty] at poppable
  rcases packets_intact chain (by decide +kernel) valid Ioctl.id_keepsBufs
    (RecvTrace.Ioctl.id_deliversRx _ _) created served performed with ⟨stream, -⟩
  exact ⟨sock, final, created, performed, stream 0 (rings ▸ Nat.one_pos), received, held⟩

end Nethuns.Netmap
