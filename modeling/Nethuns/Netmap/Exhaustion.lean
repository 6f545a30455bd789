import Nethuns.Netmap.RxSearch

/-!
# Receiving without a free buffer

`Sock::recv_token` takes a slot from a ring and then a free buffer from the channel, to exchange
it for the one in the slot. When the channel has none to give, it returns `NoMemory`; the ring
has moved past the slot by then, and the packet in it is lost. The tokens are the packets that
the kernel has published as long as no receive that finds a packet finds the channel empty.

The packets that the kernel has published on each ring and those that were returned as tokens are
kept beside the socket. A packet is named by its buffer and its length.
-/

namespace Nethuns.Netmap

open Nethuns.Lib Nethuns.Mpsc Nethuns.Api

namespace Port

/-- The packets in some slots of a ring. -/
def packets (port : Port) (index : ℕ) (positions : List ℕ) : List (ℕ × UInt32) :=
  positions.filterMap fun position => ((port.rxRing index).slots[position]?).map Slot.packet

/-- The packets that are to be received from a ring. -/
def pending (port : Port) (index : ℕ) : List (ℕ × UInt32) :=
  port.packets index (port.rxRing index).userSlots

/-- The packets that the kernel has published on a ring between two states of the port. -/
def fresh (port synced : Port) (index : ℕ) : List (ℕ × UInt32) :=
  synced.packets index ((port.rxRing index).freshSlots (synced.rxRing index))

end Port

/-! ## Receives without a free buffer -/

section Exhaustion

variable {sock next : Sock} {action : Action}

/-- A receive that fails for want of a free buffer leaves `head` and `cur` of the receive rings,
and the next receive that can pop a buffer returns the packet that it has found. -/
def KeepsPacket (sock : Sock) : Action → Prop
  | .recvToken ioctl | .recv ioctl => ∀ next,
      sock.recvToken ioctl = some (.error .noMemory, next) →
        (∀ index < sock.port.niRxRings,
          (next.port.rxRing index).head = (sock.port.rxRing index).head ∧
            (next.port.rxRing index).cur = (sock.port.rxRing index).cur) ∧
        ∀ index ready slot, sock.rx.Obtains sock.port ioctl index ready →
          (ready.rxRing index).slots[(ready.rxRing index).head.toNat]? = some slot →
          ∀ pool : Pool, pool.channel.pop.1 ≠ none → ∀ later : Ioctl,
            later.DeliversRx sock.port.rxBase sock.port.niRxRings →
            ∃ last, { next with pool := pool }.recvToken later = some (.ok (), last) ∧
              last.pool.tokens = pool.tokens ++
                [⟨slot.bufIdx.toNat, slot.len.toUInt32, pool.index⟩]
  | _ => True

/-- A receive that finds a packet finds a free buffer in the channel. -/
def FindsBuffer (sock : Sock) : Action → Prop
  | .recvToken ioctl | .recv ioctl => ∀ index ready,
      sock.rx.Obtains sock.port ioctl index ready → sock.pool.channel.pop.1 ≠ none
  | _ => True

theorem keepsPacket_iff (ready : sock.RxReady) (kernel : KernelDelivers sock action) :
    KeepsPacket sock action ↔ FindsBuffer sock action := by
  have receives : ∀ {ioctl : Ioctl}, ioctl.DeliversRx sock.port.rxBase sock.port.niRxRings →
      (KeepsPacket sock (.recvToken ioctl) ↔ FindsBuffer sock (.recvToken ioctl)) := by
    intro ioctl delivers
    simp only [KeepsPacket, FindsBuffer]
    rcases sock.recvToken_cases ready delivers with
      ⟨index, taken_from, slot, replaced, obtains, -, ⟨empty, failed⟩ | ⟨free, popped, received⟩⟩ |
        ⟨nothing, received⟩
    · apply iff_of_false
      · intro keeps
        rcases obtains.spec ready.valid delivers with ⟨valid, shape, present, some_left, head_eq⟩
        have count : taken_from.niRxRings = sock.port.niRxRings := by
          rcases shape with ⟨rings, rfl⟩
          rfl
        have moved := (valid index (count ▸ present)).nextHead_ne some_left
        apply moved
        rw [head_eq, ← ((keeps _ failed).1 index present).1]
        simp [Sock.tookRx, Port.setRing_rxRing, NetmapRing.advance]
      · intro finds
        exact finds index taken_from obtains empty
    · apply iff_of_true
      · intro next failed
        simp [received] at failed
      · intro _ _ _
        simp [popped]
    · apply iff_of_true
      · intro next failed
        rcases received with received | ⟨_, _, -, -, received⟩ <;> simp [received] at failed
      · intro index taken_from obtains
        exact absurd obtains (nothing index taken_from)
  cases action with
  | recvToken ioctl => exact receives kernel
  | recv ioctl => exact receives kernel
  | send packet first second | flush ioctl | pool action => exact Iff.rfl

end Exhaustion

/-! ## The packets of a ring -/

section Packets

variable {port synced : Port} {index : ℕ}

theorem NetmapRing.Valid.head_not_mem {ring : NetmapRing} (valid : ring.Valid)
    (some_left : ring.head ≠ ring.tail) : ring.head.toNat ∉ ring.advance.userSlots := by
  intro again
  have count_lt := valid.userCount_lt
  have taken := valid.userCount_advance some_left
  have position : ring.advance.userSlots =
      window id ring.numSlots.toNat (ring.head.toNat + 1) ring.advance.userCount := by
    apply window_congr
    change ring.nextHead.toNat % ring.numSlots.toNat = (ring.head.toNat + 1) % ring.numSlots.toNat
    rw [valid.nextHead_toNat, next_mod]
  rw [position] at again
  rcases List.mem_map.mp again with ⟨offset, offset_mem, same⟩
  have before : offset < ring.advance.userCount := List.mem_range.mp offset_mem
  have apart : (ring.head.toNat + 1 + offset) % ring.numSlots.toNat ≠
      ring.head.toNat % ring.numSlots.toNat := position_ne (by omega) (by omega)
  rw [Nat.mod_eq_of_lt valid.head_toNat_lt] at apart
  exact apart same

theorem NetmapRing.Delivers.pending (delivers : (port.rxRing index).Delivers (synced.rxRing index))
    (valid : (port.rxRing index).Valid) :
    synced.pending index = port.pending index ++ port.fresh synced index := by
  rw [Port.pending, (delivers.grows.freshSlots_eq valid).1, Port.packets, List.filterMap_append]
  congr 1
  apply List.filterMap_congr
  exact delivers.packets_eq

/-- The packet in the slot that a receive takes was the first that was pending on its ring. -/
theorem Sock.exchanged_pending {sock : Sock} {ready : Port} {replaced : List (ℕ × ℕ)} {slot : Slot}
    {free : ℕ} (valid : (ready.rxRing index).Valid)
    (some_left : (ready.rxRing index).head ≠ (ready.rxRing index).tail)
    (slot_eq : (ready.rxRing index).slots[(ready.rxRing index).head.toNat]? = some slot)
    (other : ℕ) :
    ready.pending other = (if other = index then [slot.packet] else []) ++
      (sock.exchanged index ready replaced slot free).port.pending other := by
  simp only [Port.pending, Port.packets, Sock.exchanged_rxRing]
  by_cases here : other = index
  · subst other
    simp only [if_true, (valid.next_of_ne some_left).2.2, List.filterMap_cons, slot_eq,
      Option.map_some, List.singleton_append]
    refine congrArg (slot.packet :: ·) (List.filterMap_congr ?_)
    intro position position_mem
    have elsewhere : (ready.rxRing index).head.toNat ≠ position := by
      rintro rfl
      exact valid.head_not_mem some_left position_mem
    simp [NetmapRing.updateSlot, NetmapRing.advance, elsewhere]
  · simp [here]

end Packets

/-! ## The tokens of a run -/

/-- The port as the kernel finds it when a receive calls it. -/
def Receiver.syncPoint (rx : Receiver) (port : Port) : Option Port :=
  match rx.next port with
  | some (none, _, passed) => some passed
  | _ => none

/-- The slot that a receive finds. -/
def Receiver.search (rx : Receiver) (port : Port) (ioctl : Ioctl) : Option RxBuf :=
  match rx.next port with
  | none => none
  | some (some buf, _, _) => some buf
  | some (none, rx, passed) =>
      (rx.reset passed ioctl).bind fun (rx, synced) => (rx.next synced).bind Prod.fst

section Search

variable {rx : Receiver} {port : Port} {ioctl : Ioctl} {index : ℕ}

theorem Receiver.Takes.next_eq (takes : rx.Takes port index) (placed : rx.Placed port)
    (valid : port.RxValid) : rx.next port = some (rx.foundAt port index) := by
  rcases rx.next_search placed valid with ⟨other, takes', found⟩ | ⟨nothing, -⟩
  · obtain rfl := takes.2.unique takes'.2
    exact found
  · exact absurd takes (nothing index)

theorem Receiver.next_of_nothing (nothing : ∀ index, ¬rx.Takes port index)
    (safe : rx.next port ≠ none) (placed : rx.Placed port) (valid : port.RxValid) :
    ∃ ringIdx,
      rx.next port = some (none, { rx with ringIdx := ringIdx, curRing := none }, port) := by
  rcases rx.next_search placed valid with ⟨other, takes, -⟩ | ⟨-, null | passed⟩
  · exact absurd takes (nothing other)
  · exact absurd null safe
  · exact passed

theorem Receiver.Obtains.search_eq {ready : Port} (obtains : rx.Obtains port ioctl index ready)
    (placed : rx.Placed port) (valid : port.RxValid)
    (delivers : ioctl.DeliversRx port.rxBase port.niRxRings) :
    rx.search port ioctl =
        some ⟨port.rxBase + index, (ready.rxRing index).head.toNat, .ofNat index⟩ ∧
      (ready = port ∧ rx.syncPoint port = none ∨
        rx.syncPoint port = some port ∧ port.sync ioctl = some ready) := by
  rcases obtains with ⟨rfl, takes⟩ | ⟨nothing, safe, done, takes⟩
  · have found := takes.next_eq placed valid
    refine ⟨?_, Or.inl ⟨rfl, ?_⟩⟩
    · rw [search, found]
      rfl
    · rw [syncPoint, found]
      rfl
  · rcases next_of_nothing nothing safe placed valid with ⟨ringIdx, passed⟩
    have shape := Port.sync_sameShape done
    have found := takes.next_eq ((rx.restarted_placed port).sameShape shape)
      (Port.sync_rxValid valid delivers done)
    refine ⟨?_, Or.inr ⟨?_, done⟩⟩
    · rw [search, passed]
      simp only [reset, done, Option.map_some, Option.bind_some]
      change ((rx.restarted port).next ready).bind Prod.fst = _
      rw [found]
      rcases shape with ⟨rings, rfl⟩
      rfl
    · rw [syncPoint, passed]

end Search

/-- A socket with the packets that the kernel has published on each ring and those that were
returned as tokens. -/
structure RecvTrace where
  sock : Sock
  published : ℕ → List (ℕ × UInt32)
  returned : ℕ → List (ℕ × UInt32)

namespace RecvTrace

/-- What a call of `Sock::recv_token` adds: the packets that the kernel publishes during it, and
the packet of the token that it returns. -/
def record (trace : RecvTrace) (ioctl : Ioctl) (result : Except Error Unit) (next : Sock) :
    RecvTrace where
  sock := next
  published :=
    match trace.sock.rx.syncPoint trace.sock.port with
    | none => trace.published
    | some port => match port.sync ioctl with
      | none => trace.published
      | some synced => fun index => trace.published index ++ port.fresh synced index
  returned :=
    match result, trace.sock.rx.search trace.sock.port ioctl, next.pool.tokens.getLast? with
    | .ok (), some buf, some token =>
        let index := buf.pointer - trace.sock.port.rxBase
        Function.update trace.returned index (trace.returned index ++ [(token.idx, token.len)])
    | _, _, _ => trace.returned

/-- Performs one action; `none` when it panics. -/
def step (trace : RecvTrace) : Action → Option RecvTrace
  | .recvToken ioctl => (trace.sock.recvToken ioctl).map fun (result, next) =>
      trace.record ioctl result next
  | .recv ioctl => (trace.sock.recvToken ioctl).bind fun (result, middle) =>
      (trace.sock.recv ioctl).map fun (_, next) =>
        { trace.record ioctl result middle with sock := next }
  | action => (trace.sock.step action).map fun next => { trace with sock := next }

theorem step_sock (trace : RecvTrace) (action : Action) :
    (trace.step action).map RecvTrace.sock = trace.sock.step action := by
  cases action with
  | recvToken ioctl =>
      simp only [step, Sock.step, Option.map_map]
      rfl
  | recv ioctl =>
      rcases token : trace.sock.recvToken ioctl with _ | ⟨result, middle⟩
      · simp [step, Sock.step, Sock.recv, token]
      · simp only [step, token, Option.bind_some, Option.map_map, Sock.step]
        rfl
  | send packet first second | flush ioctl | pool action =>
      simp [step, Function.comp_def]

/-- On each ring, what the kernel has published was returned or is pending. -/
structure Lossless (trace : RecvTrace) : Prop where
  ready : trace.sock.RxReady
  published_eq : ∀ index < trace.sock.port.niRxRings,
    trace.published index = trace.returned index ++ trace.sock.port.pending index

variable {trace next : RecvTrace} {ioctl : Ioctl} {action : Action}

/-- The kernel publishes what it adds to the pending packets. -/
theorem Lossless.synced {synced : Port} (lossless : trace.Lossless)
    (delivers : ioctl.DeliversRx trace.sock.port.rxBase trace.sock.port.niRxRings)
    (done : trace.sock.port.sync ioctl = some synced) {index : ℕ}
    (present : index < trace.sock.port.niRxRings) :
    trace.published index ++ trace.sock.port.fresh synced index =
      trace.returned index ++ synced.pending index := by
  rcases Port.sync_eq_some done with ⟨kernel, answered, rfl⟩
  have valid := lossless.ready.valid index present
  have ring := delivers kernel answered trace.sock.port.rings index present valid
  rw [lossless.published_eq index present, List.append_assoc]
  exact congrArg (trace.returned index ++ ·) (@NetmapRing.Delivers.pending trace.sock.port
    { trace.sock.port with rings := kernel trace.sock.port.rings } index ring valid).symm

/-- A receive that succeeds returns the first of the pending packets of its ring. -/
theorem Lossless.exchanged {index : ℕ} {ready : Port} {slot : Slot} {replaced : List (ℕ × ℕ)}
    {free : ℕ} (lossless : trace.Lossless)
    (delivers : ioctl.DeliversRx trace.sock.port.rxBase trace.sock.port.niRxRings)
    (obtains : trace.sock.rx.Obtains trace.sock.port ioctl index ready)
    (slot_eq : ready.slot? (ready.rxBase + index) (ready.rxRing index).head.toNat = some slot)
    {other : ℕ} (present : other < trace.sock.port.niRxRings) :
    (trace.record ioctl (.ok ())
        (trace.sock.exchanged index ready replaced slot free)).published other =
      (trace.record ioctl (.ok ())
        (trace.sock.exchanged index ready replaced slot free)).returned other ++
        (trace.sock.exchanged index ready replaced slot free).port.pending other := by
  have rxReady := lossless.ready
  rcases obtains.search_eq rxReady.placed rxReady.valid delivers with ⟨searched, synced⟩
  rcases obtains.spec rxReady.valid delivers with ⟨valid, shape, inside, some_left, -⟩
  have count : ready.niRxRings = trace.sock.port.niRxRings := by
    rcases shape with ⟨rings, rfl⟩
    rfl
  have published : (trace.record ioctl (.ok ())
      (trace.sock.exchanged index ready replaced slot free)).published other =
      trace.returned other ++ ready.pending other := by
    rcases synced with ⟨rfl, unsynced⟩ | ⟨point, done⟩
    · simp only [record, unsynced]
      exact lossless.published_eq other present
    · simp only [record, point, done]
      exact lossless.synced delivers done present
  have token : (trace.sock.exchanged index ready replaced slot free).pool.tokens.getLast? =
      some ⟨slot.bufIdx.toNat, slot.len.toUInt32, trace.sock.pool.index⟩ := by
    simp [Sock.exchanged, Pool.give, Pool.popped]
  have returned : (trace.record ioctl (.ok ())
      (trace.sock.exchanged index ready replaced slot free)).returned other =
      trace.returned other ++ if other = index then [slot.packet] else [] := by
    simp only [record, searched, token, Nat.add_sub_cancel_left, Function.update_apply]
    split
    · rename_i here
      rw [here]
      rfl
    · rw [List.append_nil]
  rw [published, returned, List.append_assoc]
  exact congrArg (trace.returned other ++ ·) (Sock.exchanged_pending
    (valid index (count ▸ inside)) some_left slot_eq other)

theorem record_lossless {result : Except Error Unit} {middle : Sock} (lossless : trace.Lossless)
    (delivers : ioctl.DeliversRx trace.sock.port.rxBase trace.sock.port.niRxRings)
    (finds : FindsBuffer trace.sock (.recvToken ioctl))
    (received : trace.sock.recvToken ioctl = some (result, middle)) :
    (trace.record ioctl result middle).Lossless := by
  have ready := lossless.ready
  refine ⟨recvToken_rxReady ready delivers received, ?_⟩
  rcases trace.sock.recvToken_cases ready delivers with
    ⟨index, taken_from, slot, replaced, obtains, slot_eq, ⟨empty, -⟩ | ⟨free, -, succeeded⟩⟩ |
      ⟨nothing, null | ⟨synced, ringIdx, safe, done, failed⟩⟩
  · exact absurd empty (finds index taken_from obtains)
  · rw [succeeded, Option.some.injEq, Prod.mk.injEq] at received
    rcases received with ⟨rfl, rfl⟩
    intro other present
    apply lossless.exchanged delivers obtains slot_eq
    rcases obtains.spec ready.valid delivers with ⟨-, ⟨rings, rfl⟩, -⟩
    exact present
  · simp [null] at received
  · rw [failed, Option.some.injEq, Prod.mk.injEq] at received
    rcases received with ⟨rfl, rfl⟩
    rcases Receiver.next_of_nothing (fun index takes => nothing index _ (Or.inl ⟨rfl, takes⟩)) safe
      ready.placed ready.valid with ⟨ringIdx', passed⟩
    have point : trace.sock.rx.syncPoint trace.sock.port = some trace.sock.port := by
      rw [Receiver.syncPoint, passed]
    intro index present
    have present' : index < trace.sock.port.niRxRings := by
      rcases Port.sync_sameShape done with ⟨rings, rfl⟩
      exact present
    simp only [record, point, done]
    exact lossless.synced delivers done present'

theorem Lossless.sameRxRings {sock : Sock} (lossless : trace.Lossless)
    (same : trace.sock.port.SameRxRings sock.port) (same_rx : sock.rx = trace.sock.rx) :
    Lossless { trace with sock := sock } := by
  refine ⟨same.rxReady same_rx lossless.ready, ?_⟩
  intro index present
  have present' : index < trace.sock.port.niRxRings := by
    rcases same.shape with ⟨rings, bufs, shape⟩
    rw [shape] at present
    exact present
  have pending : sock.port.pending index = trace.sock.port.pending index := by
    simp only [Port.pending, Port.packets, same.rings_eq index present']
  rw [pending]
  exact lossless.published_eq index present'

theorem step_lossless (lossless : trace.Lossless) (kernel : KernelDelivers trace.sock action)
    (finds : FindsBuffer trace.sock action) (stepped : trace.step action = some next) :
    next.Lossless := by
  cases action with
  | recvToken ioctl =>
      simp only [step, Option.map_eq_some_iff] at stepped
      rcases stepped with ⟨⟨result, middle⟩, received, rfl⟩
      exact record_lossless lossless kernel finds received
  | recv ioctl =>
      simp only [step, Option.bind_eq_some_iff, Option.map_eq_some_iff] at stepped
      rcases stepped with ⟨⟨result, middle⟩, token, ⟨_, sock⟩, received, rfl⟩
      have recorded := record_lossless lossless kernel finds token
      simp only [Sock.recv, token, Option.bind_some] at received
      cases result with
      | error error =>
          simp only [Option.some.injEq, Prod.mk.injEq] at received
          rcases received with ⟨-, rfl⟩
          exact recorded
      | ok =>
          simp only [Option.map_eq_some_iff, Prod.mk.injEq] at received
          rcases received with ⟨pool, -, -, rfl⟩
          exact recorded.sameRxRings (.refl _) rfl
  | send packet first second =>
      simp only [step, Sock.step, Option.map_map, Option.map_eq_some_iff] at stepped
      rcases stepped with ⟨⟨result, sock⟩, sent, rfl⟩
      rcases send_sameRxRings kernel.1 kernel.2 sent with ⟨same, same_rx⟩
      exact lossless.sameRxRings same same_rx
  | flush ioctl =>
      simp only [step, Sock.step, Sock.flush, Option.map_map, Option.map_eq_some_iff] at stepped
      rcases stepped with ⟨after, done, rfl⟩
      exact lossless.sameRxRings (Port.sync_sameRxRings kernel done) rfl
  | pool action =>
      simp only [step, Sock.step, Option.map_map, Option.map_eq_some_iff] at stepped
      rcases stepped with ⟨⟨pool, discards⟩, -, rfl⟩
      exact lossless.sameRxRings (.refl _) rfl

/-- A new socket: what its rings contain is published, and nothing is returned. -/
def start (sock : Sock) : RecvTrace := ⟨sock, sock.port.pending, fun _ => []⟩

theorem create_rxReady {port : Port} {index : UInt32} {site : Site} {sock : Sock}
    (valid : port.RxValid) (delivers : ioctl.DeliversRx port.rxBase port.niRxRings)
    (created : Sock.create port ioctl index site = some sock) : sock.RxReady := by
  rcases Sock.create_cases created with ⟨extra, synced, pool, -, done, -, rfl⟩
  have valid' := @Port.sync_rxValid ioctl { port with niBufsHead := 0 } synced valid delivers done
  exact ⟨(Receiver.new synced).restarted_placed synced, valid'⟩

/-- In every run, the receives that fail for want of a free buffer keep their packet exactly when
there are none: each receive that finds a packet finds a free buffer. In such a run the packets
that the kernel has published on a ring are the tokens returned for it and what is pending. -/
theorem receives_keep_packets_iff {port : Port} {index : UInt32} {site : Site} {sock : Sock}
    (valid : port.RxValid) (delivers : ioctl.DeliversRx port.rxBase port.niRxRings)
    (created : Sock.create port ioctl index site = some sock) (actions : List Action)
    (kernel : RunMeets step (fun trace => KernelDelivers trace.sock) (start sock) actions) :
    (RunMeets step (fun trace => KeepsPacket trace.sock) (start sock) actions ↔
        RunMeets step (fun trace => FindsBuffer trace.sock) (start sock) actions) ∧
      (RunMeets step (fun trace => FindsBuffer trace.sock) (start sock) actions →
        ∀ final, run step (start sock) actions = some final →
          ∀ index < final.sock.port.niRxRings, final.published index =
            final.returned index ++ final.sock.port.pending index) := by
  have ready := create_rxReady valid delivers created
  refine ⟨?_, ?_⟩
  · apply runMeets_iff_of (fun trace => trace.sock.RxReady) _ _ ready kernel
    · exact fun ready allowed => keepsPacket_iff ready allowed
    · intro trace next action ready allowed _ stepped
      have same := trace.step_sock action
      rw [stepped, Option.map_some] at same
      exact step_rxReady ready allowed same.symm
  · intro finds final performed
    have lossless := run_invariant Lossless
      (fun held allowed stepped => step_lossless held allowed.1 allowed.2 stepped)
      (show (start sock).Lossless from ⟨ready, fun _ _ => rfl⟩) (kernel.and finds) performed
    exact lossless.published_eq

theorem Ioctl.id_deliversRx (base count : ℕ) : Ioctl.DeliversRx (some id) base count := by
  rintro kernel ⟨⟩ rings index - valid
  exact ⟨NetmapRing.grows_self valid, rfl, fun _ _ => rfl⟩

theorem Ioctl.id_leavesRx (base count : ℕ) : Ioctl.LeavesRx (some id) base count := by
  rintro kernel ⟨⟩
  exact fun _ _ _ => rfl

theorem Ioctl.giveAll_deliversRx (pointer base count : ℕ) :
    (Ioctl.giveAll pointer).DeliversRx base count := by
  rintro kernel ⟨⟩ rings index - valid
  by_cases here : base + index = pointer
  · subst here
    simp only [Function.update_self]
    exact ⟨NetmapRing.giveAll_grows valid, rfl, fun _ _ => rfl⟩
  · simp only [Function.update_of_ne here]
    exact ⟨NetmapRing.grows_self valid, rfl, fun _ _ => rfl⟩

theorem findsBuffer_of_poppable {sock : Sock} (poppable : sock.pool.channel.pop.1 ≠ none)
    (action : Action) : FindsBuffer sock action := by
  cases action with
  | recvToken _ | recv _ => exact fun _ _ _ => poppable
  | send _ _ _ | flush _ | pool _ => trivial

/-- The second receive slot has a packet, too, which the kernel has not published yet. -/
def twoPacketPort : Port :=
  { onePacketPort with
    rings := fun pointer =>
      if pointer = 0 then onePacketPort.rings pointer
      else ⟨2, 0, 0, 1, [⟨3, 60, 0, 0⟩, ⟨4, 64, 0, 0⟩], rfl⟩ }

/-- Three receives, between which the first packet is released and another one is sent; the second
and the third find what the kernel adds to the ring. -/
def threeReceives : List Action :=
  [.recvToken (some id), .pool (.consume 0 0), .pool (.dropPayload 0 ⟨0, 0⟩),
    .recvToken (.giveAll 1), .send [1, 2, 3] (some id) (some id), .recv (.giveAll 1)]

theorem threeReceives_kernelDelivers {action : Action} (sock : Sock)
    (action_mem : action ∈ threeReceives) : KernelDelivers sock action := by
  simp only [threeReceives, List.mem_cons, List.not_mem_nil, or_false] at action_mem
  rcases action_mem with rfl | rfl | rfl | rfl | rfl | rfl
  all_goals simp [KernelDelivers, Ioctl.id_deliversRx, Ioctl.id_leavesRx,
    Ioctl.giveAll_deliversRx]

/-- The third receive finds the free buffer that the first has put into the slot. -/
theorem receives_keep_packets_threeReceives :
    ∃ sock final, Sock.create twoPacketPort (some id) 0 ⟨0, 0⟩ = some sock ∧
      run step (start sock) threeReceives = some final ∧
      RunMeets step (fun trace => KeepsPacket trace.sock) (start sock) threeReceives ∧
      final.published 0 = final.returned 0 ++ final.sock.port.pending 0 ∧
      final.returned 0 = [(3, 60), (4, 64), (20, 60)] := by
  have performed : ((Sock.create twoPacketPort (some id) 0 ⟨0, 0⟩).bind fun sock =>
      (run step (start sock) threeReceives).map fun final =>
        (decide (RunMeets step (fun trace _ => trace.sock.pool.channel.pop.1 ≠ none) (start sock)
          threeReceives), final.sock.port.niRxRings, final.returned 0)) =
      some (true, 1, [(3, 60), (4, 64), (20, 60)]) := by
    decide +kernel
  simp only [Option.bind_eq_some_iff, Option.map_eq_some_iff, Prod.mk.injEq, decide_eq_true_eq]
    at performed
  rcases performed with ⟨sock, created, final, performed, poppable, rings, returned⟩
  have valid : twoPacketPort.RxValid := by
    intro index present
    obtain rfl : index = 0 := Nat.lt_one_iff.mp present
    decide
  have kernel : RunMeets step (fun trace => KernelDelivers trace.sock) (start sock)
      threeReceives :=
    runMeets_of_forall fun action action_mem trace =>
      threeReceives_kernelDelivers trace.sock action_mem
  have finds : RunMeets step (fun trace => FindsBuffer trace.sock) (start sock) threeReceives :=
    poppable.imp (fun _ => True) (fun _ poppable => findsBuffer_of_poppable poppable _)
      (fun _ _ _ => trivial) trivial
  rcases receives_keep_packets_iff valid (Ioctl.id_deliversRx _ _) created threeReceives kernel with
    ⟨keeps, lossless⟩
  exact ⟨sock, final, created, performed, keeps.mpr finds,
    lossless finds final performed 0 (rings ▸ Nat.one_pos), returned⟩

/-- The port that was opened without extra buffers. -/
def noExtraPort : Port := { onePacketPort with niBufsHead := 0 }

theorem packet_lost_without_buffers :
    ∃ sock next, Sock.create noExtraPort (some id) 0 ⟨0, 0⟩ = some sock ∧
      sock.recvToken (some id) = some (.error .noMemory, next) ∧
      sock.port.pending 0 = [(3, 60)] ∧ next.port.pending 0 = [] ∧
      ¬KeepsPacket sock (.recvToken (some id)) := by
  have failed : ((Sock.create noExtraPort (some id) 0 ⟨0, 0⟩).bind fun sock =>
      (sock.recvToken (some id)).map Prod.fst) = some (.error .noMemory) := by
    decide +kernel
  have passed : ((Sock.create noExtraPort (some id) 0 ⟨0, 0⟩).bind fun sock =>
      (sock.recvToken (some id)).map fun (_, next) =>
        (sock.port.pending 0, next.port.pending 0, (sock.port.rxRing 0).head,
          (next.port.rxRing 0).head, sock.port.niRxRings)) = some ([(3, 60)], [], 0, 1, 1) := by
    decide +kernel
  simp only [Option.bind_eq_some_iff, Option.map_eq_some_iff, Prod.exists, exists_and_right,
    exists_eq_right] at failed
  rcases failed with ⟨sock, created, next, received⟩
  simp only [created, received, Option.bind_some, Option.map_some, Option.some.injEq,
    Prod.mk.injEq] at passed
  rcases passed with ⟨before, after, head, moved, rings⟩
  refine ⟨sock, next, created, received, before, after, ?_⟩
  intro keeps
  have unmoved := ((keeps next received).1 0 (rings ▸ Nat.one_pos)).1
  rw [head, moved] at unmoved
  simp at unmoved

end RecvTrace

end Nethuns.Netmap
