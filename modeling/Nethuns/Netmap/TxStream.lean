import Nethuns.Netmap.Transmission
import Mathlib.Data.List.Pairwise

/-!
# The frames that a netmap socket transmits

A send copies the packet into the buffer of the slot that it takes, and dropping the `TxBuf`
clears the flags of the slot. Nothing writes the length: the kernel reads as many bytes as the
slot had on its previous lap. The frames on the wire are the packets sent exactly as long as each
send takes a slot whose old length is that of its packet.

What the kernel has transmitted from each ring is kept beside the socket. At `NIOCTXSYNC` it
takes the slots from where it stopped at the previous call up to `head`.
-/

namespace Nethuns.Netmap

open Nethuns.Lib Nethuns.Mpsc Nethuns.Api

namespace Port

/-- The frame that the kernel reads from a slot. -/
def frame (port : Port) (pointer position : ℕ) : List UInt8 :=
  match port.slot? pointer position with
  | none => []
  | some slot => (port.bufs slot.bufIdx.toNat).take slot.len.toNat

/-- The frames in the slots of a ring from a position up to `head`. -/
def frames (port : Port) (index start : ℕ) : List (List UInt8) :=
  window (port.frame index) (port.rings index).numSlots.toNat start
    (distance (port.rings index).numSlots.toNat start (port.rings index).head.toNat)

/-- The buffers in the transmit slots of the NIC. -/
def nicTxBufs (port : Port) : List ℕ := (List.range port.niTxRings).flatMap port.ringBufs

end Port

/-- Where the kernel has stopped on each transmit ring, the frames that it has transmitted from
there, and the packets sent there. -/
structure TxLog where
  hw : ℕ → ℕ
  wire : ℕ → List (List UInt8)
  sent : ℕ → List (List UInt8)

namespace TxLog

/-- The kernel transmits what is in the rings at `NIOCTXSYNC`. -/
def transmit (log : TxLog) (port : Port) : TxLog :=
  { log with
    hw := fun index => (port.rings index).head.toNat
    wire := fun index => log.wire index ++ port.frames index (log.hw index) }

/-- A packet is sent through a ring. -/
def send (log : TxLog) (index : ℕ) (packet : List UInt8) : TxLog :=
  { log with sent := Function.update log.sent index (log.sent index ++ [packet]) }

/-- Nothing is pending in the rings. -/
def start (port : Port) : TxLog where
  hw index := (port.rings index).head.toNat
  wire _ := []
  sent _ := []

end TxLog

/-- The ports at which a send calls the kernel. -/
def Transmitter.syncPoints (tx : Transmitter) (port : Port) (ioctl : Ioctl) : List Port :=
  (if tx.synced then [] else [port]) ++
    match (tx.next port ioctl).outcome with
    | some (none, _, passed) => [passed]
    | _ => []

/-- A socket with what has been sent and transmitted. -/
structure TxTrace where
  sock : Sock
  log : TxLog

namespace TxTrace

/-- Performs one action; `none` when it panics. -/
def step (trace : TxTrace) : Action → Option TxTrace
  | .send packet first second =>
      (trace.sock.send packet first second).map fun (result, sock) =>
        let log := (trace.sock.tx.syncPoints trace.sock.port first).foldl TxLog.transmit trace.log
        match result, (trace.sock.tx.obtain trace.sock.port first second).outcome with
        | .ok (), some (some buf, _, _) => ⟨sock, log.send buf.pointer packet⟩
        | _, _ => ⟨sock, log⟩
  | .flush ioctl => (trace.sock.flush ioctl).map fun sock =>
      ⟨sock, trace.log.transmit trace.sock.port⟩
  | action => (trace.sock.step action).map fun sock => ⟨sock, trace.log⟩

theorem step_sock (trace : TxTrace) (action : Action) :
    (trace.step action).map TxTrace.sock = trace.sock.step action := by
  cases action with
  | send packet first second =>
      simp only [step, Sock.step, Option.map_map]
      refine congrArg (Option.map · _) (funext ?_)
      rintro ⟨result, sock⟩
      simp only [Function.comp_apply]
      split <;> rfl
  | recvToken ioctl | recv ioctl | flush ioctl | pool action =>
      simp [step, Sock.step, Function.comp_def]

end TxTrace

/-! ## The log and the rings -/

/-- What has been sent through a ring is what the kernel has transmitted and what is pending
there. The slots that are pending and those that are free do not fill a ring. -/
structure TxLog.Streams (log : TxLog) (port : Port) : Prop where
  valid : port.TxValid
  distinct : port.nicTxBufs.Nodup
  hw_lt : ∀ index < port.niTxRings, log.hw index < (port.rings index).numSlots.toNat
  room : ∀ index < port.niTxRings,
    distance (port.rings index).numSlots.toNat (log.hw index) (port.rings index).head.toNat +
      (port.rings index).userCount < (port.rings index).numSlots.toNat
  sent_eq : ∀ index < port.niTxRings,
    log.sent index = log.wire index ++ port.frames index (log.hw index)

section Streams

variable {log : TxLog} {port after : Port}

theorem Port.nicTxBufs_congr (count : after.niTxRings = port.niTxRings)
    (same : ∀ index < port.niTxRings, after.ringBufs index = port.ringBufs index) :
    after.nicTxBufs = port.nicTxBufs := by
  rw [nicTxBufs, nicTxBufs, count]
  apply List.flatMap_congr
  intro index index_mem
  exact same index (List.mem_range.mp index_mem)

theorem Port.slot_unique (distinct : port.nicTxBufs.Nodup) {index other position place : ℕ}
    {slot slot' : Slot} (present : index < port.niTxRings) (present' : other < port.niTxRings)
    (here : port.slot? index position = some slot) (there : port.slot? other place = some slot')
    (same : slot.bufIdx = slot'.bufIdx) : index = other ∧ position = place := by
  have buf_at : ∀ {pointer position slot}, port.slot? pointer position = some slot →
      (port.ringBufs pointer)[position]? = some slot.bufIdx.toNat := by
    intro pointer position slot at_position
    simp only [Port.slot?] at at_position
    simp [ringBufs, at_position]
  rcases List.nodup_flatMap.mp distinct with ⟨within, across⟩
  have same_ring : index = other := by
    by_contra apart
    have symmetric : Std.Symm (Function.onFun List.Disjoint port.ringBufs) :=
      ⟨fun _ _ apart => apart.symm⟩
    have disjoint := across.forall (List.mem_range.mpr present) (List.mem_range.mpr present') apart
    exact disjoint (List.mem_of_getElem? (buf_at here))
      (same ▸ List.mem_of_getElem? (buf_at there))
  subst other
  refine ⟨rfl, ?_⟩
  have nodup := within index (List.mem_range.mpr present)
  have inside : position < (port.ringBufs index).length := by
    rcases List.getElem?_eq_some_iff.mp (buf_at here) with ⟨inside, -⟩
    exact inside
  apply (List.getElem?_inj inside nodup).mp
  rw [buf_at here, buf_at there, same]

theorem TxLog.Streams.congr (streams : log.Streams port) (shape : port.SameShape after)
    (rings : ∀ index < port.niTxRings, after.rings index = port.rings index) :
    log.Streams after := by
  have count := shape.niTxRings
  have bufs : after.bufs = port.bufs := by
    rcases shape with ⟨_, rfl⟩
    rfl
  have frames : ∀ index < port.niTxRings, after.frames index = port.frames index := by
    intro index present
    have frame : after.frame index = port.frame index := by
      funext position
      simp only [Port.frame, Port.slot?, rings index present, bufs]
    funext start
    simp only [Port.frames, frame, rings index present]
  have nicTxBufs : after.nicTxBufs = port.nicTxBufs := by
    apply Port.nicTxBufs_congr count
    intro index present
    rw [Port.ringBufs, Port.ringBufs, rings index present]
  refine ⟨?_, nicTxBufs ▸ streams.distinct, ?_, ?_, ?_⟩
  all_goals
    intro index present
    rw [count] at present
    simp only [rings index present, frames index present]
  · exact streams.valid index present
  · exact streams.hw_lt index present
  · exact streams.room index present
  · exact streams.sent_eq index present

theorem TxLog.start_streams (valid : port.TxValid) (distinct : port.nicTxBufs.Nodup) :
    (TxLog.start port).Streams port := by
  refine ⟨valid, distinct, ?_, ?_, ?_⟩
  · intro index present
    exact (valid index present).head_toNat_lt
  · intro index present
    simp only [start, distance_self, Nat.zero_add]
    exact (valid index present).userCount_lt
  · intro index present
    simp [start, Port.frames]

theorem TxLog.Streams.transmit {ioctl : Ioctl} (streams : log.Streams port)
    (keeps : ioctl.KeepsTx port.niTxRings) (keepsBufs : ioctl.KeepsBufs)
    (done : port.sync ioctl = some after) : (log.transmit port).Streams after := by
  have valid := Port.sync_txValid streams.valid keeps done
  have keeps_bufs := Port.sync_keeps keepsBufs done
  have head_eq : ∀ index < port.niTxRings,
      (after.rings index).head = (port.rings index).head := fun _ =>
    Port.sync_head streams.valid keeps done
  have count := (Port.sync_sameShape done).niTxRings
  have nicTxBufs : after.nicTxBufs = port.nicTxBufs :=
    Port.nicTxBufs_congr count fun index _ => keeps_bufs.ringBufs index
  refine ⟨valid, nicTxBufs ▸ streams.distinct, ?_, ?_, ?_⟩
  all_goals
    intro index present
    have ready := valid index present
    rw [count] at present
    simp only [TxLog.transmit, ← head_eq index present]
  · exact ready.head_toNat_lt
  · simp only [distance_self, Nat.zero_add]
    exact ready.userCount_lt
  · simp only [Port.frames, distance_self, window_zero, List.append_nil]
    exact streams.sent_eq index present

section Send

variable {index : ℕ} {slot : Slot} {packet : List UInt8}

/-- The port after a packet is copied into the first free slot of a ring. -/
def Port.fillSlot (port : Port) (index : ℕ) (slot : Slot) (packet : List UInt8) : Port :=
  { port.takeSlot index with
    bufs := Function.update port.bufs slot.bufIdx.toNat
      (packet ++ (port.bufs slot.bufIdx.toNat).drop packet.length) }

theorem Port.takeSlot_slot? (port : Port) (index other place : ℕ) :
    (port.takeSlot index).slot? other place =
      if other = index ∧ place = (port.rings index).head.toNat then
        (port.slot? other place).map .clearFlags
      else port.slot? other place := by
  have same : (port.setRing index (port.rings index).advance).slot? other place =
      port.slot? other place := by
    by_cases here : other = index
    · simp [slot?, setRing, here, NetmapRing.advance]
    · simp [slot?, setRing, Function.update_of_ne here]
  rw [Port.takeSlot_eq, Port.updateSlot_slot?, same]

theorem Port.fillSlot_slot? (packet : List UInt8)
    (slot_eq : port.slot? index (port.rings index).head.toNat = some slot) :
    (port.fillSlot index slot packet).slot? index (port.rings index).head.toNat =
      some slot.clearFlags := by
  change (port.takeSlot index).slot? index _ = _
  rw [takeSlot_slot?, if_pos ⟨rfl, rfl⟩, slot_eq, Option.map_some]

/-- The kernel will read the packet from the slot, and the same frames as before elsewhere. -/
theorem Port.fillSlot_frame (distinct : port.nicTxBufs.Nodup) (present : index < port.niTxRings)
    (slot_eq : port.slot? index (port.rings index).head.toNat = some slot)
    (len_eq : slot.len.toNat = packet.length) {other : ℕ} (present' : other < port.niTxRings) :
    (port.fillSlot index slot packet).frame other =
      if other = index then
        Function.update (port.frame index) (port.rings index).head.toNat packet
      else port.frame other := by
  have slots : (port.fillSlot index slot packet).slot? = (port.takeSlot index).slot? := rfl
  have elsewhere : ∀ {place}, ¬(other = index ∧ place = (port.rings index).head.toNat) →
      (port.fillSlot index slot packet).frame other place = port.frame other place := by
    intro place elsewhere
    simp only [frame, slots, takeSlot_slot?, if_neg elsewhere]
    rcases at_place : port.slot? other place with _ | slot'
    · rfl
    · have apart : slot'.bufIdx.toNat ≠ slot.bufIdx.toNat := by
        intro same
        exact elsewhere (slot_unique distinct present' present at_place slot_eq
          (UInt32.toNat_inj.mp same))
      simp only [fillSlot, Function.update_of_ne apart]
  funext place
  by_cases ring : other = index
  · subst other
    rw [if_pos rfl]
    by_cases here : place = (port.rings index).head.toNat
    · subst place
      rw [Function.update_self]
      simp only [frame, slots, takeSlot_slot?, slot_eq, and_self, if_true, Option.map_some]
      simp [Slot.clearFlags, fillSlot, len_eq]
    · rw [Function.update_of_ne here]
      exact elsewhere fun both => here both.2
  · rw [if_neg ring]
    exact elsewhere fun both => ring both.1

theorem Port.fillSlot_ring (port : Port) (index : ℕ) (slot : Slot) (packet : List UInt8) :
    (port.fillSlot index slot packet).rings index =
      (port.rings index).advance.updateSlot (port.rings index).head.toNat .clearFlags := by
  simp [fillSlot, takeSlot, setRing]

theorem Port.fillSlot_ring_of_ne (port : Port) (slot : Slot) (packet : List UInt8) {other : ℕ}
    (elsewhere : other ≠ index) :
    (port.fillSlot index slot packet).rings other = port.rings other := by
  simp [fillSlot, takeSlot, setRing, Function.update_of_ne elsewhere]

theorem Port.fillSlot_nicTxBufs (port : Port) (index : ℕ) (slot : Slot) (packet : List UInt8) :
    (port.fillSlot index slot packet).nicTxBufs = port.nicTxBufs := by
  have advanced := (@setRing_keeps port index (port.rings index).advance rfl).1
  have cleared := clearFlags_keeps (port.setRing index (port.rings index).advance) index
    (port.rings index).head.toNat (port.fillSlot index slot packet).bufs
  rw [← takeSlot_eq] at cleared
  apply nicTxBufs_congr
  · rfl
  · intro other _
    exact (advanced.trans cleared).ringBufs other

/-- With room in the ring, the slot that is taken is the last of those that are pending. -/
theorem TxLog.Streams.distance_nextHead (streams : log.Streams port)
    (present : index < port.niTxRings)
    (some_left : (port.rings index).head ≠ (port.rings index).tail) :
    distance (port.rings index).numSlots.toNat (log.hw index) (port.rings index).nextHead.toNat =
      distance (port.rings index).numSlots.toNat (log.hw index) (port.rings index).head.toNat +
        1 := by
  have ready := streams.valid index present
  have room := streams.room index present
  have taken := ready.userCount_advance some_left
  rw [ready.nextHead_toNat]
  exact distance_succ (streams.hw_lt index present) ready.head_toNat_lt (by omega)

theorem TxLog.Streams.fillSlot_frames (streams : log.Streams port)
    (present : index < port.niTxRings)
    (some_left : (port.rings index).head ≠ (port.rings index).tail)
    (slot_eq : port.slot? index (port.rings index).head.toNat = some slot)
    (len_eq : slot.len.toNat = packet.length) :
    (port.fillSlot index slot packet).frames index (log.hw index) =
      port.frames index (log.hw index) ++ [packet] := by
  have frame := Port.fillSlot_frame streams.distinct present slot_eq len_eq present
  have hw_lt := streams.hw_lt index present
  have room := streams.room index present
  have at_head := @add_distance_mod _ (log.hw index) (port.rings index).head.toNat hw_lt
  rw [Nat.mod_eq_of_lt (streams.valid index present).head_toNat_lt] at at_head
  have extended := @window_update_snoc _ (port.frame index) (port.rings index).numSlots.toNat
    (log.hw index) _ packet (Nat.lt_of_le_of_lt (Nat.le_add_right _ _) room)
  rw [at_head] at extended
  rw [Port.frames, frame, if_pos rfl, Port.fillSlot_ring]
  change window _ (port.rings index).numSlots.toNat _ (distance
    (port.rings index).numSlots.toNat (log.hw index) (port.rings index).nextHead.toNat) = _
  rw [streams.distance_nextHead present some_left]
  exact extended

theorem TxLog.Streams.send (streams : log.Streams port) (present : index < port.niTxRings)
    (some_left : (port.rings index).head ≠ (port.rings index).tail)
    (slot_eq : port.slot? index (port.rings index).head.toNat = some slot)
    (len_eq : slot.len.toNat = packet.length) :
    (log.send index packet).Streams (port.fillSlot index slot packet) := by
  refine ⟨Port.takeSlot_txValid streams.valid some_left present, ?_, ?_, ?_, ?_⟩
  · rw [Port.fillSlot_nicTxBufs]
    exact streams.distinct
  all_goals
    intro other present'
    by_cases here : other = index
  · subst other
    rw [Port.fillSlot_ring]
    exact streams.hw_lt index present
  · rw [Port.fillSlot_ring_of_ne port slot packet here]
    exact streams.hw_lt other present'
  · subst other
    have room := streams.room index present
    have taken := (streams.valid index present).userCount_advance some_left
    have grown := streams.distance_nextHead present some_left
    rw [Port.fillSlot_ring]
    change distance (port.rings index).numSlots.toNat (log.hw index)
        (port.rings index).nextHead.toNat + (port.rings index).advance.userCount <
      (port.rings index).numSlots.toNat
    omega
  · rw [Port.fillSlot_ring_of_ne port slot packet here]
    exact streams.room other present'
  · subst other
    have frames := streams.fillSlot_frames present some_left slot_eq len_eq
    change Function.update log.sent index (log.sent index ++ [packet]) index =
      log.wire index ++ (port.fillSlot index slot packet).frames index (log.hw index)
    rw [Function.update_self, frames, streams.sent_eq index present, List.append_assoc]
  · have frame := Port.fillSlot_frame streams.distinct present slot_eq len_eq present'
    rw [if_neg here] at frame
    simp only [TxLog.send, Function.update_of_ne here, Port.frames, frame,
      Port.fillSlot_ring_of_ne port slot packet here]
    exact streams.sent_eq other present'

end Send

end Streams

/-! ## The sends -/

section Sends

variable {tx : Transmitter} {port readied : Port} {log : TxLog} {first second : Ioctl}

/-- The kernel is called at the first send, and when the first scan finds nothing. -/
theorem Transmitter.syncPoints_eq (valid : port.TxValid) (keeps : first.KeepsTx port.niTxRings)
    (done : tx.readied port first = some readied) :
    (∀ index, tx.Takes readied index →
        tx.syncPoints port first = if tx.synced then [] else [port]) ∧
      ((∀ index, ¬tx.Takes readied index) →
        tx.syncPoints port first = (if tx.synced then [] else [port]) ++ [readied]) := by
  rcases readied_spec valid keeps done with ⟨valid', -⟩
  simp only [syncPoints, next_outcome, done, Option.bind_some]
  rcases scan_cases { tx with synced := true } valid' with
    ⟨index, takes, scanned⟩ | ⟨nothing, ringIdx, scanned⟩
  · refine ⟨fun _ _ => by simp [scanned], fun none => absurd takes (none index)⟩
  · refine ⟨fun index takes => absurd takes (nothing index), fun _ => by simp [scanned]⟩

theorem TxLog.Streams.at_scan (streams : log.Streams port)
    (keeps : first.KeepsTx port.niTxRings) (keepsBufs : first.KeepsBufs)
    (done : tx.readied port first = some readied) :
    ((if tx.synced then [] else [port]).foldl TxLog.transmit log).Streams readied := by
  simp only [Transmitter.readied] at done
  split at done
  · simp only [Option.some.injEq] at done
    subst readied
    rename_i synced
    simpa [synced] using streams
  · rename_i unsynced
    simpa [unsynced] using streams.transmit keeps keepsBufs done

/-- What is transmitted during a send, up to the taking of the slot. -/
theorem TxLog.Streams.obtains {index : ℕ} {ready : Port} (streams : log.Streams port)
    (keepsFirst : first.KeepsTx port.niTxRings) (keepsSecond : second.KeepsTx port.niTxRings)
    (bufsFirst : first.KeepsBufs) (bufsSecond : second.KeepsBufs)
    (obtains : tx.Obtains port first second index ready) :
    ((tx.syncPoints port first).foldl TxLog.transmit log).Streams ready := by
  rcases obtains with ⟨readied, done, found⟩
  have start := streams.at_scan keepsFirst bufsFirst done
  rcases Transmitter.syncPoints_eq streams.valid keepsFirst done with ⟨at_once, later⟩
  rcases found with ⟨rfl, takes⟩ | ⟨nothing, synced, -⟩
  · rw [at_once index takes]
    exact start
  · have shape := (Transmitter.readied_spec streams.valid keepsFirst done).2
    rw [later nothing, List.foldl_append]
    exact start.transmit (shape.niTxRings ▸ keepsSecond) bufsSecond synced

end Sends

namespace TxTrace

variable {trace next : TxTrace}

/-- The kernel keeps the buffers of the slots and the cursors of the user. -/
def KernelTransmits (trace : TxTrace) (action : Action) : Prop :=
  KernelKeeps trace.sock action ∧ KernelKeepsTx trace.sock action

/-- The packets are no longer than the buffers. -/
def Fits (trace : TxTrace) : Action → Prop
  | .send packet _ _ => packet.length ≤ trace.sock.port.nrBufSize
  | _ => True

/-- A send that succeeds advances `head` over a slot from which the kernel will read the packet:
with its length, no flags, and the packet at the start of its buffer, which is the one that the
slot had. -/
def PublishesPacket (trace : TxTrace) : Action → Prop
  | .send packet first second => ∀ sock,
      trace.sock.send packet first second = some (.ok (), sock) →
        ∃ index ready old new, trace.sock.tx.Obtains trace.sock.port first second index ready ∧
          ready.slot? index (ready.rings index).head.toNat = some old ∧
          (sock.port.rings index).head = (ready.rings index).nextHead ∧
          sock.port.slot? index (ready.rings index).head.toNat = some new ∧
          new.len.toNat = packet.length ∧ new.bufIdx = old.bufIdx ∧ new.flags = 0 ∧
          packet <+: sock.port.bufs new.bufIdx.toNat
  | _ => True

/-- The slot that a send takes has the length of its packet already. -/
def TakesFittingSlot (trace : TxTrace) : Action → Prop
  | .send packet first second => ∀ index ready slot,
      trace.sock.tx.Obtains trace.sock.port first second index ready →
        ready.slot? index (ready.rings index).head.toNat = some slot →
        slot.len.toNat = packet.length
  | _ => True

section Publish

variable {action : Action}

theorem publishesPacket_iff (ready : trace.sock.TxReady) (kernel : trace.KernelTransmits action)
    (fits : trace.Fits action) : trace.PublishesPacket action ↔ trace.TakesFittingSlot action := by
  cases action with
  | send packet first second =>
      rcases kernel with ⟨-, keepsFirst, keepsSecond⟩
      simp only [PublishesPacket, TakesFittingSlot]
      rcases trace.sock.send_cases packet ready.valid keepsFirst keepsSecond with
        ⟨index, taken_from, slot, obtains, -, slot_eq, sent⟩ | ⟨nothing, sent⟩
      · rw [if_neg (Nat.not_lt.mpr fits)] at sent
        have filled := Port.fillSlot_slot? packet slot_eq
        constructor
        · intro publishes other ready' slot' obtains' slot_eq'
          rcases publishes _ sent with ⟨_, _, old, new, found, old_eq, -, new_eq, len_eq, -⟩
          obtain ⟨rfl, rfl⟩ := obtains.unique found
          obtain ⟨rfl, rfl⟩ := obtains.unique obtains'
          obtain rfl := Option.some.inj (slot_eq.symm.trans slot_eq')
          obtain rfl := Option.some.inj (filled.symm.trans new_eq)
          exact len_eq
        · intro fitting sock succeeded
          rw [sent, Option.some.injEq, Prod.mk.injEq] at succeeded
          rcases succeeded with ⟨-, rfl⟩
          refine ⟨index, taken_from, slot, slot.clearFlags, obtains, slot_eq, ?_, filled,
            fitting index taken_from slot obtains slot_eq, rfl, rfl, ?_⟩
          · simp [Port.takeSlot, Port.setRing, NetmapRing.updateSlot, NetmapRing.advance]
          · simp [Slot.clearFlags]
      · constructor
        · intro _ index taken_from slot obtains
          exact absurd obtains (nothing index taken_from)
        · intro _ sock succeeded
          rcases sent with sent | ⟨_, _, _, -, -, sent⟩ <;> simp [sent] at succeeded
  | recvToken ioctl | recv ioctl | flush ioctl | pool action =>
      exact Iff.rfl

theorem step_txReady (ready : trace.sock.TxReady) (kernel : trace.KernelTransmits action)
    (stepped : trace.step action = some next) : next.sock.TxReady := by
  have same := trace.step_sock action
  rw [stepped, Option.map_some] at same
  exact Netmap.step_txReady ready kernel.2 same.symm

theorem step_streams (streams : trace.log.Streams trace.sock.port)
    (aimed : trace.sock.rx.Aimed trace.sock.port) (kernel : trace.KernelTransmits action)
    (fits : trace.Fits action) (fitting : trace.TakesFittingSlot action)
    (stepped : trace.step action = some next) : next.log.Streams next.sock.port := by
  cases action with
  | send packet first second =>
      rcases kernel with ⟨⟨⟨bufsFirst, -⟩, bufsSecond, -⟩, keepsFirst, keepsSecond⟩
      simp only [step, Option.map_eq_some_iff] at stepped
      rcases stepped with ⟨⟨result, sock⟩, sends, rfl⟩
      rcases trace.sock.send_cases packet streams.valid keepsFirst keepsSecond with
        ⟨index, ready, slot, obtains, ⟨buf, after, found, rfl⟩, slot_eq, sent⟩ |
          ⟨nothing, panics | ⟨readied, ready, ringIdx, done, synced, sent⟩⟩
      · have at_slot := streams.obtains keepsFirst keepsSecond bufsFirst bufsSecond obtains
        rcases obtains.spec streams.valid keepsFirst keepsSecond with
          ⟨-, shape, -, present, some_left⟩
        rw [sent, if_neg (Nat.not_lt.mpr fits), Option.some.injEq, Prod.mk.injEq] at sends
        rcases sends with ⟨rfl, rfl⟩
        simp only [found]
        exact at_slot.send (shape.niTxRings ▸ present) some_left slot_eq
          (fitting buf.pointer ready slot obtains slot_eq)
      · simp [panics] at sends
      · rw [sent, Option.some.injEq, Prod.mk.injEq] at sends
        rcases sends with ⟨rfl, rfl⟩
        have passed : ∀ index, ¬trace.sock.tx.Takes readied index := fun index takes =>
          nothing index readied ⟨readied, done, Or.inl ⟨rfl, takes⟩⟩
        have shape := (Transmitter.readied_spec streams.valid keepsFirst done).2
        have start := streams.at_scan keepsFirst bufsFirst done
        simp only
        rw [(Transmitter.syncPoints_eq streams.valid keepsFirst done).2 passed, List.foldl_append]
        exact start.transmit (shape.niTxRings ▸ keepsSecond) bufsSecond synced
  | recvToken ioctl =>
      simp only [step, Sock.step, Option.map_map, Option.map_eq_some_iff] at stepped
      rcases stepped with ⟨⟨result, sock⟩, received, rfl⟩
      have same := recvToken_sameTx aimed kernel.2 received
      exact streams.congr same.shape same.rings_eq
  | recv ioctl =>
      simp only [step, Sock.step, Option.map_map, Option.map_eq_some_iff] at stepped
      rcases stepped with ⟨⟨result, sock⟩, received, rfl⟩
      have same := recv_sameTx aimed kernel.2 received
      exact streams.congr same.shape same.rings_eq
  | flush ioctl =>
      simp only [step, Sock.flush, Option.map_map, Option.map_eq_some_iff] at stepped
      rcases stepped with ⟨after, done, rfl⟩
      exact streams.transmit kernel.2 kernel.1.1 done
  | pool action =>
      simp only [step, Sock.step, Option.map_map, Option.map_eq_some_iff] at stepped
      rcases stepped with ⟨⟨pool, discards⟩, -, rfl⟩
      exact streams

end Publish

/-- A new socket, with nothing sent. -/
def start (sock : Sock) : TxTrace := ⟨sock, .start sock.port⟩

theorem create_distinct {port : Port} {ioctl : Ioctl} {index : UInt32} {site : Site} {sock : Sock}
    (distinct : port.nicTxBufs.Nodup) (leaves : ioctl.LeavesTx port.niTxRings)
    (created : Sock.create port ioctl index site = some sock) : sock.port.nicTxBufs.Nodup := by
  rcases Sock.create_cases created with ⟨extra, synced, pool, -, done, -, rfl⟩
  rcases Port.sync_eq_some done with ⟨kernel, answered, rfl⟩
  rw [@Port.nicTxBufs_congr port]
  · exact distinct
  · rfl
  · intro ring present
    simp only [Port.ringBufs]
    rw [leaves kernel answered port.rings ring present]

/-- In every run of sends whose packets fit into the buffers, every successful send publishes its
packet exactly when every send takes a slot that has the length of its packet already. In such a
run the frames of each ring, on the wire and still pending, are the packets sent there. -/
theorem sends_published_iff {port : Port} {ioctl : Ioctl} {index : UInt32} {site : Site}
    {sock : Sock} (valid : port.TxValid) (distinct : port.nicTxBufs.Nodup)
    (leaves : ioctl.LeavesTx port.niTxRings)
    (created : Sock.create port ioctl index site = some sock) (actions : List Action)
    (kernel : RunMeets step KernelTransmits (start sock) actions)
    (fits : RunMeets step Fits (start sock) actions) :
    (RunMeets step PublishesPacket (start sock) actions ↔
        RunMeets step TakesFittingSlot (start sock) actions) ∧
      (RunMeets step TakesFittingSlot (start sock) actions →
        ∀ final, run step (start sock) actions = some final →
          ∀ index < final.sock.port.niTxRings,
            final.log.sent index = final.log.wire index ++
              final.sock.port.frames index (final.log.hw index)) := by
  have ready := create_txReady valid leaves created
  have assumed := kernel.and fits
  refine ⟨?_, ?_⟩
  · apply runMeets_iff_of (fun trace => trace.sock.TxReady) _ _ ready assumed
    · exact fun ready allowed => publishesPacket_iff ready allowed.1 allowed.2
    · exact fun ready allowed _ stepped => step_txReady ready allowed.1 stepped
  · intro fitting final performed
    have streams := (run_invariant (fun trace =>
        trace.sock.TxReady ∧ trace.log.Streams trace.sock.port)
      (fun held allowed stepped => ⟨step_txReady held.1 allowed.1.1 stepped,
        step_streams held.2 held.1.aimed allowed.1.1 allowed.1.2 allowed.2 stepped⟩)
      ⟨ready, TxLog.start_streams ready.valid (create_distinct distinct leaves created)⟩
      (assumed.and fitting) performed).2
    exact streams.sent_eq

/-- A send of three bytes and the synchronization that transmits them. -/
def sendThree : List Action :=
  [.send [1, 2, 3] (some id) (some id), .flush (some id)]

theorem sendThree_kernelTransmits (trace : TxTrace) :
    RunMeets step KernelTransmits trace sendThree := by
  refine ⟨⟨?_, ?_⟩, fun _ _ => ⟨⟨?_, ?_⟩, fun _ _ => trivial⟩⟩
  · simp [KernelKeeps, Ioctl.id_keepsBufs, Ioctl.id_leavesFrom]
  · simp [KernelKeepsTx, Ioctl.id_keepsTx]
  · simp [KernelKeeps, Ioctl.id_keepsBufs, Ioctl.id_leavesFrom]
  · simp [KernelKeepsTx, Ioctl.id_keepsTx]

/-- The transmit slots have had frames of three bytes on their previous lap. -/
def secondLapPort : Port :=
  { onePacketPort with
    rings := fun pointer =>
      if pointer = 0 then ⟨2, 0, 0, 1, [⟨1, 3, 0, 0⟩, ⟨2, 3, 0, 0⟩], rfl⟩
      else onePacketPort.rings pointer }

/-- On a port with one ring and a kernel that does nothing, the first send takes its slot there. -/
theorem first_takes {port : Port} {sock : Sock} (one : port.niTxRings = 1)
    (created : Sock.create port (some id) 0 ⟨0, 0⟩ = some sock) {index : ℕ} {ready : Port}
    (obtains : sock.tx.Obtains sock.port (some id) (some id) index ready) :
    index = 0 ∧ ready.rings = port.rings := by
  have same : ∀ {before after : Port}, before.sync (some id) = some after → after = before := by
    rintro before after ⟨⟩
    rfl
  have opened : sock.port.niTxRings = 1 ∧ sock.port.rings = port.rings := by
    rcases Sock.create_cases created with ⟨extra, synced, pool, -, done, -, rfl⟩
    rw [same done]
    exact ⟨one, rfl⟩
  rcases obtains with ⟨readied, done, found⟩
  obtain rfl : readied = sock.port := by
    simp only [Transmitter.readied] at done
    split at done
    · exact (Option.some.inj done).symm
    · exact same done
  rcases found with ⟨rfl, takes⟩ | ⟨-, synced, takes⟩
  · have := takes.present
    exact ⟨by omega, opened.2⟩
  · obtain rfl := same synced
    have := takes.present
    exact ⟨by omega, opened.2⟩

theorem sends_published_secondLapPort :
    ∃ sock final, Sock.create secondLapPort (some id) 0 ⟨0, 0⟩ = some sock ∧
      RunMeets step PublishesPacket (start sock) sendThree ∧
      run step (start sock) sendThree = some final ∧
      final.log.sent 0 = final.log.wire 0 ++ final.sock.port.frames 0 (final.log.hw 0) := by
  have performed : ((Sock.create secondLapPort (some id) 0 ⟨0, 0⟩).bind fun sock =>
      (run step (start sock) sendThree).map fun final =>
        (sock.port.nrBufSize, final.sock.port.niTxRings)) = some (2048, 1) := by
    decide +kernel
  simp only [Option.bind_eq_some_iff, Option.map_eq_some_iff, Prod.mk.injEq] at performed
  rcases performed with ⟨sock, created, final, performed, size, rings⟩
  have fits : RunMeets step Fits (start sock) sendThree := by
    refine ⟨?_, fun _ _ => ⟨trivial, fun _ _ => trivial⟩⟩
    change _ ≤ sock.port.nrBufSize
    rw [size]
    decide
  have fitting : RunMeets step TakesFittingSlot (start sock) sendThree := by
    refine ⟨?_, fun _ _ => ⟨trivial, fun _ _ => trivial⟩⟩
    intro index ready slot obtains slot_eq
    rcases first_takes rfl created obtains with ⟨rfl, rings⟩
    rw [Port.slot?, rings] at slot_eq
    obtain rfl : (⟨1, 3, 0, 0⟩ : Slot) = slot := Option.some.inj slot_eq
    decide
  rcases sends_published_iff (by decide) (by decide) (Ioctl.id_leavesTx _) created sendThree
    (sendThree_kernelTransmits _) fits with ⟨publishes, streams⟩
  exact ⟨sock, final, created, publishes.mpr fitting, performed,
    streams fitting final performed 0 (rings ▸ Nat.one_pos)⟩

/-- On the first lap the slots have length zero, and so has the frame on the wire. -/
theorem sendThree_transmits_nothing :
    ∃ sock final, Sock.create onePacketPort (some id) 0 ⟨0, 0⟩ = some sock ∧
      run step (start sock) sendThree = some final ∧
      final.log.sent 0 = [[1, 2, 3]] ∧ final.log.wire 0 = [[]] ∧
      ¬(start sock).PublishesPacket (.send [1, 2, 3] (some id) (some id)) := by
  have performed : ((Sock.create onePacketPort (some id) 0 ⟨0, 0⟩).bind fun sock =>
      (run step (start sock) sendThree).bind fun final =>
        (sock.send [1, 2, 3] (some id) (some id)).map fun (result, after) =>
          (final.log.sent 0, final.log.wire 0, result, after.port.slot? 0 0)) =
      some ([[1, 2, 3]], [[]], .ok (), some ⟨1, 0, 0, 0⟩) := by
    decide +kernel
  simp only [Option.bind_eq_some_iff, Option.map_eq_some_iff, Prod.exists, Prod.mk.injEq]
    at performed
  rcases performed with ⟨sock, created, final, performed, _, after, sends, sent, wire, rfl, slot⟩
  refine ⟨sock, final, created, performed, sent, wire, ?_⟩
  intro publishes
  rcases publishes after sends with ⟨index, ready, old, new, obtains, -, -, new_eq, len_eq, -⟩
  rcases first_takes rfl created obtains with ⟨rfl, rings⟩
  rw [rings] at new_eq
  obtain rfl := Option.some.inj (slot.symm.trans new_eq)
  simp at len_eq

end TxTrace

end Nethuns.Netmap
