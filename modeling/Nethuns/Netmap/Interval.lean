import Nethuns.Lib.Run
import Nethuns.Netmap.Sock

/-!
# The rings that the netmap transmitter visits

`TransmitterIterMut::next` compares the ring index with the end of the bound interval only after
it has moved on from a full ring. When it returns `None` it leaves the index one past the
interval, and the next call starts by accessing that ring, if the NIC has it. The receiver, in
the same situation, drops its ring pointer. This file shows that the transmitter stays on its
rings exactly in the runs in which no call starts there.
-/

namespace Nethuns.Netmap

open Nethuns.Lib

/-- A call on the transmitter, directly or through the socket. -/
inductive TxAction
  | next (ioctl : Ioctl)
  | reset (ioctl : Ioctl)
  | sync (ioctl : Ioctl)
  | send (packet : List UInt8) (first second : Ioctl)
  | flush (ioctl : Ioctl)

namespace Sock

/-- What the transmitter does in a call. -/
def visit (sock : Sock) : TxAction → Visit
  | .next ioctl => sock.tx.next sock.port ioctl
  | .send _ first second => sock.tx.obtain sock.port first second
  | .reset _ | .sync _ | .flush _ => ⟨[], none⟩

/-- Performs a call; `none` when it panics. -/
def txStep (sock : Sock) : TxAction → Option Sock
  | .next ioctl =>
      (sock.tx.next sock.port ioctl).outcome.map fun (_, tx, port) =>
        { sock with tx := tx, port := port }
  | .reset ioctl =>
      (sock.tx.reset sock.port ioctl).map fun (tx, port) => { sock with tx := tx, port := port }
  | .sync ioctl => (sock.port.sync ioctl).map fun port => { sock with port := port }
  | .send packet first second => (sock.send packet first second).map Prod.snd
  | .flush ioctl => sock.flush ioctl

end Sock

/-- The ring index is in the bound interval of the port. -/
def Port.Owns (port : Port) (index : ℕ) : Prop :=
  port.firstTxRing.toNat ≤ index ∧ index ≤ port.lastTxRing.toNat

/-- The rings that the visit accesses, and the buffer that it yields, are in the interval. -/
def Visit.Within (visit : Visit) (port : Port) : Prop :=
  (∀ index ∈ visit.accessed, port.Owns index) ∧
    ∀ buf tx after, visit.outcome = some (some buf, tx, after) → port.Owns buf.ringIdx.toNat

/-- The call stays on the rings of the port. -/
def StaysWithin (sock : Sock) (action : TxAction) : Prop :=
  (sock.visit action).Within sock.port

/-- The scan index is in the interval, or past it where the NIC has no further ring. -/
def Starts (tx : Transmitter) (port : Port) : Prop :=
  tx.ringIdx ≤ port.lastTxRing.toNat ∨ port.niTxRings ≤ port.lastTxRing.toNat + 1

/-- The call does not start a scan on a ring of the NIC past the interval. -/
def StartsWithin (sock : Sock) : TxAction → Prop
  | .next _ | .send _ _ _ => Starts sock.tx sock.port
  | .reset _ | .sync _ | .flush _ => True

/-- The transmitter and the port belong together, and the index is at most one past the
interval. -/
structure Bound (tx : Transmitter) (port : Port) : Prop where
  last_eq : tx.lastTxRing = port.lastTxRing.toNat
  interval : port.firstTxRing.toNat ≤ port.lastTxRing.toNat
  last_lt : port.lastTxRing.toNat < port.niTxRings
  first_le : port.firstTxRing.toNat ≤ tx.ringIdx
  le_succ : tx.ringIdx ≤ port.lastTxRing.toNat + 1

variable {tx : Transmitter} {port : Port} {sock next : Sock}

theorem Bound.rings (bound : Bound tx port) (rings : ℕ → NetmapRing) :
    Bound tx { port with rings := rings } :=
  ⟨bound.last_eq, bound.interval, bound.last_lt, bound.first_le, bound.le_succ⟩

theorem Bound.advance (bound : Bound tx port) (inside : tx.ringIdx ≤ port.lastTxRing.toNat)
    (rings : ℕ → NetmapRing) :
    Bound { tx with ringIdx := tx.ringIdx + 1 } { port with rings := rings } := by
  refine ⟨bound.last_eq, bound.interval, bound.last_lt, ?_, ?_⟩
  · exact bound.first_le.trans (Nat.le_succ _)
  · exact Nat.succ_le_succ inside

theorem Bound.sync {ioctl : Ioctl} {synced : Port} (bound : Bound tx port)
    (done : port.sync ioctl = some synced) : Bound tx synced := by
  rcases Port.sync_eq_some done with ⟨kernel, -, rfl⟩
  exact bound.rings _

/-- The visit stays within the interval and keeps the transmitter and the port together. -/
structure Good (visit : Visit) (port : Port) : Prop where
  within : visit.Within port
  bound : ∀ found tx after, visit.outcome = some (found, tx, after) →
    Bound tx after ∧ tx.synced = true ∧ after.firstTxRing = port.firstTxRing ∧
      after.lastTxRing = port.lastTxRing

theorem scan_good (bound : Bound tx port) (synced : tx.synced = true)
    (inside : tx.ringIdx ≤ port.lastTxRing.toNat) : Good (tx.scan port) port := by
  induction tx, port using Transmitter.scan.induct with
  | case1 tx port outside =>
      have visit : tx.scan port = ⟨[], some (none, tx, port)⟩ := by
        rw [Transmitter.scan, outside]
      rw [visit]
      refine ⟨⟨by simp, by simp⟩, ?_⟩
      rintro found tx' after ⟨⟩
      exact ⟨bound, synced, rfl, rfl⟩
  | case2 tx port pointer pointer_eq slot ring found =>
      have visit : tx.scan port = ⟨[tx.ringIdx],
          some (some ⟨pointer, slot, .ofNat tx.ringIdx⟩, tx, port.setRing pointer ring)⟩ := by
        rw [Transmitter.scan, pointer_eq]
        simp only [found]
      rw [visit]
      refine ⟨⟨?_, ?_⟩, ?_⟩
      · simpa using ⟨bound.first_le, inside⟩
      · rintro buf tx' after ⟨⟩
        have small := port.lastTxRing.toNat_lt
        have exact : (UInt16.ofNat tx.ringIdx).toNat = tx.ringIdx := by
          simp only [UInt16.toNat_ofNat']
          omega
        simp only [Port.Owns, exact]
        exact ⟨bound.first_le, inside⟩
      · rintro found tx' after ⟨⟩
        exact ⟨bound.rings _, synced, rfl, rfl⟩
  | case3 tx port pointer pointer_eq ring full past =>
      have visit : tx.scan port = ⟨[tx.ringIdx],
          some (none, { tx with ringIdx := tx.ringIdx + 1 }, port.setRing pointer ring)⟩ := by
        rw [Transmitter.scan, pointer_eq]
        simp only [full, if_pos past]
      rw [visit]
      refine ⟨⟨?_, by simp⟩, ?_⟩
      · simpa using ⟨bound.first_le, inside⟩
      · rintro found tx' after ⟨⟩
        exact ⟨bound.advance inside _, synced, rfl, rfl⟩
  | case4 tx port pointer pointer_eq ring full more ih =>
      have visit : tx.scan port =
          ⟨tx.ringIdx ::
              ({ tx with ringIdx := tx.ringIdx + 1 }.scan (port.setRing pointer ring)).accessed,
            ({ tx with ringIdx := tx.ringIdx + 1 }.scan (port.setRing pointer ring)).outcome⟩ := by
        rw [Transmitter.scan, pointer_eq]
        simp only [full, if_neg more]
      have last_eq := bound.last_eq
      have inside' : tx.ringIdx + 1 ≤ port.lastTxRing.toNat := by omega
      rcases ih (bound.advance inside _) synced inside' with ⟨⟨accessed, yielded⟩, bounds⟩
      rw [visit]
      refine ⟨⟨?_, yielded⟩, bounds⟩
      simp only [List.forall_mem_cons]
      exact ⟨⟨bound.first_le, inside⟩, accessed⟩

theorem scan_good_of_end (bound : Bound tx port) (synced : tx.synced = true)
    (ending : port.niTxRings ≤ port.lastTxRing.toNat + 1) : Good (tx.scan port) port := by
  rcases Nat.lt_or_ge port.lastTxRing.toNat tx.ringIdx with past | inside
  · have outside : port.rawTxRingAt tx.ringIdx = none := by
      simp only [Port.rawTxRingAt, ge_iff_le, ite_eq_left_iff, reduceCtorEq, imp_false, not_not]
      omega
    have visit : tx.scan port = ⟨[], some (none, tx, port)⟩ := by
      rw [Transmitter.scan, outside]
    rw [visit]
    refine ⟨⟨by simp, by simp⟩, ?_⟩
    rintro found tx' after ⟨⟩
    exact ⟨bound, synced, rfl, rfl⟩
  · exact scan_good bound synced inside

/-- A scan that starts on a ring of the NIC accesses it, wherever the interval ends. -/
theorem scan_accesses (present : tx.ringIdx < port.niTxRings) :
    tx.ringIdx ∈ (tx.scan port).accessed := by
  have inside : port.rawTxRingAt tx.ringIdx = some tx.ringIdx := by
    simp [Port.rawTxRingAt, Nat.not_le.mpr present]
  rw [Transmitter.scan, inside]
  simp only
  split
  · simp
  · split <;> simp

theorem scan_good_of_starts (bound : Bound tx port) (synced : tx.synced = true)
    (starts : Starts tx port) : Good (tx.scan port) port := by
  rcases starts with inside | ending
  · exact scan_good bound synced inside
  · exact scan_good_of_end bound synced ending

theorem next_good (ioctl : Ioctl) (bound : Bound tx port) (starts : Starts tx port) :
    Good (tx.next port ioctl) port := by
  simp only [Transmitter.next]
  split
  · rename_i synced
    exact scan_good_of_starts bound synced starts
  · split
    · exact ⟨⟨by simp, by simp⟩, by simp⟩
    · rename_i after done
      have bound' : Bound { tx with synced := true } after := by
        have := bound.sync done
        exact ⟨this.last_eq, this.interval, this.last_lt, this.first_le, this.le_succ⟩
      rcases Port.sync_eq_some done with ⟨kernel, -, rfl⟩
      rcases scan_good_of_starts bound' rfl starts with ⟨within, bounds⟩
      exact ⟨within, bounds⟩

theorem reset_bound {ioctl : Ioctl} {tx' : Transmitter} {after : Port} (bound : Bound tx port)
    (done : tx.reset port ioctl = some (tx', after)) :
    Bound tx' after ∧ Starts tx' after ∧ after.firstTxRing = port.firstTxRing ∧
      after.lastTxRing = port.lastTxRing := by
  simp only [Transmitter.reset, Option.map_eq_some_iff, Prod.mk.injEq] at done
  rcases done with ⟨synced, done, rfl, rfl⟩
  rcases Port.sync_eq_some done with ⟨kernel, -, rfl⟩
  refine ⟨⟨bound.last_eq, bound.interval, bound.last_lt, le_refl _, ?_⟩, Or.inl bound.interval,
    rfl, rfl⟩
  exact bound.interval.trans (Nat.le_succ _)

theorem obtain_good (first second : Ioctl) (bound : Bound tx port) (starts : Starts tx port) :
    Good (tx.obtain port first second) port := by
  have visited := next_good first bound starts
  simp only [Transmitter.obtain]
  split
  · exact visited
  · exact visited
  · rename_i scanned after failed
    rcases visited.bound _ _ _ failed with ⟨scanned_bound, -, first_eq, last_eq⟩
    split
    · exact ⟨⟨visited.within.1, by simp⟩, by simp⟩
    · rename_i reset synced done
      rcases reset_bound scanned_bound done with ⟨reset_bound, restarts, first_eq', last_eq'⟩
      rcases next_good first reset_bound restarts with ⟨⟨accessed, yielded⟩, bounds⟩
      have owns : ∀ index, synced.Owns index ↔ port.Owns index := by
        intro index
        simp only [Port.Owns, first_eq', last_eq', first_eq, last_eq]
      refine ⟨⟨?_, ?_⟩, ?_⟩
      · intro index index_mem
        rcases List.mem_append.mp index_mem with before | later
        · exact visited.within.1 index before
        · exact (owns index).mp (accessed index later)
      · intro buf last_tx last_port yields
        exact (owns _).mp (yielded buf last_tx last_port yields)
      · intro found last_tx last_port ends
        rcases bounds found last_tx last_port ends with
          ⟨last_bound, last_synced, kept_first, kept_last⟩
        refine ⟨last_bound, last_synced, ?_, ?_⟩
        · rw [kept_first, first_eq', first_eq]
        · rw [kept_last, last_eq', last_eq]

theorem next_not_within (ioctl : Ioctl) (bound : Bound tx port) (synced : tx.synced = true)
    (past : ¬Starts tx port) : ¬(tx.next port ioctl).Within port := by
  intro within
  have le_succ := bound.le_succ
  simp only [Starts, not_or, Nat.not_le] at past
  have present : tx.ringIdx < port.niTxRings := by omega
  have visit : tx.next port ioctl = tx.scan port := by simp [Transmitter.next, synced]
  rw [visit] at within
  have owned := within.1 tx.ringIdx (scan_accesses present)
  exact absurd owned.2 (Nat.not_le.mpr past.1)

theorem obtain_not_within {first second : Ioctl} (bound : Bound tx port)
    (synced : tx.synced = true) (past : ¬Starts tx port) :
    ¬(tx.obtain port first second).Within port := by
  have left := next_not_within first bound synced past
  simp only [Transmitter.obtain]
  split
  · exact left
  · exact left
  · rename_i scanned after failed
    -- The failed scan yields nothing, so it is one of the rings it accessed.
    have strayed : ¬∀ index ∈ (tx.next port first).accessed, port.Owns index := by
      intro owned
      apply left
      refine ⟨owned, ?_⟩
      intro buf last_tx last_port yields
      simp [failed] at yields
    split
    · intro within
      exact strayed within.1
    · intro within
      apply strayed
      intro index index_mem
      exact within.1 index (List.mem_append_left _ index_mem)

/-- Between two calls: the index is past the interval only after a scan. -/
structure Tracked (sock : Sock) : Prop where
  bound : Bound sock.tx sock.port
  fresh : sock.tx.synced = false → sock.tx.ringIdx ≤ sock.port.lastTxRing.toNat

theorem Tracked.synced (tracked : Tracked sock) (past : ¬Starts sock.tx sock.port) :
    sock.tx.synced = true := by
  by_contra unsynced
  apply past
  exact Or.inl (tracked.fresh (by simpa using unsynced))

theorem staysWithin_iff_startsWithin {action : TxAction} (tracked : Tracked sock) :
    StaysWithin sock action ↔ StartsWithin sock action := by
  have bound := tracked.bound
  cases action with
  | next ioctl =>
      constructor
      · intro stays
        by_contra past
        exact next_not_within ioctl bound (tracked.synced past) past stays
      · intro starts
        exact (next_good ioctl bound starts).within
  | send packet first second =>
      constructor
      · intro stays
        by_contra past
        exact obtain_not_within bound (tracked.synced past) past stays
      · intro starts
        exact (obtain_good first second bound starts).within
  | reset ioctl => simp [StaysWithin, StartsWithin, Sock.visit, Visit.Within]
  | sync ioctl => simp [StaysWithin, StartsWithin, Sock.visit, Visit.Within]
  | flush ioctl => simp [StaysWithin, StartsWithin, Sock.visit, Visit.Within]

theorem sendInner_bound {buf : TxBuf} {packet : List UInt8} {result : Except Error Unit}
    (tracked : Tracked sock) (sent : sock.sendInner buf packet = some (result, next)) :
    Tracked next := by
  simp only [Sock.sendInner, Option.map_eq_some_iff] at sent
  rcases sent with ⟨slot, -, sent⟩
  have bound := tracked.bound
  split at sent
  all_goals
    simp only [Prod.mk.injEq] at sent
    rcases sent with ⟨-, rfl⟩
    exact ⟨⟨bound.last_eq, bound.interval, bound.last_lt, bound.first_le, bound.le_succ⟩,
      tracked.fresh⟩

theorem Tracked.sync {ioctl : Ioctl} {synced : Port} (tracked : Tracked sock)
    (done : sock.port.sync ioctl = some synced) : Tracked { sock with port := synced } := by
  refine ⟨tracked.bound.sync done, ?_⟩
  rcases Port.sync_eq_some done with ⟨kernel, -, rfl⟩
  exact tracked.fresh

theorem Good.tracked {visit : Visit} {found : Option TxBuf} {tx : Transmitter} {after : Port}
    (good : Good visit sock.port) (ends : visit.outcome = some (found, tx, after)) :
    Tracked { sock with tx := tx, port := after } := by
  rcases good.bound found tx after ends with ⟨bound, synced, -, -⟩
  refine ⟨bound, ?_⟩
  intro unsynced
  simp [synced] at unsynced

theorem txStep_tracked {action : TxAction} (tracked : Tracked sock)
    (starts : StartsWithin sock action) (stepped : sock.txStep action = some next) :
    Tracked next := by
  have bound := tracked.bound
  cases action with
  | next ioctl =>
      simp only [Sock.txStep, Option.map_eq_some_iff] at stepped
      rcases stepped with ⟨⟨found, tx, after⟩, ends, rfl⟩
      exact (next_good ioctl bound starts).tracked ends
  | reset ioctl =>
      simp only [Sock.txStep, Option.map_eq_some_iff] at stepped
      rcases stepped with ⟨⟨tx, after⟩, done, rfl⟩
      refine ⟨(reset_bound bound done).1, ?_⟩
      intro unsynced
      simp only [Transmitter.reset, Option.map_eq_some_iff, Prod.mk.injEq] at done
      rcases done with ⟨synced, done, rfl, rfl⟩
      rcases Port.sync_eq_some done with ⟨kernel, -, rfl⟩
      exact bound.interval
  | sync ioctl =>
      simp only [Sock.txStep, Option.map_eq_some_iff] at stepped
      rcases stepped with ⟨synced, done, rfl⟩
      exact tracked.sync done
  | flush ioctl =>
      simp only [Sock.txStep, Sock.flush, Option.map_eq_some_iff] at stepped
      rcases stepped with ⟨synced, done, rfl⟩
      exact tracked.sync done
  | send packet first second =>
      simp only [Sock.txStep, Sock.send, Option.map_eq_some_iff, Option.bind_eq_some_iff] at stepped
      rcases stepped with ⟨⟨result, sent⟩, ⟨⟨found, tx, after⟩, ends, delivered⟩, rfl⟩
      have obtained : Tracked { sock with tx := tx, port := after } :=
        (obtain_good first second bound starts).tracked ends
      cases found with
      | none =>
          simp only [Option.some.injEq, Prod.mk.injEq] at delivered
          rcases delivered with ⟨-, rfl⟩
          exact obtained
      | some buf => exact sendInner_bound obtained delivered

/-- From a new transmitter, the calls stay on the rings of the port exactly when none of them
starts on a ring past them. -/
theorem run_staysWithin_iff_startsWithin (sock : Sock) (actions : List TxAction)
    (new : sock.tx = .new sock.port)
    (interval : sock.port.firstTxRing ≤ sock.port.lastTxRing)
    (last_lt : sock.port.lastTxRing.toNat < sock.port.niTxRings) :
    RunMeets Sock.txStep StaysWithin sock actions ↔
      RunMeets Sock.txStep StartsWithin sock actions := by
  apply runMeets_iff Tracked
  · exact staysWithin_iff_startsWithin
  · exact txStep_tracked
  · have ordered : sock.port.firstTxRing.toNat ≤ sock.port.lastTxRing.toNat := interval
    refine ⟨⟨?_, ordered, last_lt, ?_, ?_⟩, ?_⟩
    all_goals simp only [new, Transmitter.new]
    · exact le_refl _
    · exact ordered.trans (Nat.le_succ _)
    · exact fun _ => ordered

theorem smallRing_length :
    ([⟨1, 0, 0, 0⟩, ⟨2, 0, 0, 0⟩] : List Slot).length = (2 : UInt32).toNat := rfl

/-- A ring with two slots; it is full when `head` and `tail` agree. -/
def smallRing (tail : UInt32) : NetmapRing where
  numSlots := 2
  head := 0
  cur := 0
  tail := tail
  slots := [⟨1, 0, 0, 0⟩, ⟨2, 0, 0, 0⟩]
  length_slots := smallRing_length

/-- A NIC with two transmit rings. The port is bound to the first one, which is full. -/
def fullPort : Port where
  niTxRings := 2
  niHostTxRings := 1
  niRxRings := 2
  niHostRxRings := 1
  firstTxRing := 0
  lastTxRing := 0
  firstRxRing := 0
  lastRxRing := 0
  niBufsHead := 0
  nrBufSize := 2048
  rings := fun pointer => smallRing (if pointer = 0 then 0 else 1)
  bufs := fun _ => []

def fullSock : Sock where
  port := fullPort
  tx := .new fullPort
  rx := .new fullPort
  pool := ⟨Mpsc.channel 0, 0, [], []⟩
  replaced := []

theorem run_staysWithin_oneSend :
    RunMeets Sock.txStep StaysWithin fullSock [.send [1] (some id) (some id)] := by
  rw [run_staysWithin_iff_startsWithin fullSock _ rfl (by decide) (by decide)]
  refine ⟨?_, fun _ _ => trivial⟩
  exact Or.inl (by decide)

/-- The socket after a failed send: the scan index is past the interval. -/
def pastSock : Sock := { fullSock with tx := ⟨true, 0, 1⟩ }

theorem scan_eq_of_full (present : tx.ringIdx < port.niTxRings)
    (full : (port.rings tx.ringIdx).head = (port.rings tx.ringIdx).tail)
    (last : tx.lastTxRing ≤ tx.ringIdx) :
    tx.scan port = ⟨[tx.ringIdx], some (none, { tx with ringIdx := tx.ringIdx + 1 }, port)⟩ := by
  have inside : port.rawTxRingAt tx.ringIdx = some tx.ringIdx := by
    simp [Port.rawTxRingAt, Nat.not_le.mpr present]
  have past : tx.ringIdx + 1 > tx.lastTxRing := by omega
  have kept : port.setRing tx.ringIdx (port.rings tx.ringIdx) = port := by
    simp [Port.setRing]
  rw [Transmitter.scan, inside]
  simp only [NetmapRing.next, full, if_true, if_pos past, kept]

theorem fullSock_send :
    fullSock.send [1] (some id) (some id) = some (.error .noMemory, pastSock) := by
  have full : (Transmitter.mk true 0 0).scan fullPort =
      ⟨[0], some (none, ⟨true, 0, 1⟩, fullPort)⟩ :=
    scan_eq_of_full (by decide) rfl (by decide)
  have first : (Transmitter.new fullPort).next fullPort (some id) =
      ⟨[0], some (none, ⟨true, 0, 1⟩, fullPort)⟩ := full
  have reset : (Transmitter.mk true 0 1).reset fullPort (some id) =
      some (⟨true, 0, 0⟩, fullPort) := rfl
  have again : (Transmitter.mk true 0 0).next fullPort (some id) =
      ⟨[0], some (none, ⟨true, 0, 1⟩, fullPort)⟩ := full
  have obtained : (Transmitter.new fullPort).obtain fullPort (some id) (some id) =
      ⟨[0, 0], some (none, ⟨true, 0, 1⟩, fullPort)⟩ := by
    simp only [Transmitter.obtain, first, reset, again, List.cons_append, List.nil_append]
  change ((Transmitter.new fullPort).obtain fullPort (some id) (some id)).outcome.bind _ = _
  rw [obtained]
  rfl

theorem pastSock_visit :
    pastSock.visit (.send [1] (some id) (some id)) =
      ⟨[1], some (some ⟨1, 0, 1⟩, ⟨true, 0, 1⟩, fullPort.setRing 1 (fullPort.rings 1).next.2)⟩ := by
  have scanned : (Transmitter.mk true 0 1).next fullPort (some id) =
      ⟨[1], some (some ⟨1, 0, 1⟩, ⟨true, 0, 1⟩, fullPort.setRing 1 (fullPort.rings 1).next.2)⟩ := by
    change (Transmitter.mk true 0 1).scan fullPort = _
    rw [Transmitter.scan]
    rfl
  change (Transmitter.mk true 0 1).obtain fullPort (some id) (some id) = _
  simp only [Transmitter.obtain, scanned]

/-- The second of two sends on a full ring goes to the ring next to it. -/
theorem secondSend_strays :
    fullSock.send [1] (some id) (some id) = some (.error .noMemory, pastSock) ∧
      (pastSock.visit (.send [1] (some id) (some id))).accessed = [1] ∧
      (∃ buf tx after, (pastSock.visit (.send [1] (some id) (some id))).outcome =
        some (some buf, tx, after) ∧ buf.ringIdx = 1) ∧
      ¬RunMeets Sock.txStep StaysWithin fullSock
        [.send [1] (some id) (some id), .send [1] (some id) (some id)] := by
  have stepped : fullSock.txStep (.send [1] (some id) (some id)) = some pastSock := by
    simp [Sock.txStep, fullSock_send]
  refine ⟨fullSock_send, ?_, ?_, ?_⟩
  · simp [pastSock_visit]
  · simp [pastSock_visit]
  · rintro ⟨-, later⟩
    have owned := (later pastSock stepped).1.1 1 (by simp [pastSock_visit])
    exact absurd owned.2 (by decide)

end Nethuns.Netmap
