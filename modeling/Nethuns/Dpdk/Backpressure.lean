import Nethuns.Dpdk.Transmitter

/-!
# The DPDK transmitter under backpressure

When the NIC refuses mbufs, `ready_bufs` fills up and `bufs` is restocked. The restocking first
pads `bufs` with null pointers and then overwrites only as many entries as the NIC has just
accepted, so null pointers stay behind, and one that is popped makes `NonNull::new(..).unwrap()`
panic. This file determines exactly which sends panic: those made while `ready_bufs` has room
but the last entry of `bufs` is null, and those made while `ready_bufs` is full and the NIC
accepts nothing although the (empty) bulk allocation succeeds. None of the other faults of the
transmitter is reachable, because the real mbufs in both arrays together never exceed 32.
-/

namespace Nethuns.Dpdk

open Nethuns.Lib

/-- The call raises no fault of the transmitter. -/
def NoPanic (sock : Sock) : Call → Prop
  | .send packet device =>
      ∀ fault, sock.send packet device = .error fault → fault.inTransmitter = false
  | .flush _ => True

namespace Transmitter

/-- The real mbufs among the entries of `bufs`. -/
def stock (tx : Transmitter) : ℕ := tx.bufs.elems.countP Option.isSome

/-- The real mbufs of both arrays fit one of them. -/
def Bounded (tx : Transmitter) : Prop := tx.stock + tx.readyBufs.elems.length ≤ 32

variable {tx : Transmitter}

theorem flush_stock (tx : Transmitter) (accepted : ℕ) :
    (tx.flush accepted).2.stock = tx.stock := rfl

theorem flush_ready_length (tx : Transmitter) (accepted : ℕ) :
    (tx.flush accepted).2.readyBufs.elems.length = tx.readyBufs.elems.length - accepted := by
  simp [flush, ArrayVec.drain]

theorem Bounded.flush (bounded : tx.Bounded) (accepted : ℕ) :
    (tx.flush accepted).2.Bounded := by
  simp only [Bounded, flush_stock, flush_ready_length] at bounded ⊢
  omega

theorem pad_length (bufs : ArrayVec (Option ℕ) 32) : (pad bufs).elems.length = 32 := by
  have := bufs.length_le
  simp only [pad, List.length_append, List.length_replicate] at this ⊢
  omega

theorem pad_all_null {bufs : ArrayVec (Option ℕ) 32}
    (null : ∀ entry ∈ bufs.elems, entry = none) : ∀ entry ∈ (pad bufs).elems, entry = none := by
  intro entry entry_mem
  simp only [pad, List.mem_append, List.mem_replicate] at entry_mem
  rcases entry_mem with old | ⟨-, rfl⟩
  · exact null entry old
  · rfl

theorem all_null_of_stock_eq_zero (empty : tx.stock = 0) :
    ∀ entry ∈ tx.bufs.elems, entry = none := by
  intro entry entry_mem
  have := List.countP_eq_zero.mp empty entry entry_mem
  simpa using this

theorem popBuf_cases (tx : Transmitter) :
    (tx.bufs.elems = [] ∧ tx.popBuf = .ok (none, tx)) ∨
      (tx.bufs.elems.getLast? = some none ∧ tx.popBuf = .error .nullPointer) ∨
      (∃ mbuf bufs, tx.bufs.elems.getLast? = some (some mbuf) ∧
        tx.popBuf = .ok (some mbuf, { tx with bufs := bufs }) ∧
        { tx with bufs := bufs }.stock + 1 = tx.stock) := by
  cases popped : tx.bufs.pop with
  | mk entry bufs =>
      cases entry with
      | none => exact Or.inl ⟨ArrayVec.pop_eq_none popped, by simp [popBuf, popped]⟩
      | some entry =>
          have split := ArrayVec.pop_eq_some popped
          cases entry with
          | none => exact Or.inr (Or.inl ⟨by simp [split], by simp [popBuf, popped]⟩)
          | some mbuf =>
              refine Or.inr (Or.inr ⟨mbuf, bufs, by simp [split], by simp [popBuf, popped], ?_⟩)
              simp [stock, split]

/-- The iterator does not meet a null pointer: a full `ready_bufs` is relieved by the NIC, or the
restocking fails; otherwise the last entry of `bufs` is not null. It is null when the NIC refused
some of the mbufs the last time that a send found `ready_bufs` full, and that send and those that
followed are at least as many as the mbufs obtained then (`Tally.run_unclogged_iff`). -/
def Unclogged (tx : Transmitter) (device : Device) : Prop :=
  if tx.readyBufs.isFull then
    0 < device.burst ∨ device.alloc = none
  else
    tx.bufs.elems.getLast? ≠ some none

theorem Bounded.all_null (bounded : tx.Bounded) (full : tx.readyBufs.isFull = true) :
    ∀ entry ∈ tx.bufs.elems, entry = none := by
  have ready := tx.readyBufs.isFull_iff.mp full
  apply all_null_of_stock_eq_zero
  simp only [Bounded] at bounded
  omega

/-- The transmitter after a restocking that the NIC made necessary. -/
def restocked (tx : Transmitter) (burst : ℕ) (fresh : ℕ → ℕ) : Transmitter :=
  { (tx.flush burst).2 with bufs := restock (pad tx.bufs) (32 - burst) fresh }

theorem restocked_bufs (burst : ℕ) (fresh : ℕ → ℕ) :
    (tx.restocked burst fresh).bufs.elems = (pad tx.bufs).elems.take (32 - burst) ++
      (List.range (min burst 32)).map fun lane => some (fresh lane) := by
  have lanes : 32 - (32 - burst) = min burst 32 := by omega
  simp only [restocked, restock, pad_length, lanes]

theorem kept_null (bounded : tx.Bounded) (full : tx.readyBufs.isFull = true) (count : ℕ) :
    ((pad tx.bufs).elems.take count).countP Option.isSome = 0 := by
  apply List.countP_eq_zero.mpr
  intro entry entry_mem
  simp [pad_all_null (bounded.all_null full) entry (List.mem_of_mem_take entry_mem)]

theorem restocked_stock (bounded : tx.Bounded) (full : tx.readyBufs.isFull = true) (burst : ℕ)
    (fresh : ℕ → ℕ) : (tx.restocked burst fresh).stock = min burst 32 := by
  simp only [stock, restocked_bufs, List.countP_append, kept_null bounded full, List.countP_map]
  simp [Function.comp_def, List.countP_true]

theorem restocked_ready (full : tx.readyBufs.isFull = true) (burst : ℕ) (fresh : ℕ → ℕ) :
    (tx.restocked burst fresh).readyBufs.elems.length = 32 - burst := by
  have ready := tx.flush_ready_length burst
  rw [tx.readyBufs.isFull_iff.mp full] at ready
  exact ready

/-- When the NIC accepts something, the last entry is one of the mbufs just allocated. -/
theorem restocked_last {burst : ℕ} (accepted : 0 < burst) (fresh : ℕ → ℕ) :
    (tx.restocked burst fresh).bufs.elems.getLast? ≠ some none := by
  have lanes : List.range (min burst 32) =
      List.range (min burst 32 - 1) ++ [min burst 32 - 1] := by
    rw [← List.range_succ]
    congr 1
    omega
  rw [restocked_bufs, lanes]
  simp

theorem advance_of_full_some {device : Device} {fresh : ℕ → ℕ}
    (full : tx.readyBufs.isFull = true) (allocated : device.alloc = some fresh) :
    tx.advance device =
      match (tx.restocked device.burst fresh).popBuf with
      | .error fault => .error fault
      | .ok (mbuf, next) => .ok (mbuf, next, (tx.flush device.burst).1,
          (List.range (min device.burst 32)).map fresh) := by
  have ready : tx.readyBufs.elems.length = 32 := tx.readyBufs.isFull_iff.mp full
  have oldLen : (tx.readyBufs.drain device.burst).len = 32 - device.burst := by
    simp [ArrayVec.len, ArrayVec.drain, ready]
  have lanes : 32 - (32 - device.burst) = min device.burst 32 := by omega
  simp only [advance, full, if_true, flush, oldLen, pad_length, ne_eq,
    not_true_eq_false, if_false, allocated, lanes]
  rfl

theorem advance_of_full_none {device : Device}
    (full : tx.readyBufs.isFull = true) (failed : device.alloc = none) :
    ∃ bufs : ArrayVec (Option ℕ) 32,
      bufs.elems = (pad tx.bufs).elems.take (32 - device.burst) ∧
      tx.advance device = .ok (none, { (tx.flush device.burst).2 with bufs := bufs },
        (tx.flush device.burst).1, []) := by
  have ready : tx.readyBufs.elems.length = 32 := tx.readyBufs.isFull_iff.mp full
  have oldLen : (tx.readyBufs.drain device.burst).len = 32 - device.burst := by
    simp [ArrayVec.len, ArrayVec.drain, ready]
  have enough : 32 - (32 - device.burst) ≤ 32 := by omega
  have kept : 32 - (32 - (32 - device.burst)) = 32 - device.burst := by omega
  have bound : ((pad tx.bufs).elems.take (32 - device.burst)).length ≤ 32 := by
    simp only [List.length_take, pad_length]
    omega
  refine ⟨⟨(pad tx.bufs).elems.take (32 - device.burst), bound⟩, rfl, ?_⟩
  simp only [advance, full, if_true, flush, oldLen, pad_length, ne_eq,
    not_true_eq_false, if_false, failed, popMany, enough, kept]

theorem advance_clogged {device : Device} (bounded : tx.Bounded)
    (clogged : ¬tx.Unclogged device) : tx.advance device = .error .nullPointer := by
  simp only [Unclogged] at clogged
  by_cases full : tx.readyBufs.isFull = true
  · simp only [full, if_true, not_or, Nat.not_lt, Nat.le_zero] at clogged
    rcases clogged with ⟨refused, allocated⟩
    rcases Option.ne_none_iff_exists'.mp allocated with ⟨fresh, allocated⟩
    have entries : (tx.restocked device.burst fresh).bufs.elems = (pad tx.bufs).elems := by
      rw [restocked_bufs, refused]
      simp [List.take_of_length_le (pad_length tx.bufs).le]
    have last : (tx.restocked device.burst fresh).bufs.elems.getLast? = some none := by
      rw [entries]
      cases last : (pad tx.bufs).elems.getLast? with
      | none =>
          have := pad_length tx.bufs
          rw [List.getLast?_eq_none_iff.mp last] at this
          simp at this
      | some entry =>
          rw [pad_all_null (bounded.all_null full) entry (List.mem_of_getLast? last)]
    rw [advance_of_full_some full allocated]
    rcases popBuf_cases (tx.restocked device.burst fresh) with
      ⟨empty, -⟩ | ⟨-, popped⟩ | ⟨mbuf, bufs, other, -⟩
    · simp [empty] at last
    · rw [popped]
    · simp [other] at last
  · simp only [Bool.not_eq_true] at full
    simp only [full, Bool.false_eq_true, if_false, ne_eq, not_not] at clogged
    rcases popBuf_cases tx with ⟨empty, -⟩ | ⟨-, popped⟩ | ⟨mbuf, bufs, other, -⟩
    · simp [empty] at clogged
    · simp only [advance, full, Bool.false_eq_true, if_false, popped]
    · simp [other] at clogged

/-- Otherwise it hands out nothing, or an mbuf that leaves room for itself in `ready_bufs`. -/
theorem advance_unclogged {device : Device} (bounded : tx.Bounded)
    (unclogged : tx.Unclogged device) :
    ∃ scan next sent fresh, tx.advance device = .ok (scan, next, sent, fresh) ∧ next.Bounded ∧
      ∀ mbuf, scan = some mbuf → next.stock + next.readyBufs.elems.length < 32 := by
  simp only [Unclogged] at unclogged
  by_cases full : tx.readyBufs.isFull = true
  · simp only [full, if_true] at unclogged
    cases allocated : device.alloc with
    | none =>
        rcases advance_of_full_none full allocated with ⟨bufs, entries, advanced⟩
        refine ⟨_, _, _, _, advanced, ?_, by simp⟩
        have ready := tx.flush_ready_length device.burst
        have ready_full := tx.readyBufs.isFull_iff.mp full
        simp only [Bounded, stock, entries, kept_null bounded full, ready]
        omega
    | some fresh =>
        have accepted : 0 < device.burst := unclogged.resolve_right (by simp [allocated])
        have stocked := restocked_stock bounded full device.burst fresh
        have ready := restocked_ready full device.burst fresh
        rw [advance_of_full_some full allocated]
        rcases popBuf_cases (tx.restocked device.burst fresh) with
          ⟨empty, -⟩ | ⟨last, -⟩ | ⟨mbuf, bufs, -, popped, fewer⟩
        · simp only [stock, empty, List.countP_nil] at stocked
          omega
        · exact absurd last (restocked_last accepted fresh)
        · rw [popped]
          refine ⟨_, _, _, _, rfl, ?_, ?_⟩
          · change _ + (tx.restocked device.burst fresh).readyBufs.elems.length ≤ 32
            omega
          · intro _ _
            change _ + (tx.restocked device.burst fresh).readyBufs.elems.length < 32
            omega
  · simp only [Bool.not_eq_true] at full
    simp only [full, Bool.false_eq_true, if_false] at unclogged
    rcases popBuf_cases tx with ⟨-, popped⟩ | ⟨last, -⟩ | ⟨mbuf, bufs, -, popped, fewer⟩
    · refine ⟨none, tx, [], [], ?_, bounded, by simp⟩
      simp only [advance, full, Bool.false_eq_true, if_false, popped]
    · exact absurd last unclogged
    · refine ⟨some mbuf, { tx with bufs := bufs }, [], [], ?_, ?_, ?_⟩
      · simp only [advance, full, Bool.false_eq_true, if_false, popped]
      · change _ + tx.readyBufs.elems.length ≤ 32
        simp only [Bounded] at bounded
        omega
      · intro _ _
        change _ + tx.readyBufs.elems.length < 32
        simp only [Bounded] at bounded
        omega

theorem pushReady_eq {mbuf : ℕ} (room : tx.readyBufs.elems.length < 32) :
    ∃ next, tx.pushReady mbuf = .ok next ∧ next.bufs = tx.bufs ∧
      next.readyBufs.elems = tx.readyBufs.elems ++ [mbuf] := by
  have grown_le : (tx.readyBufs.elems ++ [mbuf]).length ≤ 32 := by
    simp only [List.length_append, List.length_cons, List.length_nil]
    omega
  have grown : tx.readyBufs.tryPush mbuf = some ⟨tx.readyBufs.elems ++ [mbuf], grown_le⟩ := by
    rw [ArrayVec.tryPush_eq_some]
    exact ⟨room, rfl⟩
  refine ⟨{ tx with readyBufs := ⟨tx.readyBufs.elems ++ [mbuf], grown_le⟩ }, ?_, rfl, rfl⟩
  simp only [pushReady, grown]

end Transmitter

/-- The call does not make the iterator meet a null pointer. -/
def Unclogged (sock : Sock) : Call → Prop
  | .send _ device => sock.tx.Unclogged device
  | .flush _ => True

variable {sock next : Sock}

theorem Mbuf.fill_fault {mbuf : Mbuf} {packet : List UInt8} {fault : Fault}
    (failed : mbuf.fill packet = .error fault) : fault.inTransmitter = false := by
  simp only [Mbuf.fill] at failed
  split at failed
  · simp at failed
  · split at failed
    · simp only [Except.error.injEq] at failed
      rw [← failed]
      rfl
    · simp at failed

/-- An unclogged send finds room in `ready_bufs` for the mbuf it was given. -/
theorem send_unclogged (packet : List UInt8) {device : Device} (bounded : sock.tx.Bounded)
    (unclogged : sock.tx.Unclogged device) :
    (∃ fault, sock.send packet device = .error fault ∧ fault.inTransmitter = false) ∨
      ∃ outcome, sock.send packet device = .ok outcome ∧ outcome.sock.tx.Bounded := by
  rcases Transmitter.advance_unclogged bounded unclogged with
    ⟨scan, tx, sent, fresh, advanced, advanced_bounded, room⟩
  have flushed := advanced_bounded.flush device.dropBurst
  cases scan with
  | none =>
      simp only [Sock.send, advanced]
      exact Or.inr ⟨_, rfl, flushed⟩
  | some mbuf =>
      simp only [Sock.send, advanced]
      cases written : ((if mbuf ∈ fresh then (sock.mbufs mbuf).reset
          else sock.mbufs mbuf).fill packet) with
      | error fault => exact Or.inl ⟨fault, rfl, Mbuf.fill_fault written⟩
      | ok filled =>
          have fits : (tx.flush device.dropBurst).2.readyBufs.elems.length < 32 := by
            have := room mbuf rfl
            rw [Transmitter.flush_ready_length]
            omega
          rcases @Transmitter.pushReady_eq _ mbuf fits with ⟨next, pushed, bufs, grown⟩
          simp only [pushed]
          refine Or.inr ⟨_, rfl, ?_⟩
          have := room mbuf rfl
          simp only [Transmitter.Bounded, Transmitter.stock, bufs, grown, List.length_append,
            List.length_cons, List.length_nil, Transmitter.flush_ready_length] at this ⊢
          change tx.stock + _ ≤ 32
          simp only [Transmitter.stock]
          omega

/-- While both arrays are bounded, the transmitter panics at the clogged calls and no others. -/
theorem noPanic_iff_unclogged {call : Call} (bounded : sock.tx.Bounded) :
    NoPanic sock call ↔ Unclogged sock call := by
  cases call with
  | flush accepted => exact Iff.rfl
  | send packet device =>
      constructor
      · intro calm
        by_contra clogged
        have failed : sock.send packet device = .error .nullPointer := by
          simp only [Sock.send, Transmitter.advance_clogged bounded clogged]
        have := calm .nullPointer failed
        simp [Fault.inTransmitter] at this
      · intro unclogged fault failed
        rcases send_unclogged packet bounded unclogged with
          ⟨other, failed', elsewhere⟩ | ⟨outcome, sent, -⟩
        · rw [failed', Except.error.injEq] at failed
          rw [← failed]
          exact elsewhere
        · simp [sent] at failed

theorem step_bounded {call : Call} (bounded : sock.tx.Bounded) (unclogged : Unclogged sock call)
    (stepped : sock.step call = some next) : next.tx.Bounded := by
  cases call with
  | flush accepted =>
      simp only [Sock.step, Option.some.injEq] at stepped
      rw [← stepped]
      exact bounded.flush accepted
  | send packet device =>
      rcases send_unclogged packet bounded unclogged with
        ⟨fault, failed, -⟩ | ⟨outcome, sent, outcome_bounded⟩
      · simp [Sock.step, failed] at stepped
      · simp only [Sock.step, sent, Option.some.injEq] at stepped
        rw [← stepped]
        exact outcome_bounded

theorem create_bounded (fresh : ℕ → ℕ) (mbufs : ℕ → Mbuf) :
    (Sock.create fresh mbufs).tx.Bounded := by
  have stocked := List.countP_le_length (l := (Transmitter.new fresh).bufs.elems)
    (p := Option.isSome)
  simpa [Transmitter.Bounded, Transmitter.stock, Sock.create, Transmitter.new] using stocked

/-- A run of the socket is free of transmitter panics exactly when none of its sends is
clogged. -/
theorem run_noPanic_iff_unclogged (fresh : ℕ → ℕ) (mbufs : ℕ → Mbuf) (calls : List Call) :
    RunMeets Sock.step NoPanic (Sock.create fresh mbufs) calls ↔
      RunMeets Sock.step Unclogged (Sock.create fresh mbufs) calls := by
  apply runMeets_iff fun sock => sock.tx.Bounded
  · exact noPanic_iff_unclogged
  · exact step_bounded
  · exact create_bounded fresh mbufs

/-- A NIC that accepts nothing, with a pool that always has mbufs. -/
def refusing : Device := ⟨0, some fun lane => 100 + lane, 0⟩

/-- When the NIC accepts nothing, the 33rd send in a row panics on a null pointer. -/
theorem thirtyThird_send_nullPointer :
    ¬RunMeets Sock.step NoPanic (Sock.create id fun _ => ⟨2048, 0, 0, 0, []⟩)
        (List.replicate 32 (.send [1, 2, 3] refusing) ++ [.send [1, 2, 3] refusing]) ∧
      ∃ sock, run Sock.step (Sock.create id fun _ => ⟨2048, 0, 0, 0, []⟩)
          (List.replicate 32 (.send [1, 2, 3] refusing)) = some sock ∧
        sock.send [1, 2, 3] refusing = .error .nullPointer := by
  have panicked : ∃ sock, run Sock.step (Sock.create id fun _ => ⟨2048, 0, 0, 0, []⟩)
      (List.replicate 32 (.send [1, 2, 3] refusing)) = some sock ∧
        sock.send [1, 2, 3] refusing = .error .nullPointer := ⟨_, rfl, rfl⟩
  refine ⟨?_, panicked⟩
  intro calm
  rcases panicked with ⟨sock, performed, failed⟩
  have last : NoPanic sock (.send [1, 2, 3] refusing) :=
    calm.after performed
  have := last .nullPointer failed
  simp [Fault.inTransmitter] at this

end Nethuns.Dpdk
