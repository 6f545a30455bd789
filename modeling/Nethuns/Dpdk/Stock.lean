import Nethuns.Dpdk.Backpressure

/-!
# The mbufs of the DPDK transmitter

The mbufs of the transmitter are those in stock, which are the entries of `bufs` that are not
null, and those that are ready. A send that does not panic takes the last mbuf in stock, after
what a restocking has allocated, and appends it to those that are ready; each burst takes mbufs
from the front of them. This file describes a call by these lists, and says in terms of the run when
the last entry of `bufs` is null.
-/

namespace Nethuns.Dpdk

open Nethuns.Lib

namespace Transmitter

/-- The mbufs among the entries of `bufs`. -/
def inStock (tx : Transmitter) : List ℕ := tx.bufs.elems.filterMap id

/-- The mbufs that a call of `advance` allocates. -/
def allocated (tx : Transmitter) (device : Device) : List ℕ :=
  if tx.readyBufs.isFull then
    match device.alloc with
    | none => []
    | some fresh => (List.range (min device.burst 32)).map fresh
  else
    []

/-- The mbufs that the burst inside `advance` leaves ready. -/
def left (tx : Transmitter) (device : Device) : List ℕ :=
  if tx.readyBufs.isFull then tx.readyBufs.elems.drop device.burst else tx.readyBufs.elems

variable {tx : Transmitter} {device : Device}

theorem inStock_eq_nil (null : ∀ entry ∈ tx.bufs.elems, entry = none) : tx.inStock = [] := by
  simp only [inStock, List.filterMap_eq_nil_iff, id]
  exact null

theorem restocked_inStock (bounded : tx.Bounded) (full : tx.readyBufs.isFull = true)
    (burst : ℕ) (fresh : ℕ → ℕ) :
    (tx.restocked burst fresh).inStock = (List.range (min burst 32)).map fresh := by
  have kept : ((pad tx.bufs).elems.take (32 - burst)).filterMap id = [] := by
    simp only [List.filterMap_eq_nil_iff, id]
    intro entry entry_mem
    exact pad_all_null (bounded.all_null full) entry (List.mem_of_mem_take entry_mem)
  simp only [inStock, restocked_bufs, List.filterMap_append, kept, List.filterMap_map]
  simp

theorem popBuf_inStock {scan : Option ℕ} {next : Transmitter}
    (popped : tx.popBuf = .ok (scan, next)) :
    scan = tx.inStock.getLast? ∧ next.inStock = tx.inStock.dropLast ∧
      next.readyBufs = tx.readyBufs := by
  cases taken : tx.bufs.pop with
  | mk entry bufs =>
      cases entry with
      | none =>
          have empty := ArrayVec.pop_eq_none taken
          simp only [popBuf, taken, Except.ok.injEq, Prod.mk.injEq] at popped
          rcases popped with ⟨rfl, rfl⟩
          simp [inStock, empty]
      | some entry =>
          have split := ArrayVec.pop_eq_some taken
          cases entry with
          | none => simp [popBuf, taken] at popped
          | some mbuf =>
              simp only [popBuf, taken, Except.ok.injEq, Prod.mk.injEq] at popped
              rcases popped with ⟨rfl, rfl⟩
              simp [inStock, split]

/-- A pop takes the last mbuf, and so leaves the null pointers first. -/
theorem popBuf_entries {count : ℕ} {scan : Option ℕ} {next : Transmitter}
    (entries : tx.bufs.elems = List.replicate count none ++ tx.inStock.map some)
    (popped : tx.popBuf = .ok (scan, next)) :
    next.bufs.elems = List.replicate count none ++ next.inStock.map some := by
  cases taken : tx.bufs.pop with
  | mk entry bufs =>
      cases entry with
      | none =>
          simp only [popBuf, taken, Except.ok.injEq, Prod.mk.injEq] at popped
          rw [← popped.2]
          exact entries
      | some entry =>
          cases entry with
          | none => simp [popBuf, taken] at popped
          | some mbuf =>
              simp only [popBuf, taken, Except.ok.injEq, Prod.mk.injEq] at popped
              have split := ArrayVec.pop_eq_some taken
              rw [← popped.2]
              simp only [inStock, split, List.filterMap_append, List.map_append,
                ← List.append_assoc] at entries ⊢
              exact List.append_cancel_right entries

/-- A call of `advance` that does not panic takes the last mbuf in stock, and its burst takes
mbufs from the front of those that are ready. -/
theorem advance_spec {scan : Option ℕ} {next : Transmitter} {sent fresh : List ℕ}
    (bounded : tx.Bounded) (advanced : tx.advance device = .ok (scan, next, sent, fresh)) :
    fresh = tx.allocated device ∧ scan = (tx.inStock ++ fresh).getLast? ∧
      next.inStock = (tx.inStock ++ fresh).dropLast ∧ next.readyBufs.elems = tx.left device ∧
      tx.readyBufs.elems = sent ++ tx.left device := by
  by_cases full : tx.readyBufs.isFull = true
  · have nothing := inStock_eq_nil (bounded.all_null full)
    cases alloc : device.alloc with
    | none =>
        rcases advance_of_full_none full alloc with ⟨bufs, entries, outcome⟩
        rw [outcome] at advanced
        simp only [Except.ok.injEq, Prod.mk.injEq] at advanced
        rcases advanced with ⟨rfl, rfl, rfl, rfl⟩
        have kept : ∀ entry ∈ bufs.elems, entry = none := by
          intro entry entry_mem
          rw [entries] at entry_mem
          exact pad_all_null (bounded.all_null full) entry (List.mem_of_mem_take entry_mem)
        simp only [allocated, left, full, alloc, if_true, nothing, List.nil_append, true_and]
        exact ⟨rfl, inStock_eq_nil kept, rfl, (List.take_append_drop _ _).symm⟩
    | some lanes =>
        have restocked := restocked_inStock bounded full device.burst lanes
        rw [advance_of_full_some full alloc] at advanced
        cases popped : (tx.restocked device.burst lanes).popBuf with
        | error fault => simp [popped] at advanced
        | ok result =>
            rcases result with ⟨mbuf, rest⟩
            rcases popBuf_inStock popped with ⟨last, others, ready⟩
            simp only [popped, Except.ok.injEq, Prod.mk.injEq] at advanced
            rcases advanced with ⟨rfl, rfl, rfl, rfl⟩
            rw [restocked] at last others
            simp only [allocated, left, full, alloc, if_true, nothing, List.nil_append, last,
              others, ready, true_and]
            exact ⟨rfl, (List.take_append_drop _ _).symm⟩
  · cases popped : tx.popBuf with
    | error fault => simp [advance, full, popped] at advanced
    | ok result =>
        rcases result with ⟨mbuf, rest⟩
        rcases popBuf_inStock popped with ⟨last, others, ready⟩
        simp only [advance, full, popped, Bool.false_eq_true, if_false, Except.ok.injEq,
          Prod.mk.injEq] at advanced
        rcases advanced with ⟨rfl, rfl, rfl, rfl⟩
        simp [allocated, left, full, last, others, ready]

/-- The mbuf that the next send is given. -/
def upcoming (tx : Transmitter) (device : Device) : Option ℕ :=
  (tx.inStock ++ tx.allocated device).getLast?

theorem flush_ready (tx : Transmitter) (accepted : ℕ) :
    tx.readyBufs.elems = (tx.flush accepted).1 ++ (tx.flush accepted).2.readyBufs.elems :=
  (List.take_append_drop _ _).symm

end Transmitter

namespace Sock

variable {sock : Sock} {device : Device}

theorem create_inStock (fresh : ℕ → ℕ) (mbufs : ℕ → Mbuf) :
    (create fresh mbufs).tx.inStock = (List.range 32).map fresh := by
  simp [Transmitter.inStock, create, Transmitter.new, List.filterMap_map]

/-- The memory of the mbufs after the allocation of a send. -/
def afterAlloc (sock : Sock) (device : Device) : ℕ → Mbuf := fun mbuf =>
  if mbuf ∈ sock.tx.allocated device then (sock.mbufs mbuf).reset else sock.mbufs mbuf

/-- What a send does to `bufs` it does in `advance`. -/
theorem send_bufs {packet : List UInt8} {outcome : Outcome}
    (sent : sock.send packet device = .ok outcome) :
    ∃ scan next burst fresh, sock.tx.advance device = .ok (scan, next, burst, fresh) ∧
      outcome.sock.tx.bufs = next.bufs := by
  cases advanced : sock.tx.advance device with
  | error fault => simp [send, advanced] at sent
  | ok result =>
      rcases result with ⟨scan, next, burst, fresh⟩
      refine ⟨scan, next, burst, fresh, rfl, ?_⟩
      simp only [send, advanced] at sent
      split at sent
      · cases sent
        rfl
      · split at sent
        · cases sent
        · simp only [Transmitter.pushReady] at sent
          split at sent <;> cases sent
          rename_i pushed
          split at pushed <;> cases pushed
          rfl

/-- A send that is not clogged, by the lists of mbufs: what its two bursts accept, and what it
does to the mbuf that it is given. -/
theorem send_cases (packet : List UInt8) (bounded : sock.tx.Bounded)
    (unclogged : sock.tx.Unclogged device) :
    ∃ sent atDrop rest, sock.tx.left device = atDrop ++ rest ∧
      sock.tx.readyBufs.elems = sent ++ sock.tx.left device ∧
      ((sock.tx.upcoming device = none ∧ ∃ tx : Transmitter, tx.inStock = [] ∧
          tx.readyBufs.elems = rest ∧
          sock.send packet device = .ok ⟨⟨tx, sock.afterAlloc device⟩, .error .noPacket,
            sent.map sock.mbufs ++ atDrop.map (sock.afterAlloc device)⟩) ∨
        ∃ (mbuf : ℕ) (tx : Transmitter), sock.tx.upcoming device = some mbuf ∧
          tx.inStock = (sock.tx.inStock ++ sock.tx.allocated device).dropLast ∧
          tx.readyBufs.elems = rest ++ [mbuf] ∧
          sock.send packet device =
            match (sock.afterAlloc device mbuf).fill packet with
            | .error fault => .error fault
            | .ok (filled, result) =>
                .ok ⟨⟨tx, Function.update (sock.afterAlloc device) mbuf filled⟩, result,
                  sent.map sock.mbufs ++ atDrop.map (sock.afterAlloc device)⟩) := by
  rcases Transmitter.advance_unclogged bounded unclogged with
    ⟨scan, tx, sent, fresh, advanced, -, room⟩
  rcases Transmitter.advance_spec bounded advanced with ⟨rfl, scan_eq, stock, ready, split⟩
  have flushed := tx.flush_ready device.dropBurst
  refine ⟨sent, (tx.flush device.dropBurst).1, (tx.flush device.dropBurst).2.readyBufs.elems,
    ready.symm.trans flushed, split, ?_⟩
  cases scan with
  | none =>
      refine Or.inl ⟨scan_eq.symm, (tx.flush device.dropBurst).2, ?_, rfl, ?_⟩
      · have nothing := List.getLast?_eq_none_iff.mp scan_eq.symm
        rw [nothing] at stock
        exact stock
      · simp only [send, advanced]
        rfl
  | some mbuf =>
      have fits : (tx.flush device.dropBurst).2.readyBufs.elems.length < 32 := by
        have := room mbuf rfl
        rw [Transmitter.flush_ready_length]
        omega
      rcases @Transmitter.pushReady_eq _ mbuf fits with ⟨next, pushed, bufs, grown⟩
      refine Or.inr ⟨mbuf, next, scan_eq.symm, ?_, grown, ?_⟩
      · rw [← stock]
        simp only [Transmitter.inStock, bufs]
        rfl
      · simp only [send, advanced, pushed]
        rfl

end Sock

/-! ## What a run leaves in `bufs` -/

/-- What a run did to `bufs`: how many mbufs the NIC refused when a send last found `ready_bufs`
full, how many were obtained then, and how many sends were made since, that one included. -/
structure Tally where
  refused : ℕ
  obtained : ℕ
  sends : ℕ

namespace Tally

def start : Tally := ⟨0, 32, 0⟩

def next (tally : Tally) (tx : Transmitter) : Call → Tally
  | .send _ device =>
      if tx.readyBufs.isFull then
        ⟨32 - device.burst, (tx.allocated device).length, 1⟩
      else
        { tally with sends := tally.sends + 1 }
  | .flush _ => tally

/-- A call on a socket, which is counted. -/
def step (state : Sock × Tally) (call : Call) : Option (Sock × Tally) :=
  (state.1.step call).map fun sock => (sock, state.2.next state.1.tx call)

/-- The null pointers that were left behind are below the mbufs obtained since. -/
structure Describes (tally : Tally) (tx : Transmitter) : Prop where
  bounded : tx.Bounded
  entries : tx.bufs.elems = List.replicate tally.refused none ++ tx.inStock.map some
  count : tx.inStock.length = tally.obtained - tally.sends

variable {tally : Tally} {tx : Transmitter} {sock after : Sock} {device : Device}

theorem start_describes (fresh : ℕ → ℕ) (mbufs : ℕ → Mbuf) :
    start.Describes (Sock.create fresh mbufs).tx := by
  refine ⟨create_bounded fresh mbufs, ?_, ?_⟩
  · rw [Sock.create_inStock]
    simp [start, Sock.create, Transmitter.new]
  · rw [Sock.create_inStock]
    simp [start]

theorem Describes.unclogged_iff (describes : tally.Describes tx) (device : Device) :
    tx.Unclogged device ↔
      if tx.readyBufs.isFull then
        0 < device.burst ∨ device.alloc = none
      else
        tally.refused = 0 ∨ tally.sends < tally.obtained := by
  simp only [Transmitter.Unclogged]
  split
  · rfl
  · have count := describes.count
    rw [describes.entries]
    rcases List.eq_nil_or_concat tx.inStock with none | ⟨others, mbuf, split⟩
    · simp only [none, List.length_nil] at count
      have spent : ¬tally.sends < tally.obtained := by omega
      simp only [none, List.map_nil, List.append_nil, spent, or_false]
      cases tally.refused with
      | zero => simp
      | succ refused => simp [List.replicate_succ']
    · simp only [split, List.concat_eq_append, List.length_append, List.length_singleton] at count
      have left : tally.sends < tally.obtained := by omega
      simp [split, left]

/-- The entries of `bufs` after a call of `advance`, the null pointers first. -/
theorem Describes.advance {scan : Option ℕ} {next : Transmitter} {sent fresh : List ℕ}
    (describes : tally.Describes tx)
    (advanced : tx.advance device = .ok (scan, next, sent, fresh)) :
    next.bufs.elems =
      List.replicate (if tx.readyBufs.isFull then 32 - device.burst else tally.refused) none ++
        next.inStock.map some := by
  by_cases full : tx.readyBufs.isFull = true
  · have padded : (Transmitter.pad tx.bufs).elems.take (32 - device.burst) =
        List.replicate (32 - device.burst) none := by
      apply List.eq_replicate_iff.mpr
      refine ⟨?_, ?_⟩
      · rw [List.length_take, Transmitter.pad_length]
        omega
      · intro entry entry_mem
        exact Transmitter.pad_all_null (describes.bounded.all_null full) entry
          (List.mem_of_mem_take entry_mem)
    rw [if_pos full, ← padded]
    cases alloc : device.alloc with
    | none =>
        rcases Transmitter.advance_of_full_none full alloc with ⟨bufs, entries, outcome⟩
        rw [outcome] at advanced
        cases advanced
        have nothing : ∀ entry ∈ bufs.elems, entry = none := by
          intro entry entry_mem
          rw [entries, padded] at entry_mem
          exact List.eq_of_mem_replicate entry_mem
        rw [Transmitter.inStock_eq_nil nothing, entries, List.map_nil, List.append_nil]
    | some lanes =>
        have stocked := Transmitter.restocked_inStock describes.bounded full device.burst lanes
        have entries : (tx.restocked device.burst lanes).bufs.elems =
            (Transmitter.pad tx.bufs).elems.take (32 - device.burst) ++
              (List.range (min device.burst 32)).map fun lane => some (lanes lane) :=
          Transmitter.restocked_bufs device.burst lanes
        rw [Transmitter.advance_of_full_some full alloc] at advanced
        cases popped : (tx.restocked device.burst lanes).popBuf with
        | error fault => simp [popped] at advanced
        | ok result =>
            rcases result with ⟨mbuf, rest⟩
            simp only [popped, Except.ok.injEq, Prod.mk.injEq] at advanced
            rw [← advanced.2.1, padded]
            refine Transmitter.popBuf_entries ?_ popped
            rw [entries, padded, stocked, List.map_map]
            rfl
  · cases popped : tx.popBuf with
    | error fault => simp [Transmitter.advance, full, popped] at advanced
    | ok result =>
        rcases result with ⟨mbuf, rest⟩
        simp only [Transmitter.advance, full, popped, Bool.false_eq_true, if_false,
          Except.ok.injEq, Prod.mk.injEq] at advanced
        rw [if_neg full, ← advanced.2.1]
        exact Transmitter.popBuf_entries describes.entries popped

theorem step_describes {call : Call} (describes : tally.Describes sock.tx)
    (stepped : sock.step call = some after) : (tally.next sock.tx call).Describes after.tx := by
  cases call with
  | flush accepted =>
      cases stepped
      exact ⟨describes.bounded.flush accepted, describes.entries, describes.count⟩
  | send packet device =>
      cases sent : sock.send packet device with
      | error fault => simp [Sock.step, sent] at stepped
      | ok outcome =>
          rcases Sock.send_bufs sent with ⟨scan, next, burst, fresh, advanced, same⟩
          have unclogged : sock.tx.Unclogged device := by
            by_contra clogged
            rw [Transmitter.advance_clogged describes.bounded clogged] at advanced
            cases advanced
          have allowed : Unclogged sock (.send packet device) := unclogged
          have bounded : after.tx.Bounded := step_bounded describes.bounded allowed stepped
          simp only [Sock.step, sent, Option.some.injEq] at stepped
          subst after
          have entries := describes.advance advanced
          rcases Transmitter.advance_spec describes.bounded advanced with
            ⟨rfl, -, stock, -, -⟩
          have inStock : outcome.sock.tx.inStock = next.inStock := by
            simp only [Transmitter.inStock, same]
          refine ⟨bounded, ?_, ?_⟩
          · rw [same, inStock, entries]
            simp only [Tally.next]
            split <;> rfl
          · rw [inStock, stock, List.length_dropLast, List.length_append]
            simp only [Tally.next]
            split
            · rename_i full
              rw [Transmitter.inStock_eq_nil (describes.bounded.all_null full), List.length_nil,
                Nat.zero_add]
            · rename_i room
              simp only [Transmitter.allocated, if_neg room, List.length_nil, describes.count]
              exact Nat.sub_sub ..

/-- In terms of the run: while `ready_bufs` has room, the last entry of `bufs` is null exactly when
the NIC refused some of the mbufs when a send last found `ready_bufs` full, and that send and those
that followed are at least as many as the mbufs obtained then. -/
theorem run_unclogged_iff {fresh : ℕ → ℕ} {mbufs : ℕ → Mbuf} {calls : List Call}
    (performed : run step (Sock.create fresh mbufs, start) calls = some (sock, tally))
    (device : Device) :
    sock.tx.Unclogged device ↔
      if sock.tx.readyBufs.isFull then
        0 < device.burst ∨ device.alloc = none
      else
        tally.refused = 0 ∨ tally.sends < tally.obtained := by
  have describes : tally.Describes sock.tx := by
    refine run_invariant_of_step (fun state : Sock × Tally => state.2.Describes state.1.tx) ?_
      (start_describes fresh mbufs) performed
    intro state next call described stepped
    simp only [step, Option.map_eq_some_iff] at stepped
    rcases stepped with ⟨after, stepped, rfl⟩
    exact step_describes described stepped
  exact describes.unclogged_iff device

end Tally

end Nethuns.Dpdk
