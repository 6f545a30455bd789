import Nethuns.Dpdk.Ownership

/-!
# What the DPDK receiver returns

The cursor of the receiver outlives the iterators: each call of `recv_token` makes a new one, and a
second one when the first finds nothing. The bursts follow each other in the order in which they are
asked for, whichever call asks. What has been returned, followed by what is left of the last burst,
is always the concatenation of all the bursts so far.
-/

namespace Nethuns.Dpdk

open Nethuns.Lib Nethuns.Api

namespace Receiver

/-- The entries before `nb_rx` are there and are not null. -/
structure Filled (rx : Receiver) : Prop where
  length : rx.bufs.length = 32
  nbRx_le : rx.nbRx ≤ 32
  index_le : rx.index ≤ rx.nbRx
  nonnull : ∀ position < rx.nbRx, ∃ mbuf, rx.bufs[position]? = some (some mbuf)

variable {rx : Receiver} {delivered : List ℕ}

theorem new_filled : new.Filled := by
  refine ⟨rfl, Nat.zero_le _, Nat.le_refl _, ?_⟩
  intro position before
  exact absurd before (Nat.not_lt_zero _)

theorem Filled.burst (filled : rx.Filled) (short : delivered.length ≤ 32) :
    (rx.burst delivered).Filled := by
  refine ⟨?_, short, Nat.zero_le _, ?_⟩
  · simp only [Receiver.burst, List.length_append, List.length_map, List.length_drop,
      filled.length]
    omega
  · intro position before
    have inside : position < delivered.length := before
    refine ⟨delivered[position], ?_⟩
    simp [Receiver.burst, List.getElem?_append_left, inside]

theorem Filled.take (filled : rx.Filled) (inside : rx.index < rx.nbRx) :
    ∃ mbuf, rx.take = .ok (some mbuf, { rx with index := rx.index + 1 }) ∧
      { rx with index := rx.index + 1 }.Filled := by
  rcases filled.nonnull rx.index inside with ⟨mbuf, at_index⟩
  refine ⟨mbuf, ?_, filled.length, filled.nbRx_le, inside, filled.nonnull⟩
  simp only [Receiver.take, at_index]

theorem Filled.advance (filled : rx.Filled) (short : delivered.length ≤ 32) :
    ∃ found next, rx.advance delivered = .ok (found, next) ∧ next.Filled := by
  simp only [Receiver.advance]
  by_cases exhausted : rx.Exhausted
  · have refilled := filled.burst short
    rw [if_pos exhausted]
    by_cases nothing : delivered.length = 0
    · exact ⟨none, rx.burst delivered, if_pos nothing, refilled⟩
    · rw [if_neg nothing]
      rcases refilled.take (Nat.pos_of_ne_zero nothing) with ⟨mbuf, taken, after⟩
      exact ⟨some mbuf, _, taken, after⟩
  · have inside : rx.index < rx.nbRx := Nat.lt_of_le_of_ne filled.index_le exhausted
    rw [if_neg exhausted, if_neg (Nat.not_le.mpr inside)]
    rcases filled.take inside with ⟨mbuf, taken, after⟩
    exact ⟨some mbuf, _, taken, after⟩

/-- An advance finds nothing only when it has asked for a burst. -/
theorem exhausted_of_none {next : Receiver} (advanced : rx.advance delivered = .ok (none, next)) :
    rx.Exhausted := by
  by_contra waiting
  simp only [advance, if_neg waiting] at advanced
  split at advanced
  · simp at advanced
  · simp only [take] at advanced
    split at advanced
    all_goals simp at advanced

end Receiver

/-- A receiver with the number of bursts that it has asked for, and the mbufs that it has
returned. -/
structure RxRun where
  rx : Receiver
  requested : ℕ
  returned : List ℕ

namespace RxRun

def start : RxRun := ⟨.new, 0, []⟩

def record (run : RxRun) (found : Option ℕ) (rx : Receiver) : RxRun where
  rx := rx
  requested := if run.rx.Exhausted then run.requested + 1 else run.requested
  returned := run.returned ++ found.toList

/-- `ReceiverIterMut::advance` on a new iterator; `supply` has the results of the bursts. -/
def advance (supply : ℕ → List ℕ) (run : RxRun) : Except RxFault (Option ℕ × RxRun) :=
  match run.rx.advance (supply run.requested) with
  | .error fault => .error fault
  | .ok (found, rx) => .ok (found, run.record found rx)

/-- What `recv_token` does to the receiver. A call that finds nothing twice returns no packet. -/
def recvToken (supply : ℕ → List ℕ) (run : RxRun) : Except RxFault (Option ℕ × RxRun) :=
  match run.advance supply with
  | .error fault => .error fault
  | .ok (some mbuf, run) => .ok (some mbuf, run)
  | .ok (none, run) => run.advance supply

def recvTokens (supply : ℕ → List ℕ) (run : RxRun) : ℕ → Except RxFault RxRun
  | 0 => .ok run
  | calls + 1 =>
      match run.recvToken supply with
      | .error fault => .error fault
      | .ok (_, run) => run.recvTokens supply calls

/-- The bursts that were asked for so far, one after the other. -/
def bursts (supply : ℕ → List ℕ) (run : RxRun) : List ℕ :=
  (List.range run.requested).flatMap supply

/-- Every mbuf of the bursts so far has been returned once and in order, or is still to come from
the last burst. The next advance does not fail, and asks for a burst only when nothing is to
come. -/
structure Delivers (supply : ℕ → List ℕ) (run : RxRun) : Prop where
  index_le : run.rx.index ≤ run.rx.nbRx
  nbRx_le : run.rx.nbRx ≤ 32
  in_order : run.returned ++ run.rx.pending = run.bursts supply
  succeeds : ∃ found next, run.advance supply = .ok (found, next)
  patient : ∀ found next, run.advance supply = .ok (found, next) →
    next.requested ≠ run.requested → run.returned = run.bursts supply

variable {supply : ℕ → List ℕ} {run next : RxRun} {found : Option ℕ}

theorem advance_of_ok {rx : Receiver}
    (advanced : run.rx.advance (supply run.requested) = .ok (found, rx)) :
    run.advance supply = .ok (found, run.record found rx) := by
  simp only [advance, advanced]

theorem advance_cases (advanced : run.advance supply = .ok (found, next)) :
    run.rx.advance (supply run.requested) = .ok (found, next.rx) ∧
      next.requested = (if run.rx.Exhausted then run.requested + 1 else run.requested) ∧
      next.returned = run.returned ++ found.toList := by
  simp only [advance] at advanced
  split at advanced
  · simp at advanced
  · rename_i outcome
    simp only [Except.ok.injEq, Prod.mk.injEq] at advanced
    rcases advanced with ⟨rfl, rfl⟩
    exact ⟨outcome, rfl, rfl⟩

theorem in_order_advance (in_order : run.returned ++ run.rx.pending = run.bursts supply)
    (advanced : run.advance supply = .ok (found, next)) :
    next.returned ++ next.rx.pending = next.bursts supply := by
  rcases advance_cases advanced with ⟨outcome, requested, returned⟩
  have moved := Receiver.advance_pending outcome
  rw [returned, List.append_assoc, ← moved, ← List.append_assoc, in_order, bursts, bursts,
    requested]
  by_cases exhausted : run.rx.Exhausted
  · rw [if_pos exhausted, if_pos exhausted, List.range_succ, List.flatMap_append,
      List.flatMap_singleton]
  · rw [if_neg exhausted, if_neg exhausted, List.append_nil]

/-- What an advance preserves. -/
structure Orderly (supply : ℕ → List ℕ) (run : RxRun) : Prop where
  filled : run.rx.Filled
  in_order : run.returned ++ run.rx.pending = run.bursts supply

theorem start_orderly (supply : ℕ → List ℕ) : start.Orderly supply :=
  ⟨Receiver.new_filled, rfl⟩

theorem Orderly.advance (orderly : run.Orderly supply)
    (short : ∀ number, (supply number).length ≤ 32) :
    ∃ found next, run.advance supply = .ok (found, next) ∧ next.Orderly supply := by
  rcases orderly.filled.advance (short run.requested) with ⟨found, rx, outcome, filled⟩
  have advanced := advance_of_ok outcome
  exact ⟨found, _, advanced, filled, in_order_advance orderly.in_order advanced⟩

theorem Orderly.recvToken (orderly : run.Orderly supply)
    (short : ∀ number, (supply number).length ≤ 32) :
    ∃ found next, run.recvToken supply = .ok (found, next) ∧ next.Orderly supply := by
  rcases orderly.advance short with ⟨found, middle, first, after⟩
  cases found with
  | some mbuf => exact ⟨some mbuf, middle, by simp only [RxRun.recvToken, first], after⟩
  | none =>
      rcases after.advance short with ⟨found, next, second, final⟩
      exact ⟨found, next, by simp only [RxRun.recvToken, first, second], final⟩

theorem Orderly.recvTokens (orderly : run.Orderly supply)
    (short : ∀ number, (supply number).length ≤ 32) (calls : ℕ) :
    ∃ final, run.recvTokens supply calls = .ok final ∧ final.Orderly supply := by
  induction calls generalizing run with
  | zero => exact ⟨run, rfl, orderly⟩
  | succ calls ih =>
      rcases orderly.recvToken short with ⟨found, next, received, after⟩
      rcases ih after with ⟨final, rest, done⟩
      exact ⟨final, by simp only [RxRun.recvTokens, received, rest], done⟩

theorem Orderly.delivers (orderly : run.Orderly supply)
    (short : ∀ number, (supply number).length ≤ 32) : run.Delivers supply := by
  refine ⟨orderly.filled.index_le, orderly.filled.nbRx_le, orderly.in_order, ?_, ?_⟩
  · rcases orderly.advance short with ⟨found, next, advanced, -⟩
    exact ⟨found, next, advanced⟩
  · intro found next advanced asked
    rcases advance_cases advanced with ⟨-, requested, -⟩
    have exhausted : run.rx.Exhausted := by
      by_contra waiting
      rw [if_neg waiting] at requested
      exact asked requested
    rw [← orderly.in_order, Receiver.pending_of_exhausted exhausted, List.append_nil]

/-- Whatever the bursts deliver, every run of `recv_token` returns their mbufs once and in order.
This holds between the calls, and between the two advances of a call. -/
theorem bursts_delivered (short : ∀ number, (supply number).length ≤ 32) (calls : ℕ) :
    ∃ final, start.recvTokens supply calls = .ok final ∧ final.Delivers supply ∧
      ∀ found middle, final.advance supply = .ok (found, middle) → middle.Delivers supply := by
  rcases (start_orderly supply).recvTokens short calls with ⟨final, received, orderly⟩
  refine ⟨final, received, orderly.delivers short, ?_⟩
  intro found middle advanced
  rcases orderly.advance short with ⟨_, next, advanced', after⟩
  rw [advanced, Except.ok.injEq, Prod.mk.injEq] at advanced'
  rcases advanced' with ⟨rfl, rfl⟩
  exact after.delivers short

/-! ## The receives of the socket -/

section Socket

variable {socket after : Socket} {delivered : List (ℕ × Mbuf)}

/-- An advance of the socket is an advance of its receiver. -/
theorem advance_of_rxNext (performed : socket.rxNext delivered = some (found, after))
    (same : run.rx = socket.rx)
    (supplied : run.rx.Exhausted → supply run.requested = delivered.map Prod.fst) :
    ∃ next, run.advance supply = .ok (found, next) ∧ next.rx = after.rx ∧
      after.pool = socket.pool := by
  simp only [Socket.rxNext, ← same] at performed
  generalize burst_eq : (if run.rx.Exhausted then delivered else []) = burst at performed
  split at performed
  · cases outcome : run.rx.advance (burst.map Prod.fst) with
    | error fault => simp [outcome] at performed
    | ok result =>
        simp only [outcome, Option.some.injEq, Prod.mk.injEq] at performed
        rcases performed with ⟨rfl, rfl⟩
        have advanced : run.rx.advance (supply run.requested) = .ok result := by
          rw [← outcome, ← burst_eq]
          by_cases exhausted : run.rx.Exhausted
          · rw [if_pos exhausted, supplied exhausted]
          · simp only [Receiver.advance, if_neg exhausted]
        exact ⟨_, advance_of_ok advanced, rfl, rfl⟩
  · simp at performed

/-- `recv_token` of the socket gives its users the mbuf that the receiver returns. -/
theorem recvToken_of_socket {device : RxDevice} {result : Except Error Unit}
    (received : socket.recvToken device = some (result, after)) (same : run.rx = socket.rx)
    (first : supply run.requested = device.first.map Prod.fst)
    (second : supply (run.requested + 1) = device.second.map Prod.fst) :
    ∃ found next, run.recvToken supply = .ok (found, next) ∧ next.rx = after.rx ∧
      after.pool.tokens.map Token.idx = socket.pool.tokens.map Token.idx ++ found.toList := by
  simp only [Socket.recvToken, Option.bind_eq_some_iff] at received
  rcases received with ⟨⟨found, middle⟩, performed, received⟩
  rcases advance_of_rxNext performed same (fun _ => first) with ⟨next, advanced, rx, pool⟩
  cases found with
  | some mbuf =>
      simp only [Option.some.injEq, Prod.mk.injEq] at received
      rcases received with ⟨-, rfl⟩
      refine ⟨some mbuf, next, ?_, rx, ?_⟩
      · simp only [RxRun.recvToken, advanced]
      · simp [Socket.recvInner, Pool.give, pool]
  | none =>
      rcases advance_cases advanced with ⟨outcome, requested, -⟩
      rw [if_pos (Receiver.exhausted_of_none outcome)] at requested
      simp only [Option.bind_eq_some_iff, Option.map_eq_some_iff] at received
      rcases received with ⟨ready, nic, ⟨found, last⟩, performed', received⟩
      rcases Socket.nicRun_eq nic with ⟨mempool, nic, rfl, -⟩
      rcases advance_of_rxNext performed' rx (fun _ => requested ▸ second) with
        ⟨final, advanced', rx', pool'⟩
      refine ⟨found, final, ?_, ?_, ?_⟩
      · simp only [RxRun.recvToken, advanced, advanced']
      all_goals
        cases found with
        | none | some mbuf =>
            simp only [Prod.mk.injEq] at received
            rcases received with ⟨-, rfl⟩
            simp [Socket.recvInner, Pool.give, rx', pool', Socket.flushToMemoryPool, pool]

end Socket

/-- Two mbufs, then bursts that are empty and have one mbuf in turn. -/
def sparseSupply (number : ℕ) : List ℕ :=
  if number = 0 then [10, 20] else if number % 2 = 0 then [number] else []

theorem sparseSupply_short (number : ℕ) : (sparseSupply number).length ≤ 32 := by
  simp only [sparseSupply]
  split
  · decide
  · split <;> simp

theorem bursts_delivered_sparse :
    ∃ final, start.recvTokens sparseSupply 4 = .ok final ∧ final.returned = [10, 20, 2, 4] ∧
      final.Delivers sparseSupply := by
  rcases bursts_delivered sparseSupply_short 4 with ⟨final, received, delivers, -⟩
  have evaluated : start.recvTokens sparseSupply 4 =
      .ok ⟨⟨some 4 :: some 20 :: List.replicate 30 none, 1, 1⟩, 5, [10, 20, 2, 4]⟩ := rfl
  rw [received, Except.ok.injEq] at evaluated
  exact ⟨final, received, by rw [evaluated], delivers⟩

end RxRun

end Nethuns.Dpdk
