import Mathlib.Data.List.Basic

/-!
# The DPDK receiver

`Receiver` keeps the mbufs of the last burst in an array of `BURST_SIZE` = 32 entries, of which
those in `index..nb_rx` are yet to be returned. A new burst is asked for when there are none; it
overwrites the array from its beginning on. What the burst delivers is a parameter of each call,
used only when the burst takes place.
-/

namespace Nethuns.Dpdk

/-- What makes a receive abort the process. -/
inductive RxFault
  /-- The explicit panic on an index behind `nb_rx`. -/
  | indexOutOfBounds
  /-- An access behind the end of the array. -/
  | arrayIndex
  /-- `NonNull::new(buf).unwrap()` on a null pointer. -/
  | nullPointer
deriving DecidableEq

structure Receiver where
  bufs : List (Option ℕ)
  nbRx : ℕ
  index : ℕ
deriving DecidableEq

namespace Receiver

/-- The receiver of a new socket. -/
def new : Receiver := ⟨List.replicate 32 none, 0, 0⟩

/-- The next call of `advance` asks for a burst. -/
def Exhausted (rx : Receiver) : Prop := rx.index = rx.nbRx

instance (rx : Receiver) : Decidable rx.Exhausted :=
  inferInstanceAs (Decidable (rx.index = rx.nbRx))

/-- `rte_eth_rx_burst`, with the updates of the cursors. -/
def burst (rx : Receiver) (delivered : List ℕ) : Receiver where
  bufs := delivered.map some ++ rx.bufs.drop delivered.length
  nbRx := delivered.length
  index := 0

/-- The end of `advance`: the entry at `index`. -/
def take (rx : Receiver) : Except RxFault (Option ℕ × Receiver) :=
  match rx.bufs[rx.index]? with
  | none => .error .arrayIndex
  | some none => .error .nullPointer
  | some (some mbuf) => .ok (some mbuf, { rx with index := rx.index + 1 })

/-- `ReceiverIterMut::advance`. -/
def advance (rx : Receiver) (delivered : List ℕ) : Except RxFault (Option ℕ × Receiver) :=
  if rx.Exhausted then
    let rx := rx.burst delivered
    if delivered.length = 0 then .ok (none, rx) else rx.take
  else if rx.index ≥ rx.nbRx then
    .error .indexOutOfBounds
  else
    rx.take

/-- The mbufs of the last burst that are yet to be returned. -/
def pending (rx : Receiver) : List ℕ := ((rx.bufs.take rx.nbRx).drop rx.index).filterMap id

variable {rx next : Receiver} {delivered : List ℕ} {found : Option ℕ}

theorem pending_of_exhausted (exhausted : rx.Exhausted) : rx.pending = [] := by
  have nothing : (rx.bufs.take rx.nbRx).drop rx.index = [] := by
    apply List.drop_eq_nil_of_le
    rw [exhausted]
    exact List.length_take_le _ _
  simp [pending, nothing]

theorem pending_burst (rx : Receiver) (delivered : List ℕ) :
    (rx.burst delivered).pending = delivered := by
  have length : (delivered.map some).length = delivered.length := List.length_map _
  simp only [pending, burst, List.drop_zero]
  rw [← length, List.take_left]
  simp

theorem take_pending (inside : rx.index < rx.nbRx) (taken : rx.take = .ok (found, next)) :
    rx.pending = found.toList ++ next.pending := by
  simp only [take] at taken
  split at taken
  · simp at taken
  · simp at taken
  · rename_i mbuf at_index
    simp only [Except.ok.injEq, Prod.mk.injEq] at taken
    rcases taken with ⟨rfl, rfl⟩
    have here : (rx.bufs.take rx.nbRx)[rx.index]? = some (some mbuf) := by
      rw [List.getElem?_take_of_lt inside, at_index]
    rcases List.getElem?_eq_some_iff.mp here with ⟨in_range, value⟩
    simp only [pending, List.drop_eq_getElem_cons in_range, value]
    simp

/-- What `advance` returns is the first of the mbufs that are pending, or that a burst has
delivered. -/
theorem advance_pending (advanced : rx.advance delivered = .ok (found, next)) :
    rx.pending ++ (if rx.Exhausted then delivered else []) = found.toList ++ next.pending := by
  simp only [advance] at advanced
  by_cases exhausted : rx.Exhausted
  · simp only [exhausted, if_true, pending_of_exhausted exhausted, List.nil_append] at advanced ⊢
    by_cases nothing : delivered.length = 0
    · simp only [nothing, if_true, Except.ok.injEq, Prod.mk.injEq] at advanced
      rcases advanced with ⟨rfl, rfl⟩
      rw [pending_burst]
      rfl
    · rw [if_neg nothing] at advanced
      rw [← take_pending (Nat.pos_of_ne_zero nothing) advanced, pending_burst]
  · simp only [exhausted, if_false, List.append_nil] at advanced ⊢
    split at advanced
    · simp at advanced
    · rename_i inside
      exact take_pending (Nat.lt_of_not_le inside) advanced

end Receiver

end Nethuns.Dpdk
