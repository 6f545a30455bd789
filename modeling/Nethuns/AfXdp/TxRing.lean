import Nethuns.AfXdp.RxRing

/-!
# The transmit ring of an AF_XDP socket

`TxRing` reserves 64 descriptors at a time and hands them out one by one. A descriptor that was
handed out is counted in `to_flush` at once, before anything is written to it; the next `sync`
submits as many descriptors as were counted. So whatever a handed-out cell contains is exposed
to the kernel, in the order in which the cells were handed out. The ring also records the
descriptors that were exposed so far, which the code does not.
-/

namespace Nethuns.AfXdp

open Nethuns.Lib

/-- `TxRing`. A pointer to a descriptor is the number of its cell. -/
structure TxRing where
  tx : XskRing XdpDesc
  cached : List ℕ
  toFlush : UInt32
  /-- The descriptors exposed to the kernel so far, oldest first. -/
  exposed : List XdpDesc

namespace TxRing

/-- The descriptors that were handed out and are not exposed. -/
def queued (ring : TxRing) : List XdpDesc :=
  window ring.tx.ring ring.tx.size.toNat ring.tx.producer.toNat ring.toFlush.toNat

/-- `TxRingIter::sync`. -/
def sync (ring : TxRing) : TxRing :=
  if ring.toFlush = 0 then
    ring
  else
    { ring with
      tx := ring.tx.prodSubmit ring.toFlush
      toFlush := 0
      exposed := ring.exposed ++ ring.queued }

/-- The pop from the cache in `TxRingIter::advance`, which counts the slot at once. -/
def popFront (ring : TxRing) : Option (ℕ × TxRing) :=
  match ring.cached with
  | [] => none
  | cell :: rest => some (cell, { ring with cached := rest, toFlush := ring.toFlush + 1 })

/-- The rest of `TxRingIter::advance` on an empty cache, after its `sync`: reserves a batch and
pops its first slot. The outer `none` is the panic on an empty batch. -/
def reserve (ring : TxRing) : Option (Option ℕ × TxRing) :=
  let (rcvd, idxTx, tx) := ring.tx.prodReserve 64 0
  if rcvd = 0 then
    some (none, { ring with tx := tx })
  else
    { ring with tx := tx, cached := tx.cellsFrom idxTx rcvd.toNat }.popFront.map
      fun (cell, ring) => (some cell, ring)

/-- Writes a descriptor through a `TxSlot`. -/
def write (ring : TxRing) (cell : ℕ) (desc : XdpDesc) : TxRing :=
  { ring with tx := ring.tx.store cell desc }

/-- The descriptors that the kernel can see or will see with the next `sync`. -/
def descs (ring : TxRing) : List XdpDesc := ring.tx.span ring.toFlush.toNat

/-- All the descriptors handed out so far. -/
def issued (ring : TxRing) : List XdpDesc := ring.exposed ++ ring.queued

/-- The cells that can still be handed out follow those that were, and all are reserved. What is
in the ring is what was exposed last. -/
structure Sound (ring : TxRing) : Prop where
  producing : ring.tx.Producing (ring.toFlush.toNat + ring.cached.length)
  cells : ring.cached =
    ring.tx.cellsFrom (ring.tx.producer + ring.toFlush) ring.cached.length
  shown : ring.tx.pending <:+ ring.exposed

variable {ring next : TxRing} {cell : ℕ}

theorem Sound.descs_eq (sound : ring.Sound) : ring.descs = ring.tx.pending ++ ring.queued := by
  have small := sound.producing.wellFormed.cell_ahead 0
  simp only [descs, XskRing.span, XskRing.pending, queued, window_append, XskRing.used]
  congr 1
  apply window_congr
  have := sound.producing.wellFormed.cell_eq ring.tx.producer
  simpa [XskRing.used] using (small.symm.trans (by simpa using this))

/-- The descriptors in the ring are the last of those handed out. -/
theorem Sound.number_add (sound : ring.Sound) :
    ring.exposed.length - ring.tx.used + ring.descs.length = ring.issued.length := by
  have shown := sound.shown.length_le
  simp only [XskRing.pending, length_window] at shown
  simp only [descs, XskRing.span, issued, queued, length_window, List.length_append, XskRing.used]
  omega

theorem Sound.sync (sound : ring.Sound) :
    ring.sync.Sound ∧ ring.sync.toFlush = 0 ∧ ring.sync.cached = ring.cached ∧
      ring.sync.descs = ring.descs ∧ ring.sync.issued = ring.issued ∧
      ring.sync.tx.pending = ring.descs ∧
      ring.sync.exposed.length - ring.sync.tx.used = ring.exposed.length - ring.tx.used := by
  simp only [TxRing.sync]
  split
  · rename_i nothing
    have descs_eq : ring.tx.pending = ring.descs := by
      simp [descs, XskRing.pending_eq_span, nothing]
    exact ⟨sound, nothing, rfl, rfl, rfl, descs_eq, rfl⟩
  · have within : ring.toFlush.toNat ≤ ring.toFlush.toNat + ring.cached.length := by omega
    rcases sound.producing.submit within with ⟨producing, grown⟩
    have left : ring.toFlush.toNat + ring.cached.length - ring.toFlush.toNat =
        ring.cached.length := by omega
    have span := XskRing.span_submit 0 grown
    have pending : (ring.tx.prodSubmit ring.toFlush).pending = ring.descs := by
      simpa [descs, XskRing.pending_eq_span] using span
    refine ⟨⟨?_, ?_, ?_⟩, rfl, rfl, ?_, ?_, pending, ?_⟩
    · simpa [left] using producing
    · have cells := sound.cells
      simp only [UInt32.add_zero]
      exact cells.trans (XskRing.cellsFrom_congr (by rfl) _ _).symm
    · rcases sound.shown with ⟨earlier, earlier_eq⟩
      refine ⟨earlier, ?_⟩
      simp only [pending, sound.descs_eq, ← earlier_eq, List.append_assoc]
    · simpa [descs] using span
    · simp [issued, queued]
    · simp only [grown, List.length_append, queued, length_window]
      omega

theorem sync_exposed (counted : ring.toFlush.toNat ≠ 0) : ring.sync.exposed = ring.issued := by
  have nonzero : ring.toFlush ≠ 0 := by
    rintro zero
    simp [zero] at counted
  simp [TxRing.sync, nonzero, issued]

theorem sync_ring (ring : TxRing) : ring.sync.tx.ring = ring.tx.ring := by
  simp only [TxRing.sync]
  split <;> rfl

theorem sync_size (ring : TxRing) : ring.sync.tx.size = ring.tx.size := by
  simp only [TxRing.sync]
  split <;> rfl

theorem length_descs (ring : TxRing) :
    ring.descs.length = ring.tx.used + ring.toFlush.toNat := by
  simp only [descs, XskRing.span, length_window]

theorem Sound.sync_used (sound : ring.Sound) : ring.sync.tx.used = ring.descs.length := by
  rcases sound.sync with ⟨-, flushed, -, same, -, -, -⟩
  rw [← same, length_descs, flushed, UInt32.toNat_zero, Nat.add_zero]

/-- The ring has just handed out a cell, the last of those counted; this is all that has changed
since it was `prior`. -/
structure HandsOut (ring prior : TxRing) (cell : ℕ) : Prop where
  sound : ring.Sound
  counted : ring.toFlush.toNat ≠ 0
  last : cell = ring.tx.cell (ring.tx.producer + .ofNat (ring.toFlush.toNat - 1))
  ring_eq : ring.tx.ring = prior.tx.ring
  exposed_eq : ring.exposed = prior.exposed
  used_eq : ring.tx.used = prior.tx.used
  descs_eq : ring.tx.span (ring.toFlush.toNat - 1) = prior.descs
  queued_eq : window ring.tx.ring ring.tx.size.toNat ring.tx.producer.toNat
    (ring.toFlush.toNat - 1) = prior.queued

theorem popFront_eq_none : ring.popFront = none ↔ ring.cached = [] := by
  cases cached : ring.cached with
  | nil => simp [TxRing.popFront, cached]
  | cons first rest => simp [TxRing.popFront, cached]

theorem popFront_cases (popped : ring.popFront = some (cell, next)) :
    ∃ rest, ring.cached = cell :: rest ∧
      next = { ring with cached := rest, toFlush := ring.toFlush + 1 } := by
  cases cached : ring.cached with
  | nil => simp [TxRing.popFront, cached] at popped
  | cons first rest =>
      simp only [TxRing.popFront, cached, Option.some.injEq, Prod.mk.injEq] at popped
      rcases popped with ⟨rfl, rfl⟩
      exact ⟨rest, rfl, rfl⟩

theorem Sound.popFront (sound : ring.Sound) (popped : ring.popFront = some (cell, next)) :
    next.HandsOut ring cell := by
  rcases sound with ⟨producing, cells, shown⟩
  rcases popFront_cases popped with ⟨rest, cached, rfl⟩
  simp only [cached, List.length_cons] at producing
  simp only [cached, List.length_cons, XskRing.cellsFrom, List.cons.injEq] at cells
  rcases cells with ⟨first_eq, rest_eq⟩
  have counted : (ring.toFlush + 1).toNat = ring.toFlush.toNat + 1 := by
    have := producing.credit
    have := producing.wellFormed.size_le
    rw [UInt32.toNat_add, UInt32.toNat_one]
    omega
  refine ⟨⟨?_, ?_, shown⟩, ?_, ?_, rfl, rfl, rfl, ?_, ?_⟩
  · have regroup : ring.toFlush.toNat + 1 + rest.length =
        ring.toFlush.toNat + (rest.length + 1) := by omega
    simpa only [counted, regroup] using producing
  · simpa only [UInt32.add_assoc] using rest_eq
  · simp [counted]
  · simpa [counted] using first_eq
  · simp [counted, descs]
  · simp [counted, queued]

/-- The ring with a new batch in its cache. -/
def batch (ring : TxRing) (cachedCons : UInt32) : TxRing :=
  let tx := { ring.tx with cachedCons := cachedCons, cachedProd := ring.tx.cachedProd + 64 }
  { ring with tx := tx, cached := tx.cellsFrom ring.tx.cachedProd 64 }

/-- A reservation changes at most `cached_cons`, or it pops the first slot of a new batch. It never
finds the batch empty. -/
theorem Sound.reserve_spec (sound : ring.Sound) (flushed : ring.toFlush = 0)
    (empty : ring.cached = []) :
    (∃ cachedCons, ring.reserve =
        some (none, { ring with tx := { ring.tx with cachedCons := cachedCons } }) ∧
      TxRing.Sound { ring with tx := { ring.tx with cachedCons := cachedCons } }) ∨
    ∃ cachedCons cell next, ring.reserve = some (some cell, next) ∧
      (ring.batch cachedCons).Sound ∧ (ring.batch cachedCons).popFront = some (cell, next) := by
  have producing := sound.producing
  simp only [flushed, empty, UInt32.toNat_zero, List.length_nil] at producing
  rcases producing.reserve 64 0 with ⟨cachedCons, short, same⟩ | ⟨cachedCons, granted, more⟩
  · left
    refine ⟨cachedCons, ?_, ?_, ?_, sound.shown⟩
    · simp only [TxRing.reserve, short, if_true]
    · simpa [flushed, empty] using same
    · simp [empty, XskRing.cellsFrom]
  · right
    refine ⟨cachedCons, _, _, ?_, ⟨?_, ?_, sound.shown⟩, rfl⟩
    · simp only [TxRing.reserve, granted]
      rfl
    · simpa [flushed, batch] using more
    · have first : ring.tx.cachedProd = ring.tx.producer + ring.toFlush := by
        simpa [flushed] using producing.reserved
      simp only [batch, XskRing.length_cellsFrom, ← first]

/-- A slot of a new batch; without one, only `cached_cons` may have changed. -/
theorem Sound.reserve {found : Option ℕ} (sound : ring.Sound) (flushed : ring.toFlush = 0)
    (empty : ring.cached = []) (reserved : ring.reserve = some (found, next)) :
    match found with
    | none => next.Sound ∧
        ∃ cachedCons, next = { ring with tx := { ring.tx with cachedCons := cachedCons } }
    | some cell => next.HandsOut ring cell := by
  rcases sound.reserve_spec flushed empty with
    ⟨cachedCons, short, same⟩ | ⟨cachedCons, cell, final, granted, batched, popped⟩
  · rw [short, Option.some.injEq, Prod.mk.injEq] at reserved
    rcases reserved with ⟨rfl, rfl⟩
    exact ⟨same, cachedCons, rfl⟩
  · rw [granted, Option.some.injEq, Prod.mk.injEq] at reserved
    rcases reserved with ⟨rfl, rfl⟩
    have handsOut := batched.popFront popped
    exact ⟨handsOut.sound, handsOut.counted, handsOut.last, handsOut.ring_eq, handsOut.exposed_eq,
      handsOut.used_eq, handsOut.descs_eq, handsOut.queued_eq⟩

/-- With room for a batch, a slot is found. -/
theorem Sound.reserve_room (sound : ring.Sound) (flushed : ring.toFlush = 0)
    (empty : ring.cached = []) (room : ring.tx.used + 64 ≤ ring.tx.size.toNat) :
    ∃ cell next, ring.reserve = some (some cell, next) ∧ next.tx.size = ring.tx.size := by
  rcases sound.reserve_spec flushed empty with
    ⟨cachedCons, short, -⟩ | ⟨cachedCons, cell, final, granted, -, popped⟩
  · have producing := sound.producing
    simp only [flushed, empty, UInt32.toNat_zero, List.length_nil] at producing
    have enough : (64 : UInt32) ≤ (ring.tx.prodNbFree 64).1 := producing.le_nbFree room
    have granted : ¬(ring.tx.prodNbFree 64).1 < 64 := UInt32.not_lt.mpr enough
    simp only [TxRing.reserve, XskRing.prodReserve, if_neg granted] at short
    simp [TxRing.popFront, XskRing.cellsFrom, show (64 : UInt32).toNat = 63 + 1 from rfl] at short
  · rcases popFront_cases popped with ⟨rest, -, rfl⟩
    exact ⟨cell, _, granted, rfl⟩

variable {prior : TxRing}

theorem HandsOut.write (handsOut : ring.HandsOut prior cell) (desc : XdpDesc) :
    (ring.write cell desc).Sound ∧ (ring.write cell desc).descs = prior.descs ++ [desc] ∧
      (ring.write cell desc).issued = prior.issued ++ [desc] := by
  rcases handsOut with
    ⟨⟨producing, cells, shown⟩, counted, rfl, -, exposed_eq, -, descs_eq, queued_eq⟩
  have within : ring.toFlush.toNat - 1 < ring.toFlush.toNat + ring.cached.length := by omega
  have restore : ring.toFlush.toNat - 1 + 1 = ring.toFlush.toNat := by omega
  rcases producing.store within desc with ⟨stored, span, shorter⟩
  rw [restore, descs_eq] at span
  have pending := shorter 0 (Nat.zero_le _)
  simp only [← XskRing.pending_eq_span] at pending
  refine ⟨⟨stored, ?_, pending ▸ shown⟩, span, ?_⟩
  · exact cells.trans (XskRing.cellsFrom_congr (by rfl) _ _).symm
  · have position : ring.tx.cell (ring.tx.producer + .ofNat (ring.toFlush.toNat - 1)) =
        (ring.tx.producer.toNat + (ring.toFlush.toNat - 1)) % ring.tx.size.toNat := by
      have dvd := producing.wellFormed.size_dvd
      simp only [producing.wellFormed.cell_eq, UInt32.toNat_add, UInt32.toNat_ofNat',
        Nat.mod_mod_of_dvd _ dvd, Nat.add_mod_mod]
    have room : ring.toFlush.toNat - 1 < ring.tx.size.toNat := by
      have := producing.credit
      omega
    have grown : window (Function.update ring.tx.ring
        ((ring.tx.producer.toNat + (ring.toFlush.toNat - 1)) % ring.tx.size.toNat) desc)
        ring.tx.size.toNat ring.tx.producer.toNat (ring.toFlush.toNat - 1 + 1) = _ :=
      window_update_snoc room
    rw [restore, ← position, queued_eq] at grown
    simp only [TxRing.issued, queued, TxRing.write, XskRing.store, grown, ← exposed_eq,
      List.append_assoc]

/-- As long as nothing is written, the last descriptor is what the cell contains. -/
theorem HandsOut.stale (handsOut : ring.HandsOut prior cell) :
    ring.descs = prior.descs ++ [ring.tx.ring cell] ∧
      ring.issued = prior.issued ++ [ring.tx.ring cell] := by
  have same : ring.write cell (ring.tx.ring cell) = ring := by
    simp [TxRing.write, XskRing.store]
  rcases handsOut.write (ring.tx.ring cell) with ⟨-, descs_eq, issued_eq⟩
  rw [same] at descs_eq issued_eq
  exact ⟨descs_eq, issued_eq⟩

/-- The kernel takes the oldest exposed descriptor. -/
def kernelTake (ring : TxRing) : Option (XdpDesc × TxRing) :=
  ring.tx.kernelTake.map fun (desc, tx) => (desc, { ring with tx := tx })

theorem Sound.kernelTake {desc : XdpDesc} (sound : ring.Sound)
    (taken : ring.kernelTake = some (desc, next)) :
    next.Sound ∧ ring.descs = desc :: next.descs ∧ next.issued = ring.issued ∧
      next.exposed = ring.exposed ∧ next.tx.used + 1 = ring.tx.used ∧
      next.tx.ring = ring.tx.ring ∧ next.toFlush = ring.toFlush ∧ next.cached = ring.cached := by
  simp only [TxRing.kernelTake, Option.map_eq_some_iff] at taken
  rcases taken with ⟨⟨desc', tx⟩, taken, same⟩
  simp only [Prod.mk.injEq] at same
  rcases same with ⟨rfl, rfl⟩
  rcases sound.producing.take taken with ⟨producing, used, span⟩
  simp only [XskRing.kernelTake] at taken
  split at taken
  · simp at taken
  · simp only [Option.some.injEq, Prod.mk.injEq] at taken
    rcases taken with ⟨-, rfl⟩
    refine ⟨⟨producing, ?_, ?_⟩, span _, rfl, rfl, used, rfl, rfl, rfl⟩
    · exact sound.cells.trans (XskRing.cellsFrom_congr (by rfl) _ _).symm
    · have pending := span 0
      simp only [← XskRing.pending_eq_span] at pending
      exact (pending ▸ List.suffix_cons _ _).trans sound.shown

end TxRing

end Nethuns.AfXdp
