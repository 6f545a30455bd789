import Nethuns.Lib.RingWindow

/-!
# The rings of an AF_XDP socket

The inline helpers of `xsk.h`. A ring is shared with the kernel: one side writes the entries and
advances `producer`, the other reads them and advances `consumer`. Both counters run freely
modulo `2 ^ 32`. User space keeps a copy of each, `cached_prod` and `cached_cons`; on a producer
ring `cached_cons` runs ahead of the consumer by the size of the ring. An index is reduced to a
cell with the mask. Memory ordering is not modelled: a load sees the last store.
-/

namespace Nethuns.AfXdp

universe u

/-- `xsk_ring_prod` and `xsk_ring_cons`, which have the same fields, with the shared memory that
they point to. -/
structure XskRing (α : Type u) where
  cachedProd : UInt32
  cachedCons : UInt32
  mask : UInt32
  size : UInt32
  /-- The shared producer counter. -/
  producer : UInt32
  /-- The shared consumer counter. -/
  consumer : UInt32
  /-- The shared entries. -/
  ring : ℕ → α

/-- The range `first..last` of `u32` values. -/
def indices (first last : UInt32) : List UInt32 :=
  (List.range' first.toNat (last.toNat - first.toNat)).map UInt32.ofNat

namespace XskRing

variable {α : Type u}

def cell (xsk : XskRing α) (idx : UInt32) : ℕ := (idx &&& xsk.mask).toNat

/-- `xsk_ring_cons__rx_desc` and `xsk_ring_cons__comp_addr`. -/
def entry (xsk : XskRing α) (idx : UInt32) : α := xsk.ring (xsk.cell idx)

/-- A store through `xsk_ring_prod__fill_addr` or `xsk_ring_prod__tx_desc`. -/
def store (xsk : XskRing α) (cell : ℕ) (value : α) : XskRing α :=
  { xsk with ring := Function.update xsk.ring cell value }

/-- The cells of `count` indices from `idx` on, as a loop that increments `idx` goes over
them. -/
def cellsFrom (xsk : XskRing α) (idx : UInt32) : ℕ → List ℕ
  | 0 => []
  | count + 1 => xsk.cell idx :: xsk.cellsFrom (idx + 1) count

/-- `xsk_prod_nb_free`. -/
def prodNbFree (xsk : XskRing α) (nb : UInt32) : UInt32 × XskRing α :=
  let freeEntries := xsk.cachedCons - xsk.cachedProd
  if freeEntries ≥ nb then
    (freeEntries, xsk)
  else
    let xsk := { xsk with cachedCons := xsk.consumer + xsk.size }
    (xsk.cachedCons - xsk.cachedProd, xsk)

/-- `xsk_cons_nb_avail`. -/
def consNbAvail (xsk : XskRing α) (nb : UInt32) : UInt32 × XskRing α :=
  let entries := xsk.cachedProd - xsk.cachedCons
  let (entries, xsk) :=
    if entries = 0 then
      let xsk := { xsk with cachedProd := xsk.producer }
      (xsk.cachedProd - xsk.cachedCons, xsk)
    else
      (entries, xsk)
  (if entries > nb then nb else entries, xsk)

/-- `xsk_ring_prod__reserve`: the number of entries, the first index and the ring. -/
def prodReserve (xsk : XskRing α) (nb idx : UInt32) : UInt32 × UInt32 × XskRing α :=
  let (free, xsk) := xsk.prodNbFree nb
  if free < nb then
    (0, idx, xsk)
  else
    (nb, xsk.cachedProd, { xsk with cachedProd := xsk.cachedProd + nb })

/-- `xsk_ring_prod__submit`. -/
def prodSubmit (xsk : XskRing α) (nb : UInt32) : XskRing α :=
  { xsk with producer := xsk.producer + nb }

/-- `xsk_ring_cons__peek`: the number of entries, the first index and the ring. -/
def consPeek (xsk : XskRing α) (nb idx : UInt32) : UInt32 × UInt32 × XskRing α :=
  let (entries, xsk) := xsk.consNbAvail nb
  if entries > 0 then
    (entries, xsk.cachedCons, { xsk with cachedCons := xsk.cachedCons + entries })
  else
    (entries, idx, xsk)

/-- `xsk_ring_cons__release`. -/
def consRelease (xsk : XskRing α) (nb : UInt32) : XskRing α :=
  { xsk with consumer := xsk.consumer + nb }

/-- The entries that the producer has published and the consumer has not released. -/
def pending (xsk : XskRing α) : List α :=
  Lib.window xsk.ring xsk.size.toNat xsk.consumer.toNat (xsk.producer - xsk.consumer).toNat

/-- The size is a power of two, the mask goes with it, and the ring is never overfull. -/
structure WellFormed (xsk : XskRing α) : Prop where
  size : ∃ order ≤ 31, xsk.size.toNat = 2 ^ order
  mask : xsk.mask.toNat + 1 = xsk.size.toNat
  bounded : (xsk.producer - xsk.consumer).toNat ≤ xsk.size.toNat

variable {xsk : XskRing α}

theorem WellFormed.size_dvd (wellFormed : xsk.WellFormed) : xsk.size.toNat ∣ 2 ^ 32 := by
  rcases wellFormed.size with ⟨order, small, size⟩
  rw [size]
  exact Nat.pow_dvd_pow 2 (by omega)

theorem WellFormed.size_le (wellFormed : xsk.WellFormed) : xsk.size.toNat ≤ 2 ^ 31 := by
  rcases wellFormed.size with ⟨order, small, size⟩
  rw [size]
  exact Nat.pow_le_pow_right (by decide) small

theorem WellFormed.cell_eq (wellFormed : xsk.WellFormed) (idx : UInt32) :
    xsk.cell idx = idx.toNat % xsk.size.toNat := by
  rcases wellFormed.size with ⟨order, -, size⟩
  have mask : xsk.mask.toNat = 2 ^ order - 1 := by
    have := wellFormed.mask
    omega
  rw [cell, UInt32.toNat_and, mask, Nat.and_two_pow_sub_one_eq_mod, size]

theorem WellFormed.cell_add (wellFormed : xsk.WellFormed) (idx : UInt32) (offset : ℕ) :
    (idx.toNat + offset) % 2 ^ 32 % xsk.size.toNat = (idx.toNat + offset) % xsk.size.toNat :=
  Nat.mod_mod_of_dvd _ wellFormed.size_dvd

@[simp]
theorem length_cellsFrom (xsk : XskRing α) (idx : UInt32) (count : ℕ) :
    (xsk.cellsFrom idx count).length = count := by
  induction count generalizing idx with
  | zero => rfl
  | succ count ih => simp [cellsFrom, ih]

theorem cellsFrom_congr {other : XskRing α} (mask : other.mask = xsk.mask) (idx : UInt32)
    (count : ℕ) : other.cellsFrom idx count = xsk.cellsFrom idx count := by
  induction count generalizing idx with
  | zero => rfl
  | succ count ih => simp only [cellsFrom, ih, cell, mask]

theorem WellFormed.succ_mod (wellFormed : xsk.WellFormed) (idx : UInt32) (offset : ℕ) :
    ((idx + 1).toNat + offset) % xsk.size.toNat = (idx.toNat + (offset + 1)) % xsk.size.toNat := by
  rw [UInt32.toNat_add, Nat.add_mod, wellFormed.cell_add, ← Nat.add_mod, UInt32.toNat_one]
  congr 1
  omega

theorem WellFormed.mem_cellsFrom (wellFormed : xsk.WellFormed) {idx : UInt32} {count cell : ℕ}
    (cell_mem : cell ∈ xsk.cellsFrom idx count) :
    ∃ offset < count, cell = (idx.toNat + offset) % xsk.size.toNat := by
  induction count generalizing idx with
  | zero => simp [cellsFrom] at cell_mem
  | succ count ih =>
      rcases List.mem_cons.mp cell_mem with rfl | later
      · exact ⟨0, Nat.succ_pos count, wellFormed.cell_eq idx⟩
      · rcases ih later with ⟨offset, inside, rfl⟩
        exact ⟨offset + 1, by omega, wellFormed.succ_mod idx offset⟩

theorem WellFormed.nodup_cellsFrom (wellFormed : xsk.WellFormed) {idx : UInt32} {count : ℕ}
    (short : count ≤ xsk.size.toNat) : (xsk.cellsFrom idx count).Nodup := by
  induction count generalizing idx with
  | zero => exact List.nodup_nil
  | succ count ih =>
      refine List.nodup_cons.mpr ⟨?_, ih (by omega)⟩
      intro again
      rcases wellFormed.mem_cellsFrom again with ⟨offset, inside, same⟩
      rw [wellFormed.cell_eq, wellFormed.succ_mod] at same
      exact Lib.position_ne (by omega) (by omega) same.symm

theorem cellsFrom_add (xsk : XskRing α) (idx : UInt32) (count more : ℕ) :
    xsk.cellsFrom idx (count + more) =
      xsk.cellsFrom idx count ++ xsk.cellsFrom (idx + .ofNat count) more := by
  induction count generalizing idx with
  | zero => simp [cellsFrom]
  | succ count ih =>
      rw [Nat.succ_add, cellsFrom, cellsFrom, ih, List.cons_append, UInt32.add_assoc,
        UInt32.add_comm 1, ← UInt32.ofNat_one, ← UInt32.ofNat_add]

theorem cellsFrom_eq_map (xsk : XskRing α) (idx : UInt32) (count : ℕ) :
    xsk.cellsFrom idx count =
      (List.range count).map fun offset => xsk.cell (idx + .ofNat offset) := by
  induction count with
  | zero => rfl
  | succ count ih =>
      rw [cellsFrom_add, ih, List.range_succ, List.map_append]
      rfl

/-- A loop that increments its index reads a window, also when the index wraps. -/
theorem WellFormed.map_cellsFrom (wellFormed : xsk.WellFormed) (idx : UInt32) (count : ℕ) :
    (xsk.cellsFrom idx count).map xsk.ring =
      Lib.window xsk.ring xsk.size.toNat idx.toNat count := by
  induction count generalizing idx with
  | zero => rfl
  | succ count ih =>
      rw [Lib.window_succ, cellsFrom, List.map_cons, ih, wellFormed.cell_eq]
      congr 1
      apply Lib.window_congr
      rw [UInt32.toNat_add, wellFormed.cell_add]
      rfl

/-- Reading a range of indices that does not wrap reads a window. -/
theorem WellFormed.map_entry {first count : UInt32} (wellFormed : xsk.WellFormed)
    (noWrap : first.toNat + count.toNat < 2 ^ 32) :
    (indices first (count + first)).map xsk.entry =
      Lib.window xsk.ring xsk.size.toNat first.toNat count.toNat := by
  have last : (count + first).toNat = first.toNat + count.toNat := by
    rw [UInt32.toNat_add, Nat.add_comm]
    exact Nat.mod_eq_of_lt noWrap
  simp only [indices, last, Nat.add_sub_cancel_left, List.range'_eq_map_range, List.map_map,
    Lib.window]
  apply List.map_congr_left
  intro offset offset_mem
  have small : first.toNat + offset < 2 ^ 32 := by
    have := List.mem_range.mp offset_mem
    omega
  simp only [Function.comp_apply, entry, wellFormed.cell_eq, UInt32.toNat_ofNat',
    Nat.mod_eq_of_lt small]

theorem indices_of_wrap {first count : UInt32} (wraps : 2 ^ 32 ≤ first.toNat + count.toNat) :
    indices first (count + first) = [] := by
  have last : (count + first).toNat < first.toNat := by
    have := count.toNat_lt
    have := first.toNat_lt
    rw [UInt32.toNat_add]
    omega
  simp only [indices, Nat.sub_eq_zero_of_le last.le, List.range'_zero, List.map_nil]

/-- The producer counter that `xsk_cons_nb_avail` goes by: the cached one, unless it is used
up. -/
def known (xsk : XskRing α) : UInt32 :=
  if xsk.cachedProd = xsk.cachedCons then xsk.producer else xsk.cachedProd

/-- How many entries a peek for `nb` entries takes. -/
def available (xsk : XskRing α) (nb : ℕ) : ℕ := min nb (xsk.known - xsk.cachedCons).toNat

/-- The ring after a peek that takes the given entries. -/
def peeked (xsk : XskRing α) (entries : UInt32) : XskRing α :=
  { xsk with cachedProd := xsk.known, cachedCons := xsk.cachedCons + entries }

theorem consPeek_spec (xsk : XskRing α) (nb idx : UInt32) :
    ∃ entries : UInt32, entries.toNat = xsk.available nb.toNat ∧
      xsk.consPeek nb idx =
        (entries, if entries = 0 then idx else xsk.cachedCons, xsk.peeked entries) := by
  have avail : xsk.consNbAvail nb =
      (if xsk.known - xsk.cachedCons > nb then nb else xsk.known - xsk.cachedCons,
        { xsk with cachedProd := xsk.known }) := by
    simp only [consNbAvail, known, Lib.counter_sub_eq_zero]
    by_cases used : xsk.cachedProd = xsk.cachedCons
    · simp only [used, if_true]
    · simp only [if_neg used]
  refine ⟨if xsk.known - xsk.cachedCons > nb then nb else xsk.known - xsk.cachedCons, ?_, ?_⟩
  · simp only [available, gt_iff_lt, UInt32.lt_iff_toNat_lt]
    split <;> omega
  · simp only [consPeek, avail]
    generalize (if xsk.known - xsk.cachedCons > nb then nb else xsk.known - xsk.cachedCons) =
      entries
    by_cases none_left : entries = 0
    · simp [none_left, peeked]
    · have some_left : entries > 0 := by grind
      simp [none_left, some_left, peeked]

/-- The kernel writes an entry and advances the producer, when the ring is not full. -/
def kernelPublish (xsk : XskRing α) (value : α) : Option (XskRing α) :=
  if (xsk.producer - xsk.consumer).toNat < xsk.size.toNat then
    some { xsk with
      ring := Function.update xsk.ring (xsk.cell xsk.producer) value
      producer := xsk.producer + 1 }
  else
    none

/-- A ring that user space consumes, between two calls: what was peeked has been released, and
user space knows of no more entries than are pending. -/
structure Consuming (xsk : XskRing α) : Prop where
  wellFormed : xsk.WellFormed
  released : xsk.cachedCons = xsk.consumer
  knows : (xsk.cachedProd - xsk.cachedCons).toNat ≤ (xsk.producer - xsk.cachedCons).toNat

theorem Consuming.known_le (consuming : xsk.Consuming) :
    (xsk.known - xsk.cachedCons).toNat ≤ (xsk.producer - xsk.cachedCons).toNat := by
  simp only [known]
  split
  · exact Nat.le_refl _
  · exact consuming.knows

theorem Consuming.pending_eq_nil {nb : ℕ} (consuming : xsk.Consuming) (asked : nb ≠ 0)
    (nothing : xsk.available nb = 0) : xsk.pending = [] := by
  have no_more : xsk.known = xsk.cachedCons := by
    simp only [available] at nothing
    apply Lib.counter_sub_eq_zero.mp
    rw [← UInt32.toNat_inj]
    simp only [UInt32.toNat_zero]
    omega
  have idle : xsk.producer = xsk.consumer := by
    rw [← consuming.released]
    simp only [known] at no_more
    split at no_more
    · exact no_more
    · rename_i some_left
      exact absurd no_more some_left
  simp [pending, idle]

/-- Peeking at entries and releasing them takes them from the front of the pending ones. -/
theorem Consuming.take {entries : UInt32} (consuming : xsk.Consuming)
    (within : entries.toNat ≤ (xsk.known - xsk.cachedCons).toNat) :
    ((xsk.peeked entries).consRelease entries).Consuming ∧
      xsk.pending = Lib.window xsk.ring xsk.size.toNat xsk.cachedCons.toNat entries.toNat ++
        ((xsk.peeked entries).consRelease entries).pending := by
  rcases consuming with ⟨wellFormed, released, knows⟩
  have known_le := Consuming.known_le ⟨wellFormed, released, knows⟩
  have fewer_known := Lib.counter_sub_add within
  have fewer := Lib.counter_sub_add (within.trans known_le)
  simp only [released] at within known_le fewer_known fewer
  refine ⟨⟨⟨wellFormed.size, wellFormed.mask, ?_⟩, ?_, ?_⟩, ?_⟩
  · have := wellFormed.bounded
    simp only [consRelease, peeked]
    omega
  · simp only [consRelease, peeked, released]
  · simp only [consRelease, peeked, released]
    omega
  · have total : (xsk.producer - xsk.consumer).toNat =
        entries.toNat + (xsk.producer - (xsk.consumer + entries)).toNat := by omega
    simp only [pending, consRelease, peeked, released]
    rw [total, Lib.window_append]
    congr 1
    apply Lib.window_congr
    rw [UInt32.toNat_add, wellFormed.cell_add]

theorem WellFormed.cell_ahead (wellFormed : xsk.WellFormed) (ahead : ℕ) :
    xsk.cell (xsk.producer + .ofNat ahead) =
      (xsk.consumer.toNat + ((xsk.producer - xsk.consumer).toNat + ahead)) % xsk.size.toNat := by
  have regroup : xsk.producer = xsk.consumer + (xsk.producer - xsk.consumer) := by grind
  have dvd := wellFormed.size_dvd
  rw [wellFormed.cell_eq]
  nth_rewrite 1 [regroup]
  simp only [UInt32.toNat_add, UInt32.toNat_ofNat', Nat.mod_mod_of_dvd _ dvd, Nat.add_mod_mod,
    Nat.mod_add_mod, Nat.add_assoc]

theorem WellFormed.cell_producer (wellFormed : xsk.WellFormed) :
    xsk.cell xsk.producer =
      (xsk.consumer.toNat + (xsk.producer - xsk.consumer).toNat) % xsk.size.toNat := by
  simpa using wellFormed.cell_ahead 0

theorem WellFormed.publish {value : α} {next : XskRing α} (wellFormed : xsk.WellFormed)
    (published : xsk.kernelPublish value = some next) :
    next.WellFormed ∧ next.pending = xsk.pending ++ [value] := by
  simp only [kernelPublish] at published
  split at published
  · rename_i room
    simp only [Option.some.injEq] at published
    subst next
    have size_le := wellFormed.size_le
    have grown : (xsk.producer + 1 - xsk.consumer).toNat =
        (xsk.producer - xsk.consumer).toNat + 1 := by
      apply Lib.counter_add_sub
      simp only [UInt32.toNat_one]
      omega
    refine ⟨⟨wellFormed.size, wellFormed.mask, ?_⟩, ?_⟩
    · simp only [grown]
      omega
    · simp only [pending, grown, wellFormed.cell_producer]
      exact Lib.window_update_snoc room
  · simp at published

theorem Consuming.publish {value : α} {next : XskRing α} (consuming : xsk.Consuming)
    (published : xsk.kernelPublish value = some next) :
    next.Consuming ∧ next.pending = xsk.pending ++ [value] := by
  rcases consuming.wellFormed.publish published with ⟨wellFormed, pending⟩
  refine ⟨⟨wellFormed, ?_, ?_⟩, pending⟩
  all_goals
    simp only [kernelPublish] at published
    split at published
  · simp only [Option.some.injEq] at published
    subst next
    exact consuming.released
  · simp at published
  · rename_i room
    simp only [Option.some.injEq] at published
    subst next
    have size_le := consuming.wellFormed.size_le
    have knows := consuming.knows
    have released := consuming.released
    have grown : (xsk.producer + 1 - xsk.cachedCons).toNat =
        (xsk.producer - xsk.cachedCons).toNat + 1 := by
      apply Lib.counter_add_sub
      simp only [released, UInt32.toNat_one]
      omega
    simp only [grown]
    omega
  · simp at published

/-- The number of entries that are published and not released. -/
def used (xsk : XskRing α) : ℕ := (xsk.producer - xsk.consumer).toNat

/-- On a ring that is not full the kernel can publish; what user space knows stays the same. -/
theorem WellFormed.publish_room (wellFormed : xsk.WellFormed) (value : α)
    (room : xsk.used < xsk.size.toNat) :
    ∃ next, xsk.kernelPublish value = some next ∧ next.used = xsk.used + 1 ∧
      next.cachedProd = xsk.cachedProd ∧ next.cachedCons = xsk.cachedCons ∧
      next.size = xsk.size := by
  have published : xsk.kernelPublish value = some _ := if_pos room
  refine ⟨_, published, ?_, rfl, rfl, rfl⟩
  have grown := congrArg List.length (wellFormed.publish published).2
  simp only [pending, Lib.length_window, List.length_append, List.length_singleton] at grown
  exact grown

/-- When user space knows of no entry, a peek finds all that the kernel has published. -/
theorem Consuming.available_unread {nb : ℕ} (consuming : xsk.Consuming)
    (unread : xsk.cachedProd = xsk.cachedCons) (few : xsk.used ≤ nb) :
    xsk.available nb = xsk.used := by
  have known_eq : xsk.known = xsk.producer := if_pos unread
  rw [available, known_eq, consuming.released]
  exact Nat.min_eq_right few

theorem Consuming.take_unread {entries : UInt32} (consuming : xsk.Consuming)
    (unread : xsk.cachedProd = xsk.cachedCons) (all : entries.toNat = xsk.used) :
    ((xsk.peeked entries).consRelease entries).used = 0 ∧
      ((xsk.peeked entries).consRelease entries).cachedProd =
        ((xsk.peeked entries).consRelease entries).cachedCons := by
  have entries_eq : entries = xsk.producer - xsk.consumer := UInt32.toNat_inj.mp all
  have caught_up : xsk.consumer + entries = xsk.producer := by
    rw [entries_eq]
    grind
  have known_eq : xsk.known = xsk.producer := if_pos unread
  simp [used, consRelease, peeked, known_eq, consuming.released, caught_up]

/-! ## Rings that user space produces -/

/-- The published entries with the `ahead` entries after them. -/
def span (xsk : XskRing α) (ahead : ℕ) : List α :=
  Lib.window xsk.ring xsk.size.toNat xsk.consumer.toNat (xsk.used + ahead)

/-- A ring that user space produces, with `ahead` entries reserved and not yet submitted. The
free entries that user space counts on are there. -/
structure Producing (xsk : XskRing α) (ahead : ℕ) : Prop where
  wellFormed : xsk.WellFormed
  reserved : xsk.cachedProd = xsk.producer + .ofNat ahead
  credit : (xsk.cachedCons - xsk.cachedProd).toNat + xsk.used + ahead ≤ xsk.size.toNat

theorem pending_eq_span : xsk.pending = xsk.span 0 := rfl

theorem Producing.ahead_toNat {ahead : ℕ} (producing : xsk.Producing ahead) :
    (UInt32.ofNat ahead).toNat = ahead := by
  have := producing.credit
  have := producing.wellFormed.size_le
  rw [UInt32.toNat_ofNat']
  omega

/-- What lies between the consumer and `cached_prod`. -/
theorem Producing.reserved_toNat {ahead : ℕ} (producing : xsk.Producing ahead) :
    (xsk.cachedProd - xsk.consumer).toNat = xsk.used + ahead := by
  have credit := producing.credit
  have small := producing.wellFormed.size_le
  have ahead_eq := producing.ahead_toNat
  simp only [used] at credit ⊢
  rw [producing.reserved, Lib.counter_add_sub, ahead_eq]
  rw [ahead_eq]
  omega

/-- `xsk_prod_nb_free` refreshes the credit at most, and what it returns is free. -/
theorem Producing.nbFree {ahead : ℕ} (producing : xsk.Producing ahead) (nb : UInt32) :
    ∃ free cachedCons, xsk.prodNbFree nb = (free, { xsk with cachedCons := cachedCons }) ∧
      free = cachedCons - xsk.cachedProd ∧
      { xsk with cachedCons := cachedCons }.Producing ahead := by
  simp only [prodNbFree]
  split
  · exact ⟨_, xsk.cachedCons, rfl, rfl, producing⟩
  · refine ⟨_, xsk.consumer + xsk.size, rfl, rfl, ⟨?_, producing.reserved, ?_⟩⟩
    · exact ⟨producing.wellFormed.size, producing.wellFormed.mask, producing.wellFormed.bounded⟩
    · have credit := producing.credit
      have grown := producing.reserved_toNat
      simp only [used] at credit grown ⊢
      have free : xsk.consumer + xsk.size - xsk.cachedProd =
          xsk.size - (xsk.cachedProd - xsk.consumer) := by grind
      rw [free, UInt32.toNat_sub_of_le, grown]
      · omega
      · rw [UInt32.le_iff_toNat_le, grown]
        omega

theorem prodNbFree_size (xsk : XskRing α) (nb : UInt32) :
    (xsk.prodNbFree nb).2.size = xsk.size := by
  simp only [prodNbFree]
  split <;> rfl

theorem prodReserve_size (xsk : XskRing α) (nb idx : UInt32) :
    (xsk.prodReserve nb idx).2.2.size = xsk.size := by
  have size := xsk.prodNbFree_size nb
  simp only [prodReserve]
  split <;> exact size

/-- Entries that are neither published nor reserved are found. -/
theorem Producing.le_nbFree {ahead : ℕ} {nb : UInt32} (producing : xsk.Producing ahead)
    (room : xsk.used + ahead + nb.toNat ≤ xsk.size.toNat) : nb ≤ (xsk.prodNbFree nb).1 := by
  simp only [prodNbFree]
  split
  · rename_i enough
    exact enough
  · have grown := producing.reserved_toNat
    have free : xsk.consumer + xsk.size - xsk.cachedProd =
        xsk.size - (xsk.cachedProd - xsk.consumer) := by grind
    simp only
    rw [free, UInt32.le_iff_toNat_le, UInt32.toNat_sub_of_le, grown]
    · omega
    · rw [UInt32.le_iff_toNat_le, grown]
      omega

/-- `xsk_ring_prod__reserve` gives nothing, or all it is asked for. -/
theorem Producing.reserve {ahead : ℕ} (producing : xsk.Producing ahead) (nb idx : UInt32) :
    (∃ cachedCons, xsk.prodReserve nb idx = (0, idx, { xsk with cachedCons := cachedCons }) ∧
        { xsk with cachedCons := cachedCons }.Producing ahead) ∨
      ∃ cachedCons, xsk.prodReserve nb idx = (nb, xsk.cachedProd,
          { xsk with cachedCons := cachedCons, cachedProd := xsk.cachedProd + nb }) ∧
        { xsk with
          cachedCons := cachedCons
          cachedProd := xsk.cachedProd + nb }.Producing (ahead + nb.toNat) := by
  rcases producing.nbFree nb with ⟨free, cachedCons, counted, free_eq, refreshed⟩
  simp only [prodReserve, counted]
  by_cases short : free < nb
  · exact Or.inl ⟨cachedCons, by simp [short], refreshed⟩
  · refine Or.inr ⟨cachedCons, by simp [short], ?_, ?_, ?_⟩
    · exact ⟨producing.wellFormed.size, producing.wellFormed.mask, producing.wellFormed.bounded⟩
    · simp only [producing.reserved, UInt32.ofNat_add, UInt32.ofNat_toNat, UInt32.add_assoc]
    · have credit := refreshed.credit
      have enough : nb.toNat ≤ (cachedCons - xsk.cachedProd).toNat := by
        rw [← free_eq]
        exact UInt32.not_lt.mp short
      have left := Lib.counter_sub_add enough
      simp only [used] at credit left ⊢
      omega

theorem Producing.reserve_all {ahead : ℕ} {nb : UInt32} (producing : xsk.Producing ahead)
    (all : nb = xsk.cachedCons - xsk.cachedProd) (idx : UInt32) :
    xsk.prodReserve nb idx =
        (nb, xsk.cachedProd, { xsk with cachedProd := xsk.cachedProd + nb }) ∧
      { xsk with cachedProd := xsk.cachedProd + nb }.Producing (ahead + nb.toNat) := by
  have granted : xsk.prodReserve nb idx =
      (nb, xsk.cachedProd, { xsk with cachedProd := xsk.cachedProd + nb }) := by
    simp [prodReserve, prodNbFree, ← all]
  refine ⟨granted, ?_⟩
  rcases producing.reserve nb idx with ⟨cachedCons, refused, same⟩ | ⟨cachedCons, given, more⟩
  · rw [granted] at refused
    simp only [Prod.mk.injEq, mk.injEq] at refused
    rcases refused with ⟨rfl, -, -, rfl, -⟩
    simpa using same
  · rw [granted] at given
    simp only [Prod.mk.injEq, mk.injEq] at given
    rcases given with ⟨-, -, -, rfl, -⟩
    exact more

theorem Producing.submit {ahead : ℕ} {count : UInt32} (producing : xsk.Producing ahead)
    (within : count.toNat ≤ ahead) :
    (xsk.prodSubmit count).Producing (ahead - count.toNat) ∧
      (xsk.prodSubmit count).used = xsk.used + count.toNat := by
  have credit := producing.credit
  have small := producing.wellFormed.size_le
  have grown : (xsk.prodSubmit count).used = xsk.used + count.toNat := by
    simp only [prodSubmit, used] at credit ⊢
    apply Lib.counter_add_sub
    omega
  refine ⟨⟨⟨producing.wellFormed.size, producing.wellFormed.mask, ?_⟩, ?_, ?_⟩, grown⟩
  · simp only [used] at grown credit
    rw [grown]
    simp only [prodSubmit]
    omega
  · simp only [prodSubmit, producing.reserved]
    have split : ahead = count.toNat + (ahead - count.toNat) := by omega
    conv_lhs => rw [split, UInt32.ofNat_add, UInt32.ofNat_toNat]
    rw [UInt32.add_assoc]
  · rw [grown]
    simp only [prodSubmit]
    omega

theorem span_submit {count : UInt32} (ahead : ℕ)
    (grown : (xsk.prodSubmit count).used = xsk.used + count.toNat) :
    (xsk.prodSubmit count).span ahead = xsk.span (count.toNat + ahead) := by
  simp only [span, grown, Nat.add_assoc]
  rfl

/-- Writing the first reserved entry that is not in the span extends it, and is not seen in
shorter spans. -/
theorem Producing.store {ahead offset : ℕ} (producing : xsk.Producing ahead)
    (reserved : offset < ahead) (value : α) :
    (xsk.store (xsk.cell (xsk.producer + .ofNat offset)) value).Producing ahead ∧
      (xsk.store (xsk.cell (xsk.producer + .ofNat offset)) value).span (offset + 1) =
        xsk.span offset ++ [value] ∧
      ∀ shorter ≤ offset,
        (xsk.store (xsk.cell (xsk.producer + .ofNat offset)) value).span shorter =
          xsk.span shorter := by
  have credit := producing.credit
  simp only [used] at credit
  refine ⟨⟨?_, producing.reserved, producing.credit⟩, ?_, ?_⟩
  · exact ⟨producing.wellFormed.size, producing.wellFormed.mask, producing.wellFormed.bounded⟩
  · rw [producing.wellFormed.cell_ahead]
    simp only [span, used, XskRing.store]
    exact Lib.window_update_snoc (by omega)
  · intro shorter shorter_le
    rw [producing.wellFormed.cell_ahead]
    simp only [span, used, XskRing.store]
    apply Lib.window_update_of_past
    · omega
    · omega

/-- The kernel takes the oldest published entry. -/
def kernelTake (xsk : XskRing α) : Option (α × XskRing α) :=
  if xsk.used = 0 then none
  else some (xsk.entry xsk.consumer, { xsk with consumer := xsk.consumer + 1 })

theorem Producing.take {ahead : ℕ} {value : α} {next : XskRing α}
    (producing : xsk.Producing ahead) (taken : xsk.kernelTake = some (value, next)) :
    next.Producing ahead ∧ next.used + 1 = xsk.used ∧
      ∀ more, xsk.span more = value :: next.span more := by
  simp only [kernelTake] at taken
  split at taken
  · simp at taken
  · rename_i nonempty
    simp only [Option.some.injEq, Prod.mk.injEq] at taken
    rcases taken with ⟨rfl, rfl⟩
    have one : (1 : UInt32).toNat ≤ (xsk.producer - xsk.consumer).toNat := by
      simp only [used] at nonempty
      simp only [UInt32.toNat_one]
      omega
    have fewer := Lib.counter_sub_add one
    simp only [UInt32.toNat_one] at fewer one
    have used_eq : { xsk with consumer := xsk.consumer + 1 }.used + 1 = xsk.used := by
      simp only [used, fewer]
      omega
    refine ⟨⟨⟨producing.wellFormed.size, producing.wellFormed.mask, ?_⟩, producing.reserved, ?_⟩,
      used_eq, ?_⟩
    · have := producing.wellFormed.bounded
      simp only [fewer]
      omega
    · have := producing.credit
      simp only
      omega
    · intro more
      have count : xsk.used + more = { xsk with consumer := xsk.consumer + 1 }.used + more + 1 := by
        omega
      simp only [span, count, Lib.window_succ, entry, producing.wellFormed.cell_eq]
      congr 1
      apply Lib.window_congr
      rw [UInt32.toNat_add, producing.wellFormed.cell_add]
      rfl

end XskRing

end Nethuns.AfXdp
