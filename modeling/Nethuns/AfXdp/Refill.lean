import Nethuns.AfXdp.Reception
import Nethuns.Mpsc.Delivery

/-!
# When a refill of the fill ring is sound

`UmemManager::refill_fill_ring` asks `xsk_prod_nb_free` whether there is room for its free frames,
and takes the answer, which can be larger, for the number of entries to fill. With fewer frames
than free entries it fails in the middle: the frames that it has popped are in entries that it
never submits, and the reservation stays. A later call writes its frames after these entries, but
submits the ring from where it was: it exposes entries that it has not written.

This file describes a refill by the frames that it pops and the cells that it writes, and shows
for which states of the free channel and of the ring it is sound.
-/

namespace Nethuns.AfXdp

open Nethuns.Lib Nethuns.Mpsc Nethuns.Api

/-- The entries after the given frames are written to the given cells, one after the other. -/
def written (ring : ℕ → UInt64) (cells frames : List ℕ) : ℕ → UInt64 :=
  (cells.zip frames).foldl
    (fun ring entry => Function.update ring entry.1 (UInt32.ofNat entry.2).toUInt64) ring

theorem written_of_not_mem {cells frames : List ℕ} {cell : ℕ} (outside : cell ∉ cells)
    (ring : ℕ → UInt64) : written ring cells frames cell = ring cell := by
  induction cells generalizing frames ring with
  | nil => rfl
  | cons first cells ih =>
      simp only [List.mem_cons, not_or] at outside
      cases frames with
      | nil => rfl
      | cons frame frames =>
          have later := @ih frames outside.2
            (Function.update ring first (UInt32.ofNat frame).toUInt64)
          rw [Function.update_of_ne outside.1] at later
          exact later

theorem map_written {cells frames : List ℕ} (distinct : cells.Nodup)
    (length : cells.length = frames.length) (ring : ℕ → UInt64) :
    cells.map (written ring cells frames) =
      frames.map fun frame => (UInt32.ofNat frame).toUInt64 := by
  induction cells generalizing frames ring with
  | nil =>
      cases frames with
      | nil => rfl
      | cons frame frames => simp at length
  | cons cell cells ih =>
      cases frames with
      | nil => simp at length
      | cons frame frames =>
          rw [List.nodup_cons] at distinct
          have here := @written_of_not_mem cells frames cell distinct.1
            (Function.update ring cell (UInt32.ofNat frame).toUInt64)
          have later := ih distinct.2 (Nat.succ.inj length)
            (Function.update ring cell (UInt32.ofNat frame).toUInt64)
          rw [Function.update_self] at here
          exact congrArg₂ List.cons here later

namespace XskRing

variable {α : Type} {xsk : XskRing α}

theorem prodNbFree_fst (xsk : XskRing α) (nb : UInt32) :
    (xsk.prodNbFree nb).1 =
      if xsk.cachedCons - xsk.cachedProd ≥ nb then xsk.cachedCons - xsk.cachedProd
      else xsk.consumer + xsk.size - xsk.cachedProd := by
  simp only [prodNbFree]
  split <;> rfl

theorem Producing.caught_up (producing : xsk.Producing 0) : xsk.cachedProd = xsk.producer := by
  have reserved := producing.reserved
  simpa using reserved

theorem WellFormed.map_written_toNat {ring : XskRing UInt64} {idx : UInt32} {count : ℕ}
    {frames : List ℕ} (wellFormed : ring.WellFormed) (short : count ≤ ring.size.toNat)
    (length : frames.length = count) :
    ((ring.cellsFrom idx count).map fun cell =>
        (written ring.ring (ring.cellsFrom idx count) frames cell).toNat) =
      frames.map (· % 2 ^ 32) := by
  have distinct := @WellFormed.nodup_cellsFrom _ _ wellFormed idx _ short
  have values := map_written distinct ((length_cellsFrom _ _ _).trans length.symm) ring.ring
  have addresses := congrArg (List.map UInt64.toNat) values
  simp only [List.map_map, Function.comp_def, UInt32.toNat_toUInt64, UInt32.toNat_ofNat']
    at addresses
  exact addresses

/-- The next entry to be exposed is not among those that are reserved after others that were
not submitted. -/
theorem Producing.cell_producer_not_mem {ahead count : ℕ} (producing : xsk.Producing ahead)
    (behind : ahead ≠ 0) (fits : ahead + count ≤ xsk.size.toNat) :
    xsk.cell xsk.producer ∉ xsk.cellsFrom xsk.cachedProd count := by
  intro again
  rcases producing.wellFormed.mem_cellsFrom again with ⟨offset, inside, same⟩
  rw [producing.wellFormed.cell_eq, producing.reserved, UInt32.toNat_add, producing.ahead_toNat,
    Nat.add_mod, producing.wellFormed.cell_add, ← Nat.add_mod] at same
  exact position_ne (by omega) (by omega) same.symm

end XskRing

namespace Sock

variable {sock next : Sock}

/-- The loop of a refill pops frames and writes them to the cells from its index on, until it is
done or there are no more. -/
theorem fillFrom_eq (sock : Sock) (idx : UInt32) (count : ℕ) :
    sock.fillFrom idx count =
      (if count ≤ sock.pool.channel.available then .ok ()
        else .error (.generic "refill_fill_ring: no free frames"),
        { sock with
          pool := { sock.pool with channel := (Channel.receive count sock.pool.channel).2 }
          fq := { sock.fq with
            ring := written sock.fq.ring (sock.fq.cellsFrom idx count)
              (Channel.receive count sock.pool.channel).1 } }) := by
  induction count generalizing sock idx with
  | zero => simp [fillFrom, Channel.receive, written]
  | succ count ih =>
      cases popped : sock.pool.channel.pop.1 with
      | none =>
          have nothing := (Channel.pop_eq_none_iff _).mp popped
          rw [Channel.receive_of_none popped]
          simp [fillFrom, allocFrame, popped, nothing, Pool.popped, written]
      | some frame =>
          have left := Channel.available_pop popped
          rw [Channel.receive_of_some popped]
          simp only [fillFrom, allocFrame, popped, Option.map_some, ih, Pool.popped]
          have served : count ≤ sock.pool.channel.pop.2.available ↔
              count + 1 ≤ sock.pool.channel.available := by omega
          have cells := @XskRing.cellsFrom_congr _ sock.fq
            (sock.fq.store (sock.fq.cell idx) (UInt32.ofNat frame).toUInt64) rfl (idx + 1) count
          simp only [served, cells]
          rfl

/-! ## The outcomes of a refill -/

/-- The frames that the free channel gives to the next refill, when it has enough. -/
def refillFrames (sock : Sock) : List ℕ :=
  (Channel.receive sock.refillCount sock.pool.channel).1

/-- The socket after the loop of a refill that reserved the given entries. -/
def refilled (sock : Sock) (free cachedCons : UInt32) : Sock :=
  { sock with
    pool := { sock.restocked.pool with
      channel := (Channel.receive free.toNat sock.restocked.pool.channel).2 }
    fq := { sock.fq with
      cachedProd := sock.fq.cachedProd + free
      cachedCons := cachedCons
      ring := written sock.fq.ring (sock.fq.cellsFrom sock.fq.cachedProd free.toNat)
        (Channel.receive free.toNat sock.restocked.pool.channel).1 } }

theorem length_refillFrames (served : sock.RefillServed) :
    sock.refillFrames.length = sock.refillCount := by
  rw [refillFrames, (Channel.length_receive _ _).1]
  exact Nat.min_eq_left served

theorem restocked_eq (sock : Sock) :
    sock.restocked = { sock with pool := sock.restocked.pool } := by
  simp only [restocked]
  split <;> rfl

theorem restocked_contents (sock : Sock) :
    sock.restocked.pool.channel.contents = sock.pool.channel.contents := by
  simp only [restocked]
  split
  · exact Channel.sync_contents _
  · rfl

theorem restocked_available (sock : Sock) :
    sock.restocked.pool.channel.available = sock.pool.channel.available := by
  simp only [restocked]
  split
  · exact Channel.available_sync _
  · rfl

theorem receive_restocked (sock : Sock) (count : ℕ) :
    (Channel.receive count sock.restocked.pool.channel).1 =
      (Channel.receive count sock.pool.channel).1 := by
  simp only [restocked]
  split
  · rename_i empty
    exact Channel.receive_sync (List.length_eq_zero_iff.mp empty) count
  · rfl

/-- A refill that does not find both a free frame and a free entry does nothing. Else it
reserves all the free entries, and submits them when there was a frame for each. -/
theorem refillFillRing_cases {ahead : ℕ} (producing : sock.fq.Producing ahead) :
    (sock.refillCount = 0 ∧ ∃ cachedCons, sock.refillFillRing =
        (.ok (), { sock.restocked with fq := { sock.fq with cachedCons := cachedCons } })) ∨
      ∃ free cachedCons, free.toNat = sock.refillCount ∧ free ≠ 0 ∧
        { sock.fq with
          cachedCons := cachedCons
          cachedProd := sock.fq.cachedProd + free }.Producing (ahead + free.toNat) ∧
        sock.refillFillRing =
          if free.toNat ≤ sock.pool.channel.available then
            (.ok (), { sock.refilled free cachedCons with
              fq := (sock.refilled free cachedCons).fq.prodSubmit free })
          else
            (.error (.generic "refill_fill_ring: no free frames"),
              sock.refilled free cachedCons) := by
  have fq : sock.restocked.fq = sock.fq := by rw [restocked_eq]
  simp only [refillFillRing, refillCount, fq]
  generalize UInt32.ofNat sock.restocked.pool.channel.availableLen = wanted
  by_cases nothing : wanted = 0
  · refine Or.inl ⟨if_pos nothing, sock.fq.cachedCons, ?_⟩
    rw [if_pos nothing, restocked_eq]
  · rcases producing.nbFree wanted with ⟨free, cachedCons, counted, free_eq, refreshed⟩
    simp only [if_neg nothing, counted]
    by_cases full : free = 0
    · exact Or.inl ⟨by simp [full], cachedCons, by rw [if_pos full]⟩
    · rcases refreshed.reserve_all free_eq 0 with ⟨granted, reserved⟩
      refine Or.inr ⟨free, cachedCons, rfl, full, reserved, ?_⟩
      have cells := @XskRing.cellsFrom_congr _ sock.fq
        { sock.fq with cachedCons := cachedCons, cachedProd := sock.fq.cachedProd + free } rfl
        sock.fq.cachedProd free.toNat
      simp only [if_neg full, granted, ne_eq, not_true_eq_false, if_false, fillFrom_eq,
        restocked_available, cells]
      rw [restocked_eq]
      by_cases served : free.toNat ≤ sock.pool.channel.available
      · simp only [if_pos served]
        rfl
      · simp only [if_neg served]
        rfl

/-! ## Soundness -/

/-- The addresses in the entries that a call has made visible to the kernel. -/
def exposed (sock next : Sock) : List ℕ :=
  (next.fq.cellsFrom sock.fq.producer (next.fq.producer - sock.fq.producer).toNat).map
    fun cell => (next.fq.ring cell).toNat

/-- A refill reserves no more entries than it pops frames. When it succeeds, the entries that it
exposes have exactly the frames that left the free channel; when it fails, no frame has left
and the cursors of the ring are as before. -/
structure RefillSound (sock : Sock) : Prop where
  reserved : (sock.refillFillRing.2.fq.cachedProd - sock.fq.cachedProd).toNat +
    sock.refillFillRing.2.pool.channel.contents.card ≤ sock.pool.channel.contents.card
  ok : sock.refillFillRing.1 = .ok () →
    sock.refillFillRing.2.pool.channel.contents + ↑(sock.exposed sock.refillFillRing.2) =
        sock.pool.channel.contents ∧
      (sock.fq.cachedProd = sock.fq.producer →
        sock.refillFillRing.2.fq.cachedProd = sock.refillFillRing.2.fq.producer)
  error : ∀ error, sock.refillFillRing.1 = .error error →
    sock.refillFillRing.2.pool.channel.contents = sock.pool.channel.contents ∧
      sock.refillFillRing.2.fq.cachedProd = sock.fq.cachedProd ∧
      sock.refillFillRing.2.fq.producer = sock.fq.producer

/-- The socket with other addresses in the entries of its fill ring. -/
def withEntries (sock : Sock) (entries : ℕ → UInt64) : Sock :=
  { sock with fq := { sock.fq with ring := entries } }

theorem withEntries_refillCount (sock : Sock) (entries : ℕ → UInt64) :
    (sock.withEntries entries).refillCount = sock.refillCount := by
  have pool : (sock.withEntries entries).restocked.pool = sock.restocked.pool := by
    by_cases empty : sock.pool.channel.availableLen = 0
    · simp only [restocked, withEntries, empty, if_true]
    · simp only [restocked, withEntries, empty, if_false]
  simp only [refillCount, pool]
  generalize UInt32.ofNat sock.restocked.pool.channel.availableLen = wanted
  rw [XskRing.prodNbFree_fst, XskRing.prodNbFree_fst]
  rfl

theorem withEntries_producing {ahead : ℕ} (producing : sock.fq.Producing ahead)
    (entries : ℕ → UInt64) : (sock.withEntries entries).fq.Producing ahead :=
  ⟨⟨producing.wellFormed.size, producing.wellFormed.mask, producing.wellFormed.bounded⟩,
    producing.reserved, producing.credit⟩

theorem refilled_contents (sock : Sock) (free cachedCons : UInt32) :
    (sock.refilled free cachedCons).pool.channel.contents +
        ↑(Channel.receive free.toNat sock.pool.channel).1 = sock.pool.channel.contents := by
  rw [← receive_restocked, ← restocked_contents sock]
  exact Channel.receive_contents _ _

/-- What a refill exposes when it submits: the entries from the producer on, with the frames
written from the first reserved entry on. -/
theorem exposed_refilled (sock : Sock) (free cachedCons : UInt32) :
    sock.exposed { sock.refilled free cachedCons with
        fq := (sock.refilled free cachedCons).fq.prodSubmit free } =
      (sock.fq.cellsFrom sock.fq.producer free.toNat).map fun cell =>
        (written sock.fq.ring (sock.fq.cellsFrom sock.fq.cachedProd free.toNat)
          (Channel.receive free.toNat sock.pool.channel).1 cell).toNat := by
  have count : sock.fq.producer + free - sock.fq.producer = free := by grind
  have cells := @XskRing.cellsFrom_congr _ sock.fq
    ((sock.refilled free cachedCons).fq.prodSubmit free) rfl sock.fq.producer free.toNat
  simp only [exposed, XskRing.prodSubmit, refilled, count, receive_restocked] at cells ⊢
  rw [cells]

theorem refillSound_of_idle {ahead : ℕ} (producing : sock.fq.Producing ahead)
    (idle : sock.refillCount = 0) : sock.RefillSound := by
  rcases refillFillRing_cases producing with
    ⟨-, cachedCons, outcome⟩ | ⟨free, -, free_eq, some_free, -⟩
  · constructor
    · simp [outcome, restocked_contents]
    · intro _
      simp [outcome, exposed, XskRing.cellsFrom, restocked_contents]
    · intro error failed
      simp [outcome] at failed
  · rw [idle] at free_eq
    exact absurd (UInt32.toNat_inj.mp free_eq) some_free

theorem refillSound_of_served (producing : sock.fq.Producing 0) (served : sock.RefillServed)
    (small : ∀ frame ∈ sock.refillFrames, frame < 2 ^ 32) : sock.RefillSound := by
  rcases refillFillRing_cases producing with
    ⟨idle, -⟩ | ⟨free, cachedCons, free_eq, -, reserved, outcome⟩
  · exact refillSound_of_idle producing idle
  simp only [RefillServed, refillFrames, ← free_eq] at served small
  rw [if_pos served] at outcome
  have contents := refilled_contents sock free cachedCons
  have popped := (Channel.length_receive sock.pool.channel free.toNat).1
  rw [Nat.min_eq_left served] at popped
  have first := producing.caught_up
  constructor
  · have counts := congrArg Multiset.card contents
    rw [Multiset.card_add, Multiset.coe_card, popped] at counts
    have grown : sock.fq.cachedProd + free - sock.fq.cachedProd = free := by grind
    rw [outcome]
    simp only [XskRing.prodSubmit, refilled, grown] at counts ⊢
    omega
  · intro _
    rw [outcome]
    refine ⟨?_, ?_⟩
    · have short : free.toNat ≤ sock.fq.size.toNat := by
        have credit := reserved.credit
        simp only [Nat.zero_add] at credit
        omega
      have kept : (Channel.receive free.toNat sock.pool.channel).1.map (· % 2 ^ 32) =
          (Channel.receive free.toNat sock.pool.channel).1 := by
        conv_rhs => rw [← List.map_id (Channel.receive free.toNat sock.pool.channel).1]
        apply List.map_congr_left
        intro frame frame_mem
        exact Nat.mod_eq_of_lt (small frame frame_mem)
      rw [exposed_refilled, first, producing.wellFormed.map_written_toNat short popped, kept]
      exact contents
    · intro _
      simp only [XskRing.prodSubmit, refilled, first]
  · intro error failed
    rw [outcome] at failed
    simp at failed

/-- A sound refill that reserves entries has enough frames, and what it exposes is what it has
popped. -/
theorem RefillSound.exposes {ahead : ℕ} (sound : sock.RefillSound)
    (producing : sock.fq.Producing ahead) (busy : sock.refillCount ≠ 0) :
    sock.RefillServed ∧ ahead + sock.refillCount ≤ sock.fq.size.toNat ∧
      (↑((sock.fq.cellsFrom sock.fq.producer sock.refillCount).map fun cell =>
        (written sock.fq.ring (sock.fq.cellsFrom sock.fq.cachedProd sock.refillCount)
          sock.refillFrames cell).toNat) : Multiset ℕ) = ↑sock.refillFrames := by
  rcases refillFillRing_cases producing with
    ⟨idle, -⟩ | ⟨free, cachedCons, free_eq, some_free, reserved, outcome⟩
  · exact absurd idle busy
  have fits : ahead + free.toNat ≤ sock.fq.size.toNat := by
    have credit := reserved.credit
    simp only at credit
    omega
  simp only [RefillServed, refillFrames, ← free_eq]
  by_cases served : free.toNat ≤ sock.pool.channel.available
  · rw [if_pos served] at outcome
    refine ⟨served, fits, ?_⟩
    have exposes := (sound.ok (by rw [outcome])).1
    rw [outcome, exposed_refilled] at exposes
    exact add_left_cancel (exposes.trans (refilled_contents sock free cachedCons).symm)
  · rw [if_neg served] at outcome
    have kept := (sound.error _ (by rw [outcome])).2.1
    rw [outcome] at kept
    simp only [refilled] at kept
    exact absurd (by grind) some_free

/-- With entries that were reserved and not submitted, a refill exposes whatever is in the next
entry. -/
theorem mem_refillFrames {ahead : ℕ} {addr : UInt64}
    (sound : (sock.withEntries fun _ => addr).RefillSound) (producing : sock.fq.Producing ahead)
    (busy : sock.refillCount ≠ 0) (behind : ahead ≠ 0) : addr.toNat ∈ sock.refillFrames := by
  have count := withEntries_refillCount sock fun _ => addr
  have still_producing := withEntries_producing producing fun _ => addr
  have frames : (sock.withEntries fun _ => addr).refillFrames = sock.refillFrames := by
    simp only [refillFrames, count]
    rfl
  rcases sound.exposes still_producing (count ▸ busy) with ⟨-, fits, exposes⟩
  rw [frames] at exposes
  rw [← Multiset.mem_coe, ← exposes, Multiset.mem_coe, List.mem_map]
  refine ⟨(sock.withEntries fun _ => addr).fq.cell (sock.withEntries fun _ => addr).fq.producer,
    ?_, ?_⟩
  · rcases Nat.exists_eq_succ_of_ne_zero (count ▸ busy) with ⟨rest, succ⟩
    rw [succ]
    exact List.mem_cons_self
  · rw [written_of_not_mem (still_producing.cell_producer_not_mem behind fits)]
    rfl

/-- A ring that lags behind its reservations shows stale entries. Every address that such an entry
can have would have to be among the frames popped. -/
theorem caught_up_of_sound {ahead : ℕ}
    (sound : ∀ entries, (sock.withEntries entries).RefillSound)
    (producing : sock.fq.Producing ahead) (busy : sock.refillCount ≠ 0) : ahead = 0 := by
  by_contra behind
  have here : sock.RefillSound := sound sock.fq.ring
  rcases here.exposes producing busy with ⟨served, fits, -⟩
  have subset : List.range (sock.refillCount + 1) ⊆ sock.refillFrames := by
    intro addr addr_mem
    have bounded := List.mem_range.mp addr_mem
    have size_le := producing.wellFormed.size_le
    rw [← UInt64.toNat_ofNat_of_lt' (show addr < 2 ^ 64 by omega)]
    exact mem_refillFrames (sound _) producing busy behind
  have too_many := (List.nodup_range.subperm subset).length_le
  rw [List.length_range, length_refillFrames served] at too_many
  omega

/-- A refill is sound, whatever the entries of the ring held before, exactly when it does not
reserve any, or when no earlier reservation was left, there are enough free frames for all the
free entries, and their addresses have 32 bits. -/
theorem refill_sound_iff {ahead : ℕ} (producing : sock.fq.Producing ahead) :
    (∀ entries, (sock.withEntries entries).RefillSound) ↔
      sock.refillCount = 0 ∨
        ahead = 0 ∧ sock.refillCount ≤ sock.pool.channel.available ∧
          ∀ frame ∈ sock.refillFrames, frame < 2 ^ 32 := by
  constructor
  · intro sound
    by_cases busy : sock.refillCount = 0
    · exact Or.inl busy
    have here : sock.RefillSound := sound sock.fq.ring
    rcases here.exposes producing busy with ⟨served, fits, exposes⟩
    obtain rfl : ahead = 0 := caught_up_of_sound sound producing busy
    refine Or.inr ⟨rfl, served, ?_⟩
    intro frame frame_mem
    rw [producing.caught_up,
      producing.wellFormed.map_written_toNat (by omega) (length_refillFrames served)] at exposes
    rw [← Multiset.mem_coe, ← exposes, Multiset.mem_coe, List.mem_map] at frame_mem
    rcases frame_mem with ⟨other, -, rfl⟩
    exact Nat.mod_lt _ (by decide)
  · intro condition entries
    have count := withEntries_refillCount sock entries
    have still_producing := withEntries_producing producing entries
    rcases condition with idle | ⟨rfl, served, small⟩
    · exact refillSound_of_idle still_producing (count.trans idle)
    · apply refillSound_of_served still_producing
      · rw [RefillServed, count]
        exact served
      · rw [refillFrames, count]
        exact small

/-- A fill ring of four entries, of which the first two are published. -/
def halfFullRing : XskRing UInt64 :=
  { newRing 4 4 0 with
    cachedProd := 2
    producer := 2
    ring := fun cell => if cell = 1 then 4096 else 0 }

theorem halfFullRing_producing : halfFullRing.Producing 0 where
  wellFormed := ⟨⟨2, by decide, rfl⟩, rfl, by decide⟩
  reserved := rfl
  credit := by decide

/-- A socket with that ring, and the given frames in the cache of its free channel. -/
def halfFull (frames : ArrayVec ℕ 1024) : Sock :=
  { unfilled ⟨4, 4096⟩ 0 { Mpsc.channel 4 with cached := frames } with fq := halfFullRing }

/-- With a frame for each of its two free entries the refill is sound. -/
theorem refill_sound_halfFull :
    (halfFull ⟨[8192, 12288], by decide⟩).refillCount = 2 ∧
      ∀ entries, ((halfFull ⟨[8192, 12288], by decide⟩).withEntries entries).RefillSound := by
  have count : (halfFull ⟨[8192, 12288], by decide⟩).refillCount = 2 := by decide
  refine ⟨count, (refill_sound_iff halfFullRing_producing).mpr (Or.inr ⟨rfl, ?_, ?_⟩)⟩
  · rw [count]
    decide
  · decide

/-- The socket after a refill with one frame for its two free entries, when the kernel has taken
the two published entries and their frames are free again. -/
def afterFailure : Sock :=
  let failed := (halfFull ⟨[8192], by decide⟩).refillFillRing.2
  { failed with
    pool := { failed.pool with channel := { Mpsc.channel 4 with cached := ⟨[0, 4096], by decide⟩ } }
    fq := { failed.fq with consumer := 2 } }

/-- One frame for two free entries: the refill fails, has popped the frame and keeps its
reservation. The next refill succeeds and exposes the entry with that frame and one that nothing
was written to, in place of those with the two frames that it has popped. -/
theorem refill_leaks_then_exposes_stale :
    ¬(halfFull ⟨[8192], by decide⟩).RefillSound ∧
      (halfFull ⟨[8192], by decide⟩).refillFillRing.1 =
        .error (.generic "refill_fill_ring: no free frames") ∧
      (halfFull ⟨[8192], by decide⟩).refillFillRing.2.pool.channel.available = 0 ∧
      afterFailure.fq.cachedProd = afterFailure.fq.producer + 2 ∧
      afterFailure.refillFillRing.1 = .ok () ∧ afterFailure.refillFrames = [4096, 0] ∧
      afterFailure.exposed afterFailure.refillFillRing.2 = [8192, 0] ∧
      ¬afterFailure.RefillSound := by
  have failed : (halfFull ⟨[8192], by decide⟩).refillFillRing.1 =
      .error (.generic "refill_fill_ring: no free frames") := by rfl
  refine ⟨?_, failed, by rfl, by rfl, by rfl, by decide, by decide, ?_⟩
  · intro sound
    have kept := (sound.error _ failed).2.1
    revert kept
    decide
  · intro sound
    have exposes := (sound.ok rfl).1
    revert exposes
    decide

end Sock

end Nethuns.AfXdp
