import Nethuns.AfXdp.RoundTrip

/-!
# Exclusive ownership of AF_XDP frames

Two error paths give a frame a second owner: a send that obtains a slot of the transmit ring and
finds no free frame, and a refill that runs out of free frames after it has reserved its entries.
This file shows that no frame has two owners in the runs that take neither path.
-/

namespace Nethuns.AfXdp

open Nethuns.Lib Nethuns.Mpsc Nethuns.Api

variable {flags : AfXdpFlags} {index : UInt32} {site : Site} {sock next : Sock} {action : Action}

/-- Neither error path is taken. -/
def Served (sock : Sock) (action : Action) : Prop :=
  RefillsServed sock action ∧ SendsServed sock action

/-- The socket is in order and no frame has two owners. -/
def Exclusive (flags : AfXdpFlags) (sock : Sock) : Prop :=
  sock.Intact flags True ∧ (sock.frames flags).Nodup

theorem step_exclusive (chunked : flags.Chunked) (fits : flags.Fits)
    (exclusive : Exclusive flags sock)
    (served : Served sock action) (stepped : sock.step action = some next) :
    Exclusive flags next := by
  rcases exclusive with ⟨intact, nodup⟩
  rcases step_account intact fits (chunked.returns action) served.1 stepped with
    ⟨lost, gained, account, none_gained, -⟩
  have balance := account.balance
  rw [none_gained served.2, add_zero] at balance
  refine ⟨account.intact, ?_⟩
  rw [← balance] at nodup
  exact Multiset.nodup_of_le (Multiset.le_add_right _ _) nodup

theorem Sock.Fresh.exclusive (fresh : sock.Fresh flags) : Exclusive flags sock := by
  rcases fresh.frames with ⟨lost, frames, -⟩
  refine ⟨fresh.intact, Multiset.nodup_of_le (Multiset.le_add_right _ lost) ?_⟩
  rw [frames]
  exact List.nodup_range

/-- A socket whose frames are the chunks of the UMEM never has too many of them: the size of its
UMEM would be zero. -/
theorem fits_of_create (chunk : flags.frameSize = 4096)
    (created : Sock.create flags index site = some sock) : flags.Fits := by
  rcases Sock.create_cases created with ⟨nonempty, order, power⟩
  have small : order < 20 := by
    by_contra large
    apply nonempty
    rw [← UInt32.toNat_inj, UInt32.toNat_mul, power, chunk]
    have split : 2 ^ order * (4096 : UInt32).toNat = 2 ^ 32 * 2 ^ (order - 20) := by
      rw [show (4096 : UInt32).toNat = 2 ^ 12 from rfl, ← Nat.pow_add, ← Nat.pow_add]
      congr 1
      omega
    rw [split]
    exact Nat.mul_mod_right _ _
  have bound : 2 ^ order ≤ 2 ^ 19 := Nat.pow_le_pow_right (by decide) (by omega)
  have chunk_toNat : flags.frameSize.toNat = 4096 := by
    rw [chunk]
    rfl
  simp only [AfXdpFlags.Fits, AfXdpFlags.umemLen, power, chunk_toNat]
  omega

/-- In every run of a socket whose frames are the chunks of the UMEM, in any interleaving with
the kernel and with the users: as long as no send that obtains a slot and no refill runs out of
free frames, no frame ever has two owners. -/
theorem frames_exclusive {final : Sock} {actions : List Action} (chunk : flags.frameSize = 4096)
    (created : Sock.create flags index site = some sock)
    (served : RunMeets Sock.step Served sock actions)
    (performed : run Sock.step sock actions = some final) :
    (final.frames flags).Nodup := by
  have fits := fits_of_create chunk created
  have chunked : flags.Chunked := by simp [AfXdpFlags.Chunked, chunk, chunkSize_eq]
  have exclusive : Exclusive flags final :=
    run_invariant (Exclusive flags) (step_exclusive chunked fits)
      (Sock.create_fresh created fits).exclusive served performed
  exact exclusive.2

def largeFlags : AfXdpFlags := ⟨4096, 4096⟩

/-- Sixteen packets that the kernel sends during the next flush, a call that refills the fill ring,
and a context that is cloned and dropped. -/
def sixteenSends : List Action := rounds ⟨0, 0⟩ [List.replicate 16 [1, 2, 3]]

theorem largeFlags_sixteenSends : ∃ sock final, Sock.create largeFlags 0 ⟨0, 0⟩ = some sock ∧
    Passes Sock.step Orderly sock sixteenSends final := by
  rcases Sock.create_succeeds 0 ⟨0, 0⟩ (show largeFlags.Fits by decide) ⟨12, rfl⟩ (by decide)
    (by decide) with ⟨sock, created, available⟩
  have frames : largeFlags.numFrames.toNat = 4096 := rfl
  have fresh := Sock.create_fresh created (by decide)
  rcases fresh.rounds created (by decide) rfl available (by omega)
      (show ∀ packets ∈ [List.replicate 16 [1, 2, 3]], _ by simp) with ⟨final, passes⟩
  exact ⟨sock, final, created, passes⟩

theorem frames_exclusive_sixteenSends :
    ∃ sock final, Sock.create largeFlags 0 ⟨0, 0⟩ = some sock ∧
      run Sock.step sock sixteenSends = some final ∧ (final.frames largeFlags).Nodup := by
  rcases largeFlags_sixteenSends with ⟨sock, final, created, passes⟩
  have served : Passes Sock.step Served sock sixteenSends final :=
    passes.imp fun orderly => ⟨orderly.1, orderly.2.1⟩
  exact ⟨sock, final, created, passes.performed,
    frames_exclusive rfl created served.meets passes.performed⟩

/-! ## The first send of a socket -/

/-- The first send of a new socket obtains the first slot of the transmit ring. -/
theorem Sock.Fresh.nextSlot (fresh : sock.Fresh flags) (large : 64 ≤ flags.numFrames) :
    ∃ tx, tx.HandsOut sock.tx 0 ∧
      sock.nextSlot [] = some (some 0, { sock with tx := tx }) := by
  have granted : (newRing flags.numFrames flags.numFrames (⟨0, 0, 0⟩ : XdpDesc)).prodReserve 64 0 =
      (64, 0, { newRing flags.numFrames flags.numFrames (⟨0, 0, 0⟩ : XdpDesc) with
        cachedProd := 64 }) := by
    have enough : ¬flags.numFrames < 64 := UInt32.not_lt.mpr large
    simp [XskRing.prodReserve, XskRing.prodNbFree, newRing, large, enough]
  have reserved : ∃ tx, sock.tx.reserve = some (some 0, tx) := by
    rw [fresh.tx]
    simp only [TxRing.reserve, granted]
    rw [if_neg (by decide), show (64 : UInt32).toNat = 63 + 1 from rfl, XskRing.cellsFrom]
    simp [TxRing.popFront, XskRing.cell]
  rcases reserved with ⟨tx, reserved⟩
  have flushed : sock.tx.toFlush = 0 := by rw [fresh.tx]
  have empty : sock.tx.cached = [] := by rw [fresh.tx]
  refine ⟨tx, fresh.intact.tx.reserve flushed empty reserved, ?_⟩
  have synced : sock.tx.sync = sock.tx := by simp [TxRing.sync, flushed]
  simp [Sock.nextSlot, TxRing.popFront, empty, synced, Sock.kernelRun, reserved]

theorem Sock.Fresh.cell_offset (fresh : sock.Fresh flags) (cell : ℕ) :
    (sock.tx.tx.ring cell).offset = 0 := by
  rw [fresh.tx]
  rfl

theorem Sock.Fresh.send (fresh : sock.Fresh flags) (fits : flags.Fits) (site : Site)
    (packet : List UInt8) (large : 64 ≤ flags.numFrames)
    (some_free : sock.pool.channel.available ≠ 0) :
    ∃ tx addr, tx.HandsOut sock.tx 0 ∧ sock.pool.channel.pop.1 = some addr ∧
      sock.nextSlot [] = some (some 0, { sock with tx := tx }) ∧
      sock.send packet site .idle = some (.ok (), sock.written tx 0 addr packet) := by
  rcases fresh.nextSlot large with ⟨tx, handsOut, asked⟩
  rcases Channel.pop_isSome (Nat.pos_of_ne_zero some_free) with ⟨addr, popped⟩
  refine ⟨tx, addr, handsOut, popped, asked, ?_⟩
  have obtained : sock.obtainSlot site .idle = _ := Sock.obtainSlot_of_nextSlot asked
  simp only [Sock.send, obtained, Option.map_some,
    (Sock.written_spec fresh.intact fits handsOut popped).1]

def smallFlags : AfXdpFlags := ⟨2048, 4096⟩

theorem create_smallFlags : ∃ sock, Sock.create smallFlags 0 ⟨0, 0⟩ = some sock ∧
    sock.pool.channel.available = 0 := by
  rcases Sock.create_succeeds 0 ⟨0, 0⟩ (show smallFlags.Fits by decide) ⟨11, rfl⟩ (by decide)
    (by decide) with ⟨sock, created, available⟩
  refine ⟨sock, created, ?_⟩
  have : smallFlags.numFrames.toNat = 2048 := rfl
  omega

theorem create_largeFlags : ∃ sock, Sock.create largeFlags 0 ⟨0, 0⟩ = some sock ∧
    sock.pool.channel.available ≠ 0 := by
  rcases Sock.create_succeeds 0 ⟨0, 0⟩ (show largeFlags.Fits by decide) ⟨12, rfl⟩ (by decide)
    (by decide) with ⟨sock, created, available⟩
  refine ⟨sock, created, ?_⟩
  have : largeFlags.numFrames.toNat = 4096 := rfl
  omega

/-- With exactly as many frames as the fill ring has entries, no frame is free after the creation
of the socket. The first send fails, and the descriptor of its slot makes frame 0 appear in the
transmit ring while it is in the fill ring. -/
theorem failedSend_shares_frame :
    ∃ sock final, Sock.create smallFlags 0 ⟨0, 0⟩ = some sock ∧
      run Sock.step sock [.send [1, 2, 3] ⟨0, 0⟩ .idle] = some final ∧
      ¬(final.frames smallFlags).Nodup := by
  rcases create_smallFlags with ⟨sock, created, empty⟩
  have fresh := Sock.create_fresh created (by decide)
  rcases fresh.nextSlot (by decide) with ⟨tx, handsOut, asked⟩
  rcases Sock.sendInner_of_empty [1, 2, 3] fresh.intact handsOut empty with
    ⟨pool, failed, -, frames, -⟩
  refine ⟨sock, { sock with tx := tx, pool := pool }, created, ?_, ?_⟩
  · simp [run, Sock.step, Sock.send, Sock.obtainSlot, Interleaving.idle, asked, failed]
  · rcases fresh.frames with ⟨lost, initial, lossless⟩
    rw [lossless.mpr rfl, add_zero] at initial
    rw [frames, initial, fresh.cell_offset]
    have present : 0 ∈ (↑(List.range smallFlags.numFrames.toNat) : Multiset ℕ) :=
      Multiset.mem_coe.mpr (List.mem_range.mpr (by decide))
    have repeated : 0 ∈ ({smallFlags.frame 0} : Multiset ℕ) := by
      simp [AfXdpFlags.frame]
    intro nodup
    have disjoint := (Multiset.nodup_add.mp nodup).2.2
    exact Multiset.disjoint_left.mp disjoint present repeated

end Nethuns.AfXdp
