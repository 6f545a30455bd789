import Nethuns.AfXdp.Reception

/-!
# A new AF_XDP socket

`Sock::create` puts all the frames into the free channel, flushes it, and fills the fill ring. The
flush throws away what the number of frames exceeds a multiple of 16 by: since that number is a
power of two, these are all the frames when there are fewer than 16 of them, and none otherwise.
The fill ring has 2048 entries, so a socket that has any frames at all has at least 2048.
-/

namespace Nethuns.AfXdp.Sock

open Nethuns.Lib Nethuns.Mpsc Nethuns.Api

variable {flags : AfXdpFlags} {confined : Prop} {index : UInt32} {site : Site} {sock next : Sock}

/-! ## New rings -/

section NewRing

variable {α : Type} {size : UInt32}

theorem newRing_wellFormed (power : size.toNat.isPowerOfTwo) (cachedCons : UInt32) (blank : α) :
    (newRing size cachedCons blank).WellFormed := by
  rcases power with ⟨order, size_eq⟩
  have positive : 1 ≤ size.toNat := by
    rw [size_eq]
    exact Nat.two_pow_pos order
  refine ⟨⟨order, ?_, size_eq⟩, ?_, ?_⟩
  · by_contra large
    have := Nat.pow_le_pow_right (show 0 < 2 by decide) (show 32 ≤ order by omega)
    have := size.toNat_lt
    omega
  · simp only [newRing]
    rw [UInt32.toNat_sub_of_le _ _ positive]
    exact Nat.sub_add_cancel positive
  · simp [newRing]

theorem newRing_producing (power : size.toNat.isPowerOfTwo) (blank : α) :
    (newRing size size blank).Producing 0 := by
  refine ⟨newRing_wellFormed power size blank, rfl, ?_⟩
  simp [newRing, XskRing.used]

theorem newRing_consuming (power : size.toNat.isPowerOfTwo) (blank : α) :
    (newRing size 0 blank).Consuming := by
  refine ⟨newRing_wellFormed power 0 blank, rfl, ?_⟩
  simp [newRing]

end NewRing

def frameAddresses (flags : AfXdpFlags) : List ℕ :=
  (List.range flags.numFrames.toNat).map (· * flags.frameSize.toNat)

theorem frameAddresses_lt {addr : ℕ} (member : addr ∈ frameAddresses flags)
    (positive : 0 < flags.frameSize.toNat) : addr < flags.umemLen := by
  simp only [frameAddresses, List.mem_map, List.mem_range] at member
  rcases member with ⟨position, inRange, rfl⟩
  exact Nat.mul_lt_mul_of_pos_right inRange positive

theorem map_frame_frameAddresses (positive : 0 < flags.frameSize.toNat) :
    (frameAddresses flags).map flags.frame = List.range flags.numFrames.toNat := by
  simp only [frameAddresses, List.map_map]
  have same : flags.frame ∘ (· * flags.frameSize.toNat) = id := by
    funext position
    simp [AfXdpFlags.frame, Nat.mul_div_cancel _ positive]
  rw [same, List.map_id]

theorem unfilled_intact {channel : Channel} (power : flags.numFrames.toNat.isPowerOfTwo)
    (wellFormed : channel.WellFormed) (live : channel.batch? 0 = some .new)
    (contents_lt : ∀ addr ∈ channel.contents, addr < flags.umemLen) (positive : 0 < flags.umemLen) :
    (unfilled flags index channel).Intact flags confined := by
  refine ⟨⟨⟨wellFormed, .new, live⟩, ?_, ?_, ?_, ⟨?_, rfl, ?_⟩, ?_, ?_, ?_⟩, ?_⟩
  · exact newRing_producing ⟨11, rfl⟩ 0
  · exact newRing_consuming ⟨11, rfl⟩ 0
  · exact newRing_consuming power _
  · exact newRing_producing power _
  · simp [unfilled, newRing, XskRing.pending]
  · intro cell
    exact positive
  · intro _ desc desc_mem
    simp [unfilled, RxRing.waiting, XskRing.pending, newRing] at desc_mem
  · intro _ token token_live
    simp [unfilled, Pool.liveTokens] at token_live
  · intro addr addr_mem
    apply contents_lt
    simpa [addresses, ringAddresses, unfilled, Pool.held, Pool.issued, XskRing.pending, newRing,
      RxRing.waiting, TxRing.descs, XskRing.span, XskRing.used] using addr_mem

theorem unfilled_addresses (flags : AfXdpFlags) (index : UInt32) (channel : Channel) :
    (unfilled flags index channel).addresses = channel.contents := by
  simp [addresses, ringAddresses, unfilled, Pool.held, Pool.issued, XskRing.pending, newRing,
    RxRing.waiting, TxRing.descs, XskRing.span, XskRing.used]

/-- What is true of a socket right after its creation. -/
structure Fresh (flags : AfXdpFlags) (sock : Sock) : Prop where
  intact : sock.Intact flags True
  frames : ∃ lost, sock.frames flags + lost = ↑(List.range flags.numFrames.toNat) ∧
    (lost = 0 ↔ flags.numFrames.toNat % 16 = 0)
  aligned : ∀ addr ∈ sock.addresses, addr % flags.frameSize.toNat = 0
  capacity : sock.pool.channel.singleSpscLen = flags.numFrames.toNat
  tx : sock.tx = ⟨newRing flags.numFrames flags.numFrames ⟨0, 0, 0⟩, [], 0, []⟩
  kernelTx : sock.kernelTx = []
  cq : sock.cq = newRing 2048 0 0

theorem stocked_channel (flags : AfXdpFlags) (site : Site) :
    ∃ filled flushed discards,
      (channel flags.numFrames.toNat).pushAll 0 site (frameAddresses flags) = some (filled, []) ∧
      filled.flush 0 site = some (flushed, discards) ∧ flushed.WellFormed ∧
      flushed.singleSpscLen = flags.numFrames.toNat ∧ flushed.producers = [some .new] ∧
      flushed.Usable site ∧
      flushed.contents + discardedValues discards = ↑(frameAddresses flags) ∧
      (discardedValues discards = 0 ↔ flags.numFrames.toNat % 16 = 0) := by
  have length : (frameAddresses flags).length = flags.numFrames.toNat := by
    simp [frameAddresses]
  have room : (frameAddresses flags).length ≤ 16 * flags.numFrames.toNat := by
    rw [length]
    omega
  have stocked := Channel.stock_channel site room
  rwa [length] at stocked

/-- The part of `Sock::create` before the fill ring is filled. -/
theorem create_eq (flags : AfXdpFlags) (index : UInt32) (site : Site)
    (nonempty : flags.numFrames * flags.frameSize ≠ 0)
    (power : flags.numFrames.toNat.isPowerOfTwo) :
    ∃ (channel : Channel) (lost : Multiset ℕ), channel.WellFormed ∧
      channel.singleSpscLen = flags.numFrames.toNat ∧ channel.producers = [some .new] ∧
      channel.Usable site ∧ channel.contents + lost = ↑(frameAddresses flags) ∧
      (lost = 0 ↔ flags.numFrames.toNat % 16 = 0) ∧
      create flags index site = (unfilled flags index channel).filled := by
  rcases stocked_channel flags site with
    ⟨filled, flushed, discards, pushed, done, wellFormed, capacity, only, usable, contents,
      lossless⟩
  refine ⟨flushed, discardedValues discards, wellFormed, capacity, only, usable, contents,
    lossless, ?_⟩
  simp only [frameAddresses] at pushed
  simp [create, nonempty, power, pushed, done]

theorem positive_of_nonempty (nonempty : flags.numFrames * flags.frameSize ≠ 0) :
    0 < flags.frameSize.toNat ∧ 0 < flags.numFrames.toNat := by
  refine ⟨Nat.pos_of_ne_zero ?_, Nat.pos_of_ne_zero ?_⟩
  · intro zero
    rw [show flags.frameSize = 0 from UInt32.toNat_inj.mp zero] at nonempty
    simp at nonempty
  · intro zero
    rw [show flags.numFrames = 0 from UInt32.toNat_inj.mp zero] at nonempty
    simp at nonempty

theorem create_cases (created : create flags index site = some sock) :
    flags.numFrames * flags.frameSize ≠ 0 ∧ flags.numFrames.toNat.isPowerOfTwo := by
  simp only [create] at created
  split at created
  · simp at created
  · rename_i accepted
    simpa [not_or] using accepted

theorem create_fresh (created : create flags index site = some sock) (fits : flags.Fits) :
    sock.Fresh flags := by
  rcases create_cases created with ⟨nonempty, power⟩
  rcases positive_of_nonempty nonempty with ⟨positive, some_frames⟩
  rcases create_eq flags index site nonempty power with
    ⟨channel, lost, wellFormed, capacity, only, -, contents, lossless, create_eq⟩
  have live := Channel.batch?_of_only only
  rw [create_eq] at created
  have contents_lt : ∀ addr ∈ channel.contents, addr < flags.umemLen := by
    intro addr addr_mem
    apply frameAddresses_lt _ positive
    rw [← Multiset.mem_coe, ← contents]
    exact Multiset.mem_add.mpr (Or.inl addr_mem)
  have intact : (unfilled flags index channel).Intact flags True :=
    unfilled_intact power wellFormed live contents_lt (Nat.mul_pos some_frames positive)
  cases refilled : (unfilled flags index channel).refillFillRing with
  | mk result final =>
      cases result with
      | error error => simp [filled, refilled] at created
      | ok =>
          simp only [filled, refilled, Option.some.injEq] at created
          subst final
          have served := refillServed_of_ok intact.sane intact.fq refilled
          rcases refillFillRing_spec intact fits served with ⟨pool, fq, refilled', moves, same, -⟩
          rw [refilled, Prod.mk.injEq] at refilled'
          rcases refilled' with ⟨-, rfl⟩
          rw [unfilled_addresses] at same
          refine ⟨moves.intact, ⟨lost.map flags.frame, ?_, ?_⟩, ?_, moves.capacity.trans capacity,
            rfl, rfl, rfl⟩
          · rw [frames, same, ← Multiset.map_add, contents, Multiset.map_coe,
              map_frame_frameAddresses positive]
          · rw [Multiset.map_eq_zero, lossless]
          · rw [same]
            intro addr addr_mem
            have member : addr ∈ frameAddresses flags := by
              rw [← Multiset.mem_coe, ← contents]
              exact Multiset.mem_add.mpr (Or.inl addr_mem)
            simp only [frameAddresses, List.mem_map] at member
            rcases member with ⟨position, -, rfl⟩
            exact Nat.mul_mod_left _ _

/-- A new socket has nothing to receive, and no one holds a packet; the one handle of its channel
has an empty batch. -/
theorem create_unreceived (created : create flags index site = some sock) :
    sock.rx = ⟨newRing flags.numFrames 0 ⟨0, 0, 0⟩, .new⟩ ∧ sock.kernelRx = [] ∧
      sock.pool.tokens = [] ∧ sock.pool.payloads = [] ∧
      sock.pool.channel.producers = [some .new] ∧ sock.pool.channel.Usable site ∧
      sock.fq.size = 2048 := by
  rcases create_cases created with ⟨nonempty, power⟩
  rcases create_eq flags index site nonempty power with
    ⟨channel, lost, -, -, only, usable, -, -, create_eq⟩
  rw [create_eq, filled] at created
  rcases (unfilled flags index channel).refillFillRing_users with
    ⟨channel', fq, drawn, size, users⟩
  generalize refillFillRing _ = outcome at created users
  rcases outcome with ⟨error | _, final⟩
  · simp at created
  · simp only [Option.some.injEq] at created users
    rw [← created, users]
    exact ⟨rfl, rfl, rfl, rfl, drawn.producers.trans only, drawn.usable usable, size⟩

/-- The frames of a new socket that are not free are in the fill ring. -/
theorem Fresh.fq_used (fresh : sock.Fresh flags)
    (created : create flags index site = some sock)
    (filled : sock.pool.channel.available < flags.numFrames.toNat)
    (multiple : flags.numFrames.toNat % 16 = 0) : sock.fq.used ≠ 0 := by
  rcases create_unreceived created with ⟨rx, kernelRx, tokens, payloads, only, -, -⟩
  have batched := Channel.batchedValues_of_only only
  intro unused
  replace unused : (sock.fq.producer - sock.fq.consumer).toNat = 0 := unused
  rcases fresh.frames with ⟨lost, frames, lossless⟩
  have held : sock.pool.held = sock.pool.channel.contents := by
    simp [Pool.held, Pool.issued, tokens, payloads]
  have card := congrArg Multiset.card frames
  simp [lossless.mpr multiple, Sock.frames, addresses, ringAddresses, unused, held, kernelRx, rx,
    fresh.tx, fresh.kernelTx, fresh.cq, XskRing.pending, newRing, RxRing.waiting, TxRing.descs,
    XskRing.span, XskRing.used, ArrayVec.new, Channel.card_contents, batched] at card
  omega

/-- The refill of a new socket that has a frame takes all the entries of the fill ring. -/
theorem unfilled_refillCount {channel : Channel} (some_free : 0 < channel.available) :
    (unfilled flags index channel).refillCount = 2048 := by
  have filled := Channel.restocked_nonempty some_free
  have cache : (unfilled flags index channel).restocked.pool.channel.availableLen =
      (if channel.cached.isEmpty then channel.sync else channel).cached.elems.length := by
    by_cases empty : channel.cached.elems = []
    · simp [restocked, unfilled, Channel.availableLen, ArrayVec.isEmpty, empty, ArrayVec.len]
    · simp [restocked, unfilled, Channel.availableLen, ArrayVec.isEmpty, empty, ArrayVec.len]
  have bound := (if channel.cached.isEmpty then channel.sync else channel).cached.length_le
  have positive := List.length_pos_iff.mpr filled
  simp only [refillCount, cache]
  generalize (if channel.cached.isEmpty then channel.sync else channel).cached.elems.length =
    wanted at bound positive
  have wanted_toNat : (UInt32.ofNat wanted).toNat = wanted := by
    rw [UInt32.toNat_ofNat']
    omega
  have nonzero : UInt32.ofNat wanted ≠ 0 := by
    intro zero
    simp [zero] at wanted_toNat
    omega
  have granted : UInt32.ofNat wanted ≤ 2048 := by
    rw [UInt32.le_iff_toNat_le, wanted_toNat]
    exact bound.trans (by decide)
  simp [nonzero, unfilled, newRing, XskRing.prodNbFree, granted]

/-- A socket with at least 2048 frames can be created; 2048 of them go to the fill ring at once. -/
theorem create_succeeds (index : UInt32) (site : Site) (fits : flags.Fits)
    (power : flags.numFrames.toNat.isPowerOfTwo) (enough : 2048 ≤ flags.numFrames.toNat)
    (positive : 0 < flags.frameSize.toNat) :
    ∃ sock, create flags index site = some sock ∧
      sock.pool.channel.available + 2048 = flags.numFrames.toNat := by
  have nonempty : flags.numFrames * flags.frameSize ≠ 0 := by
    intro zero
    have product := congrArg UInt32.toNat zero
    have small : flags.numFrames.toNat * flags.frameSize.toNat < 2 ^ 32 := fits
    rw [UInt32.toNat_mul, Nat.mod_eq_of_lt small] at product
    have := Nat.mul_pos (show 0 < flags.numFrames.toNat by omega) positive
    simp only [UInt32.toNat_zero] at product
    omega
  rcases create_eq flags index site nonempty power with
    ⟨channel, lost, wellFormed, capacity, only, -, contents, lossless, create_eq⟩
  have live := Channel.batch?_of_only only
  have batched := Channel.batchedValues_of_only only
  have multiple : flags.numFrames.toNat % 16 = 0 := by
    rcases power with ⟨order, power⟩
    have large : 4 ≤ order := by
      by_contra small
      have := Nat.pow_le_pow_right (show 0 < 2 by decide) (show order ≤ 4 by omega)
      omega
    rw [power]
    exact Nat.mod_eq_zero_of_dvd (Nat.pow_dvd_pow 2 large)
  rw [lossless.mpr multiple, add_zero] at contents
  have available : channel.available = flags.numFrames.toNat := by
    have card := channel.card_contents
    simpa [contents, batched, frameAddresses] using card.symm
  have intact : (unfilled flags index channel).Intact flags True := by
    refine unfilled_intact power wellFormed live ?_ (Nat.mul_pos (by omega) positive)
    intro addr addr_mem
    rw [contents] at addr_mem
    exact frameAddresses_lt addr_mem positive
  have count : (unfilled flags index channel).refillCount = 2048 :=
    unfilled_refillCount (by omega)
  have served : (unfilled flags index channel).RefillServed := by
    simp only [RefillServed, count]
    exact enough.trans_eq available.symm
  rcases refillFillRing_spec intact fits served with ⟨pool, fq, refilled, -, -, left⟩
  refine ⟨_, by rw [create_eq, filled, refilled], ?_⟩
  rw [count] at left
  exact left.trans available

end Nethuns.AfXdp.Sock
