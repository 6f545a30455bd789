import Mathlib.Data.Nat.Prime.Basic
import Mathlib.Data.Nat.GCD.Basic
import Mathlib.Data.Int.ModEq
import Nethuns.AfXdp.Creation

/-!
# The layout of the UMEM

Three computations have to agree on where the frames are. `Sock::create` allocates the UMEM with a
size that it computes in 32 bits, and cuts it into frames at addresses that it computes in 64 bits.
The kernel cuts it into chunks, whose size comes from the configuration that `Umem::new` hands to
libxdp. This configuration is null, so a chunk has 4096 bytes whatever the frame size is.
-/

namespace Nethuns.AfXdp

open Nethuns.Lib Nethuns.Mpsc

/-! ## The area -/

/-- What `alloc_page_aligned` learns from the system: the result of `sysconf(_SC_PAGESIZE)`, the
text of the last error, and the address at which memory of a given size and alignment is allocated.
The address is zero when there is none. -/
structure Platform where
  pageSize : ℤ
  lastOsError : String
  alloc : ℕ → ℕ → ℕ

/-- `Layout::from_size_align`: the size and the alignment of an allocation. -/
def layoutFromSizeAlign (size align : ℕ) : Option (ℕ × ℕ) :=
  if align.isPowerOfTwo ∧ size ≤ 2 ^ 63 - align then some (size, align) else none

/-- `alloc_page_aligned`. -/
def allocPageAligned (platform : Platform) (size : ℕ) : Except Error ℕ :=
  if size = 0 then
    .error (.generic "Invalid size")
  else if platform.pageSize < 0 then
    .error (.generic platform.lastOsError)
  else
    match layoutFromSizeAlign size platform.pageSize.toNat with
    | none => .error (.generic "Invalid layout")
    | some layout =>
        let ptr := platform.alloc layout.1 layout.2
        if ptr = 0 then .error (.generic "Allocation failed") else .ok ptr

structure UmemArea where
  mem : ℕ
  size : ℕ

def UmemArea.new (platform : Platform) (packetBufferSize : ℕ) : Except Error UmemArea :=
  match allocPageAligned platform packetBufferSize with
  | .error error => .error error
  | .ok packetBuffer => .ok ⟨packetBuffer, packetBufferSize⟩

/-- The size that `Sock::create` passes to `UmemArea::new`. -/
def AfXdpFlags.umemBytesLen (flags : AfXdpFlags) : ℕ := (flags.numFrames * flags.frameSize).toNat

/-- The frames at the addresses that `Sock::create` pushes lie in the area, do not overlap, and
can be named with 32 bits, as `alloc_frame` does. -/
structure InRange (flags : AfXdpFlags) (area : UmemArea) : Prop where
  inside : ∀ addr ∈ Sock.frameAddresses flags, addr + flags.frameSize.toNat ≤ area.size
  apart : (Sock.frameAddresses flags).Pairwise fun addr other =>
    addr + flags.frameSize.toNat ≤ other ∨ other + flags.frameSize.toNat ≤ addr
  unchanged : ∀ addr ∈ Sock.frameAddresses flags, (UInt32.ofNat addr).toNat = addr

variable {flags : AfXdpFlags} {platform : Platform} {area : UmemArea}

theorem UmemArea.new_cases {packetBufferSize : ℕ}
    (passed : UmemArea.new platform packetBufferSize = .ok area) :
    area.size = packetBufferSize ∧ packetBufferSize ≠ 0 := by
  simp only [UmemArea.new] at passed
  split at passed
  · simp at passed
  · rename_i allocated
    simp only [Except.ok.injEq] at passed
    subst passed
    refine ⟨rfl, ?_⟩
    intro zero
    simp [allocPageAligned, zero] at allocated

theorem Sock.mem_frameAddresses {addr : ℕ} :
    addr ∈ frameAddresses flags ↔
      ∃ position < flags.numFrames.toNat, position * flags.frameSize.toNat = addr := by
  simp [frameAddresses]

theorem Sock.frameAddresses_apart (flags : AfXdpFlags) :
    (frameAddresses flags).Pairwise fun addr other => addr + flags.frameSize.toNat ≤ other := by
  rw [frameAddresses, List.pairwise_map]
  apply List.Pairwise.imp _ List.pairwise_lt_range
  intro position other before
  rw [← Nat.succ_mul]
  exact Nat.mul_le_mul_right _ before

theorem UmemArea.size_eq (passed : UmemArea.new platform flags.umemBytesLen = .ok area) :
    area.size = flags.umemLen % 2 ^ 32 :=
  (UmemArea.new_cases passed).1.trans (UInt32.toNat_mul _ _)

/-- The last frame ends where the frames would end without the limit of 32 bits. -/
theorem InRange.umemLen_le (inRange : InRange flags area)
    (some_frames : 0 < flags.numFrames.toNat) : flags.umemLen ≤ area.size := by
  have last : (flags.numFrames.toNat - 1) * flags.frameSize.toNat ∈ Sock.frameAddresses flags :=
    Sock.mem_frameAddresses.mpr ⟨_, by omega, rfl⟩
  have inside := inRange.inside _ last
  rw [← Nat.succ_mul, Nat.succ_eq_add_one, Nat.sub_add_cancel some_frames] at inside
  exact inside

theorem inRange_of_le (small : flags.umemLen < 2 ^ 32) (positive : 0 < flags.frameSize.toNat)
    (size_eq : area.size = flags.umemLen) : InRange flags area := by
  refine ⟨?_, ?_, ?_⟩
  · intro addr member
    rcases Sock.mem_frameAddresses.mp member with ⟨position, before, rfl⟩
    rw [size_eq, ← Nat.succ_mul]
    exact Nat.mul_le_mul_right _ before
  · apply (Sock.frameAddresses_apart flags).imp
    intro addr other apart
    exact Or.inl apart
  · intro addr member
    rw [UInt32.toNat_ofNat']
    apply Nat.mod_eq_of_lt
    exact (Sock.frameAddresses_lt member positive).trans small

/-- The frames that `Sock::create` cuts from the area are in range exactly when the size of the area
could be computed in 32 bits. -/
theorem inRange_iff_fits
    (passed : UmemArea.new platform flags.umemBytesLen = .ok area) :
    InRange flags area ↔ flags.Fits := by
  have size_eq := UmemArea.size_eq passed
  have positive : 0 < flags.umemLen := by
    have nonzero := (UmemArea.new_cases passed).2
    have size_eq' := (UmemArea.new_cases passed).1
    omega
  constructor
  · intro inRange
    have bound := inRange.umemLen_le (Nat.pos_of_mul_pos_right positive)
    rw [size_eq] at bound
    exact bound.trans_lt (Nat.mod_lt _ (Nat.two_pow_pos 32))
  · intro fits
    have small : flags.umemLen < 2 ^ 32 := fits
    rw [Nat.mod_eq_of_lt small] at size_eq
    exact inRange_of_le small (Nat.pos_of_mul_pos_left positive) size_eq

/-- A system with pages of 4096 bytes that finds memory for every allocation. -/
def pagedPlatform : Platform := ⟨4096, "", fun _ _ => 0x7f0000000000⟩

theorem UmemArea.new_pagedPlatform {size : ℕ} (positive : 0 < size) (small : size < 2 ^ 32) :
    UmemArea.new pagedPlatform size = .ok ⟨0x7f0000000000, size⟩ := by
  have layout : layoutFromSizeAlign size 4096 = some (size, 4096) := by
    rw [layoutFromSizeAlign, if_pos]
    exact ⟨⟨12, rfl⟩, by omega⟩
  have allocated : allocPageAligned pagedPlatform size = .ok 0x7f0000000000 := by
    rw [allocPageAligned, if_neg (Nat.ne_of_gt positive), if_neg (by decide)]
    rw [show pagedPlatform.pageSize.toNat = 4096 from rfl, layout]
    rfl
  rw [UmemArea.new, allocated]

theorem inRange_iff_fits_pages :
    UmemArea.new pagedPlatform (AfXdpFlags.umemBytesLen ⟨2048, 4096⟩) =
        .ok ⟨0x7f0000000000, 8388608⟩ ∧
      InRange ⟨2048, 4096⟩ ⟨0x7f0000000000, 8388608⟩ := by
  have passed : UmemArea.new pagedPlatform (AfXdpFlags.umemBytesLen ⟨2048, 4096⟩) =
      .ok ⟨0x7f0000000000, 8388608⟩ := UmemArea.new_pagedPlatform (by decide) (by decide)
  exact ⟨passed, (inRange_iff_fits passed).mpr (by decide)⟩

/-- For `2 ^ 19` frames of 12288 bytes, 6 GiB, an area of 2 GiB is allocated. -/
theorem wrapped_area_too_small :
    UmemArea.new pagedPlatform (AfXdpFlags.umemBytesLen ⟨524288, 12288⟩) =
        .ok ⟨0x7f0000000000, 2147483648⟩ ∧
      ¬InRange ⟨524288, 12288⟩ ⟨0x7f0000000000, 2147483648⟩ := by
  have passed : UmemArea.new pagedPlatform (AfXdpFlags.umemBytesLen ⟨524288, 12288⟩) =
      .ok ⟨0x7f0000000000, 2147483648⟩ := UmemArea.new_pagedPlatform (by decide) (by decide)
  refine ⟨passed, ?_⟩
  intro inRange
  have member : 524287 * 12288 ∈ Sock.frameAddresses ⟨524288, 12288⟩ :=
    Sock.mem_frameAddresses.mpr ⟨524287, by decide, rfl⟩
  have inside : 524287 * 12288 + 12288 ≤ 2147483648 := inRange.inside _ member
  omega

/-! ## The chunks -/

/-- `struct xdp_umem_reg`, what the kernel is told about the UMEM. -/
structure XdpUmemReg where
  addr : ℕ
  len : ℕ
  chunkSize : UInt32
  headroom : UInt32
  flags : UInt32

/-- The registration in `xsk_umem__create`. -/
def xskUmemCreate (umemArea size : ℕ) (usrConfig : Option XskUmemConfig) : XdpUmemReg :=
  let config := xskSetUmemConfig usrConfig
  ⟨umemArea, size, config.frameSize, config.frameHeadroom, config.flags⟩

def Umem.new (umem : UmemArea) : XdpUmemReg := xskUmemCreate umem.mem umem.size none

/-- What `Umem::new` registers are the chunks that the kernel fills. -/
theorem Umem.chunkSize_eq (umem : UmemArea) : (Umem.new umem).chunkSize.toNat = chunkSize := rfl

/-- The chunk of an address of the fill ring. The kernel rounds the address down. -/
def XdpUmemReg.chunk (reg : XdpUmemReg) (addr : ℕ) : ℕ :=
  addr / reg.chunkSize.toNat * reg.chunkSize.toNat

/-- The frames that `Sock::create` pushes are in chunks of their own, and each chunk lies in the
frame that names it. After `alloc_frame` has converted the addresses to 32 bits, no two of them make
the kernel write to the same chunk. -/
structure OwnChunks (flags : AfXdpFlags) (reg : XdpUmemReg) : Prop where
  different : (Sock.frameAddresses flags).Pairwise fun addr other =>
    reg.chunk addr ≠ reg.chunk other
  inside : ∀ addr ∈ Sock.frameAddresses flags,
    addr ≤ reg.chunk addr ∧ reg.chunk addr + reg.chunkSize.toNat ≤ addr + flags.frameSize.toNat
  filled : (Sock.frameAddresses flags).Pairwise fun addr other =>
    reg.chunk (UInt32.ofNat addr).toNat ≠ reg.chunk (UInt32.ofNat other).toNat

theorem XdpUmemReg.chunk_le (reg : XdpUmemReg) (addr : ℕ) : reg.chunk addr ≤ addr :=
  Nat.div_mul_le_self addr _

theorem XdpUmemReg.chunk_eq_iff (reg : XdpUmemReg) (addr : ℕ) :
    reg.chunk addr = addr ↔ reg.chunkSize.toNat ∣ addr := by
  constructor
  · intro same
    exact ⟨_, ((Nat.mul_comm _ _).trans same).symm⟩
  · exact Nat.div_mul_cancel

theorem Umem.chunk_of_dvd {umem : UmemArea} {addr : ℕ} (aligned : 4096 ∣ addr) :
    (Umem.new umem).chunk addr = addr :=
  ((Umem.new umem).chunk_eq_iff addr).mpr aligned

/-- Multiples of a number that a power of two of them does not take around the modulus are
different. -/
theorem eq_of_mul_modEq {count factor bits first second : ℕ} (power : count.isPowerOfTwo)
    (nonzero : count * factor % 2 ^ bits ≠ 0) (first_lt : first < count)
    (second_lt : second < count) (same : first * factor ≡ second * factor [MOD 2 ^ bits]) :
    first = second := by
  rcases power with ⟨order, rfl⟩
  rcases (Nat.dvd_prime_pow Nat.prime_two).mp (Nat.gcd_dvd_left (2 ^ bits) factor) with
    ⟨shared, shared_le, gcd_eq⟩
  have cancelled := same.cancel_right_div_gcd (Nat.two_pow_pos bits)
  rw [gcd_eq, Nat.pow_div shared_le Nat.two_pos] at cancelled
  have small : 2 ^ order ≤ 2 ^ (bits - shared) := by
    by_contra large
    have order_ge : bits - shared ≤ order :=
      (Nat.pow_lt_pow_iff_right Nat.one_lt_two).mp (Nat.lt_of_not_le large) |>.le
    apply nonzero
    apply Nat.mod_eq_zero_of_dvd
    have split : 2 ^ bits = 2 ^ (bits - shared) * 2 ^ shared := by
      rw [← Nat.pow_add, Nat.sub_add_cancel shared_le]
    rw [split]
    apply Nat.mul_dvd_mul (Nat.pow_dvd_pow 2 order_ge)
    rw [← gcd_eq]
    exact Nat.gcd_dvd_right _ _
  exact cancelled.eq_of_lt_of_lt (first_lt.trans_le small) (second_lt.trans_le small)

variable {index : UInt32} {site : Site} {sock : Sock}

theorem Sock.pairwise_frameAddresses {relation : ℕ → ℕ → Prop}
    (related : ∀ first second, first < flags.numFrames.toNat → second < flags.numFrames.toNat →
      first ≠ second → relation (first * flags.frameSize.toNat) (second * flags.frameSize.toNat)) :
    (frameAddresses flags).Pairwise relation := by
  rw [frameAddresses, List.pairwise_map]
  apply List.Pairwise.imp_of_mem _ (List.nodup_range (n := flags.numFrames.toNat))
  intro first second first_mem second_mem different
  exact related first second (List.mem_range.mp first_mem) (List.mem_range.mp second_mem) different

theorem OwnChunks.frameSize_ge {umem : UmemArea} (own : OwnChunks flags (Umem.new umem))
    (some_frames : 0 < flags.numFrames.toNat) : 4096 ≤ flags.frameSize.toNat := by
  have first := own.inside 0 (Sock.mem_frameAddresses.mpr ⟨0, some_frames, Nat.zero_mul _⟩)
  rw [Umem.chunkSize_eq, chunkSize_eq] at first
  omega

/-- The second frame has to begin at a chunk. -/
theorem OwnChunks.aligned {umem : UmemArea} (own : OwnChunks flags (Umem.new umem))
    (several : 1 < flags.numFrames.toNat) : 4096 ∣ flags.frameSize.toNat := by
  have second := own.inside flags.frameSize.toNat
    (Sock.mem_frameAddresses.mpr ⟨1, several, Nat.one_mul _⟩)
  apply ((Umem.new umem).chunk_eq_iff _).mp
  exact Nat.le_antisymm (XdpUmemReg.chunk_le _ _) second.1

/-- Frames that begin at chunks are chunks of their own. The number of frames is a power of two, so
this stays true of the addresses without their upper halves. -/
theorem ownChunks_of_aligned (umem : UmemArea) (fits : 4096 ≤ flags.frameSize.toNat)
    (power : flags.numFrames.toNat.isPowerOfTwo) (nonempty : flags.numFrames * flags.frameSize ≠ 0)
    (multiple : ∀ position < flags.numFrames.toNat, 4096 ∣ position * flags.frameSize.toNat) :
    OwnChunks flags (Umem.new umem) := by
  refine ⟨?_, ?_, ?_⟩
  · apply Sock.pairwise_frameAddresses
    intro first second first_lt second_lt different
    rw [Umem.chunk_of_dvd (multiple first first_lt),
      Umem.chunk_of_dvd (multiple second second_lt)]
    intro same
    apply different
    exact Nat.eq_of_mul_eq_mul_right (Nat.lt_of_lt_of_le (by decide) fits) same
  · intro addr member
    rcases Sock.mem_frameAddresses.mp member with ⟨position, before, rfl⟩
    rw [Umem.chunk_of_dvd (multiple position before)]
    exact ⟨le_rfl, Nat.add_le_add_left fits _⟩
  · apply Sock.pairwise_frameAddresses
    intro first second first_lt second_lt different
    rw [UInt32.toNat_ofNat', UInt32.toNat_ofNat',
      Umem.chunk_of_dvd ((Nat.dvd_mod_iff (by decide)).mpr (multiple first first_lt)),
      Umem.chunk_of_dvd ((Nat.dvd_mod_iff (by decide)).mpr (multiple second second_lt))]
    intro same
    apply different
    apply eq_of_mul_modEq power _ first_lt second_lt same
    rw [← UInt32.toNat_mul]
    intro zero
    exact nonempty (UInt32.toNat_inj.mp zero)

/-- The frames of a created socket are chunks of their own exactly when a chunk fits a frame and
all the frames begin at a chunk. -/
theorem ownChunks_iff (umem : UmemArea) (created : Sock.create flags index site = some sock) :
    OwnChunks flags (Umem.new umem) ↔
      4096 ≤ flags.frameSize.toNat ∧
        (flags.numFrames.toNat = 1 ∨ 4096 ∣ flags.frameSize.toNat) := by
  rcases Sock.create_cases created with ⟨nonempty, power⟩
  have some_frames := (Sock.positive_of_nonempty nonempty).2
  constructor
  · intro own
    refine ⟨own.frameSize_ge some_frames, ?_⟩
    by_cases single : flags.numFrames.toNat = 1
    · exact Or.inl single
    · exact Or.inr (own.aligned (by omega))
  · rintro ⟨fits, aligned⟩
    apply ownChunks_of_aligned umem fits power nonempty
    intro position before
    rcases aligned with single | aligned
    · rw [show position = 0 by omega, Nat.zero_mul]
      exact Nat.dvd_zero _
    · exact Nat.dvd_mul_left_of_dvd aligned position

theorem ownChunks_iff_4096 :
    ∃ sock, Sock.create ⟨4096, 4096⟩ 0 ⟨0, 0⟩ = some sock ∧
      OwnChunks ⟨4096, 4096⟩ (Umem.new ⟨0x7f0000000000, 16777216⟩) := by
  rcases Sock.create_succeeds 0 ⟨0, 0⟩ (show AfXdpFlags.Fits ⟨4096, 4096⟩ by decide) ⟨12, rfl⟩
    (by decide) (by decide) with ⟨sock, created, -⟩
  exact ⟨sock, created, (ownChunks_iff _ created).mpr ⟨by decide, Or.inr (by decide)⟩⟩

/-- With frames of 2048 bytes, each chunk of the kernel is two frames. -/
theorem smallFrames_share_chunk :
    ∃ sock, Sock.create ⟨4096, 2048⟩ 0 ⟨0, 0⟩ = some sock ∧
      (Umem.new ⟨0x7f0000000000, 8388608⟩).chunk 0 =
        (Umem.new ⟨0x7f0000000000, 8388608⟩).chunk 2048 ∧
      ¬OwnChunks ⟨4096, 2048⟩ (Umem.new ⟨0x7f0000000000, 8388608⟩) := by
  rcases Sock.create_succeeds 0 ⟨0, 0⟩ (show AfXdpFlags.Fits ⟨4096, 2048⟩ by decide) ⟨12, rfl⟩
    (by decide) (by decide) with ⟨sock, created, -⟩
  refine ⟨sock, created, rfl, ?_⟩
  intro own
  have first := own.inside 0 (Sock.mem_frameAddresses.mpr ⟨0, by decide, rfl⟩)
  have chunk_le : 4096 ≤ 2048 := (Nat.le_add_left _ _).trans (first.2.trans_eq (Nat.zero_add _))
  omega

end Nethuns.AfXdp
