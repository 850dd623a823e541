/-
The geometry that a device reports.

The number of blocks is the size rounded up, and the last valid block is one less. Both
are computed modulo `2^64`, in two functions. A size of 0 gives no block, and one less
than that is `2^64 - 1`; and for the sizes behind `2^64 - 4096` the rounding itself goes
around and gives no block either. One of these is -1, which is what the host answers for
a file it cannot find. For every other size the reported blocks are those that hold a
byte of the file (`coversFile_iff`).
-/
import XnuQemuTools.BlockDevBounds

set_option autoImplicit false

namespace XnuQemuTools.BlockDev

/-! ## Blocks and bytes -/

/-- Byte `i` of the file is in block `b`. -/
def InBlock (b i : ℕ) : Prop :=
  reportBlockSize.toNat * b ≤ i ∧ i < reportBlockSize.toNat * (b + 1)

/-- The reported blocks are those that start within the file: every byte of the file is
in exactly one of them, and every one has a byte. -/
structure CoversFile (members : AlephBDevMembers) : Prop where
  starts : ∀ b : ℕ, b ≤ (reportMaxValidBlock members).toNat ↔ 4096 * b < members.size.toNat
  bytes : ∀ i < members.size.toNat, ∃! b, b ≤ (reportMaxValidBlock members).toNat ∧ InBlock b i
  inhabited : ∀ b ≤ (reportMaxValidBlock members).toNat, ∃ i < members.size.toNat, InBlock b i

theorem inBlock_iff {b i : ℕ} : InBlock b i ↔ b = i / 4096 := by
  rw [InBlock, reportBlockSize, toNat_BLOCK_SIZE]
  omega

/-- A byte is in one block, so it is the starts that matter. -/
theorem coversFile_of_starts {members : AlephBDevMembers}
    (h : ∀ b : ℕ, b ≤ (reportMaxValidBlock members).toNat ↔ 4096 * b < members.size.toNat) :
    CoversFile members where
  starts := h
  bytes i hi := by
    refine ⟨i / 4096, ⟨(h _).mpr (by omega), inBlock_iff.mpr rfl⟩, ?_⟩
    rintro b ⟨-, hb⟩
    exact inBlock_iff.mp hb
  inhabited b hb := ⟨4096 * b, (h b).mp hb, inBlock_iff.mpr (by omega)⟩

/-! ## The two roundings -/

section Made

variable {index : UInt64} {fileSize : Int64} {members : AlephBDevMembers}
  (h : Made index fileSize members)

include h

theorem Made.toNat_size : members.size.toNat = fileSize.toUInt64.toNat := by
  rw [h.fields.1]

theorem Made.toNat_maxValidBlock : (reportMaxValidBlock members).toNat
    = ((fileSize.toUInt64.toNat + 4095) % 2 ^ 64 / 4096 + (2 ^ 64 - 1)) % 2 ^ 64 := by
  have h1 : (1 : UInt64).toNat = 1 := rfl
  rw [reportMaxValidBlock, h.fields.2.1, blockCount]
  simp only [UInt64.toNat_sub, UInt64.toNat_div, UInt64.toNat_add, toNat_BLOCK_SIZE, h1]
  omega

/-- **When the reported blocks are those of the file**: for every size but 0 and those
behind `2^64 - 4096`. -/
theorem coversFile_iff : CoversFile members
    ↔ 0 < fileSize.toUInt64.toNat ∧ fileSize.toUInt64.toNat ≤ 2 ^ 64 - 4096 := by
  have hsize := h.toNat_size
  have hmax := h.toNat_maxValidBlock
  have hlt := fileSize.toUInt64.toNat_lt
  constructor
  · intro hcovers
    -- block 0 of an empty file, and a block that starts at `2^64`
    have hfirst := hcovers.starts 0
    have hlast := hcovers.starts (2 ^ 52)
    rw [hmax, hsize] at hfirst hlast
    omega
  · rintro ⟨hpos, hle⟩
    refine coversFile_of_starts fun b => ?_
    rw [hmax, hsize]
    omega

end Made

/-- An image of one byte is covered, by block 0. -/
theorem coversFile_oneByte : CoversFile (newDevice 0 1 1 2) :=
  (coversFile_iff (newDevice_made 0 1 1 2)).mpr (by decide)

/-- An empty image, and one that the host cannot find: all blocks there could be are
reported. -/
theorem empty_overstated :
    Made 0 0 (newDevice 0 0 1 2) ∧ reportMaxValidBlock (newDevice 0 0 1 2) = 0xffffffffffffffff
      ∧ ¬ CoversFile (newDevice 0 0 1 2) ∧ Made 0 (-1) (newDevice 0 (-1) 1 2)
      ∧ reportMaxValidBlock (newDevice 0 (-1) 1 2) = 0xffffffffffffffff
      ∧ ¬ CoversFile (newDevice 0 (-1) 1 2) := by
  refine ⟨newDevice_made 0 0 1 2, rfl, fun hcovers => ?_, newDevice_made 0 (-1) 1 2, rfl,
    fun hcovers => ?_⟩
  · exact absurd ((hcovers.starts 0).mp (by decide)) (by decide)
  · exact absurd ((hcovers.starts (2 ^ 52)).mp (by decide)) (by decide)

end XnuQemuTools.BlockDev
