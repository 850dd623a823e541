/-
What the guard of `AlephBlockDevice_doAsyncReadWrite` keeps out.

Each loop first cuts `length` back so that `offset + length` does not pass
`members->size`, and only then tests `(offset + length) >= members->size +
BLOCK_SIZE`. After the cut the sum *is* the size (modulo `2^64`), so the test can
no longer see how far past the end the block was: for a size below `2^64 - 4096`
it is never true, and a block that starts beyond the end is transferred with the
length `size - offset`, which wraps to almost `2^64`.

This file settles for which requests every iteration stays inside the disk or
cancels. `loopIssues` describes the calls of both loops at once, `blockSafe_iff`
and its companions are the arithmetic of one iteration, and `staysInside_iff` is
the exact condition.
-/
import XnuQemuTools.BlockDev

set_option autoImplicit false

namespace XnuQemuTools.BlockDev

open Calls Calls.Prog Memory

/-! ## The property -/

/-- The host calls and descriptor copies made so far. Each iteration makes one of
each, so a call that follows `tr` belongs to iteration `transferCount tr / 2`. -/
def transferCount (tr : List (Σ op, BdevRes op)) : ℕ := tr.countP fun e => e.1.isTransfer

/-- The call, made in the iteration of block `k`, stays inside the bounce buffer
and inside that block of a disk of `size` bytes. Nothing here wraps. -/
def InsideBlock (size k : ℕ) : BdevOp → Prop
  | .qc_read_file length offset _ =>
      length.toNat ≤ ALEPH_BDEV_BUFFER_SIZE ∧ offset.toNat = 4096 * k
        ∧ offset.toNat + length.toNat ≤ size
  | .qc_write_file length offset _ =>
      length.toNat ≤ ALEPH_BDEV_BUFFER_SIZE ∧ offset.toNat = 4096 * k
        ∧ offset.toNat + length.toNat ≤ size
  | .readBytes _ length =>
      length.toNat ≤ ALEPH_BDEV_BUFFER_SIZE ∧ 4096 * k + length.toNat ≤ size
  | .writeBytes _ length =>
      length.toNat ≤ ALEPH_BDEV_BUFFER_SIZE ∧ 4096 * k + length.toNat ≤ size
  | _ => True

/-- In every run whose descriptor reports `direction`, every transfer of
iteration `i` stays inside block `block + i`, and `cancel()` is called only
before the transfers of an iteration. -/
def StaysInside (members : AlephBDevMembers) (direction block nblks : UInt64)
    (completion : Option Completion) : Prop :=
  ∀ tr op,
    Issues (doAsyncReadWrite members block nblks completion)
      (⟨.lck_mtx_lock members.lck_mtx, ()⟩ :: ⟨.getDirection, direction⟩ :: tr) op →
    (op.isTransfer → InsideBlock members.size.toNat (block.toNat + transferCount tr / 2) op)
      ∧ (op = .cancel → transferCount tr % 2 = 0)

/-- When that is so. Below `2^64 - 4096` no guard ever fires, and the last block
must start within the file; from there on `members->size + BLOCK_SIZE` wraps and
the first guard fires, unless the first block is the very last of the address
space. -/
def InRange (size block nblks : UInt64) : Prop :=
  nblks = 0
    ∨ (size.toNat < 2 ^ 64 - 4096 ∧ 4096 * (block.toNat + nblks.toNat - 1) ≤ size.toNat)
    ∨ size.toNat = 2 ^ 64 - 4096
    ∨ (2 ^ 64 - 4096 < size.toNat ∧ 4096 * block.toNat % 2 ^ 64 ≠ 2 ^ 64 - 4096)

/-! ## The arithmetic of one iteration -/

theorem toNat_BLOCK_SIZE : BLOCK_SIZE.toNat = 4096 := rfl

/-- The file offset of an iteration, as the code computes it. -/
theorem offset_toNat (i block : UInt64) :
    (BLOCK_SIZE * (i + block)).toNat = 4096 * (block.toNat + i.toNat) % 2 ^ 64 := by
  rw [UInt64.toNat_mul, UInt64.toNat_add, toNat_BLOCK_SIZE]
  omega

theorem blockLength_toNat (size offset : UInt64) :
    (blockLength size offset).toNat
      = if size.toNat < (offset.toNat + 4096) % 2 ^ 64 then
          (2 ^ 64 - offset.toNat + size.toNat) % 2 ^ 64
        else 4096 := by
  unfold blockLength
  simp only [GT.gt, UInt64.lt_iff_toNat_lt, UInt64.toNat_add, toNat_BLOCK_SIZE]
  split
  · rw [UInt64.toNat_sub]
  · rfl

theorem pastEnd_iff (size offset length : UInt64) :
    pastEnd size offset length = true
      ↔ (size.toNat + 4096) % 2 ^ 64 ≤ (offset.toNat + length.toNat) % 2 ^ 64 := by
  unfold pastEnd
  rw [decide_eq_true_iff, GE.ge, UInt64.le_iff_toNat_le, UInt64.toNat_add, UInt64.toNat_add,
    toNat_BLOCK_SIZE]

/-- An iteration that does not cancel transfers inside block `k`. -/
def BlockSafe (size offset : UInt64) (k : ℕ) : Prop :=
  (blockLength size offset).toNat ≤ ALEPH_BDEV_BUFFER_SIZE ∧ offset.toNat = 4096 * k
    ∧ offset.toNat + (blockLength size offset).toNat ≤ size.toNat

/-- Below `2^64 - 4096` the guard is dead: the cut has already made the sum equal
to the size whenever it could have mattered. -/
theorem pastEnd_small {size offset : UInt64} (hsize : size.toNat < 2 ^ 64 - 4096)
    (haligned : offset.toNat % 4096 = 0) :
    pastEnd size offset (blockLength size offset) = false := by
  have ho := offset.toNat_lt
  rw [← Bool.not_eq_true, pastEnd_iff, blockLength_toNat]
  -- cut, the sum is the size; not cut, the block ends by the size: both are below
  -- the size and a block
  split <;> omega

theorem blockSafe_small {size offset : UInt64} {k : ℕ} (hsize : size.toNat < 2 ^ 64 - 4096)
    (hoffset : offset.toNat = 4096 * k % 2 ^ 64) :
    BlockSafe size offset k ↔ 4096 * k ≤ size.toNat := by
  have ho := offset.toNat_lt
  unfold BlockSafe ALEPH_BDEV_BUFFER_SIZE
  rw [blockLength_toNat]
  -- behind the end, the length that is left wraps, and no buffer holds it
  split <;> omega

/-- At `2^64 - 4096` the right-hand side of the guard wraps to 0. -/
theorem pastEnd_exact {size : UInt64} (offset length : UInt64)
    (hsize : size.toNat = 2 ^ 64 - 4096) : pastEnd size offset length = true := by
  rw [pastEnd_iff, hsize]
  omega

/-- Above it, the guard fires for every block but the last of the address space. -/
theorem pastEnd_large {size offset : UInt64} (hsize : 2 ^ 64 - 4096 < size.toNat)
    (haligned : offset.toNat % 4096 = 0) :
    pastEnd size offset (blockLength size offset) = true ↔ offset.toNat ≠ 2 ^ 64 - 4096 := by
  have ho := offset.toNat_lt
  have hs := size.toNat_lt
  rw [pastEnd_iff, blockLength_toNat]
  -- nothing is cut here: the sum is the end of the block, which is 0 for the last one
  split <;> omega

theorem not_blockSafe_large {size offset : UInt64} (k : ℕ) (hsize : 2 ^ 64 - 4096 < size.toNat)
    (hoffset : offset.toNat = 2 ^ 64 - 4096) : ¬ BlockSafe size offset k := by
  have hs := size.toNat_lt
  unfold BlockSafe ALEPH_BDEV_BUFFER_SIZE
  rw [blockLength_toNat]
  -- the last block ends at `2^64`, above every size
  split <;> omega

/-! ## The calls of the two loops

The loops differ in which of their two calls comes first and in which one feeds
`byte_count`. Neither matters here, so both are described by the pair of calls
that iteration `i` makes. -/

/-- The pair of calls of iteration `i` of the read loop. -/
def readPair (members : AlephBDevMembers) (block i : UInt64) : BdevOp × BdevOp :=
  let offset := BLOCK_SIZE * (i + block)
  let length := blockLength members.size offset
  (.qc_read_file length offset members.qc_file_index, .writeBytes (i * BLOCK_SIZE) length)

/-- The pair of calls of iteration `i` of the write loop. -/
def writePair (members : AlephBDevMembers) (block i : UInt64) : BdevOp × BdevOp :=
  let offset := BLOCK_SIZE * (i + block)
  let length := blockLength members.size offset
  (.readBytes (i * BLOCK_SIZE) length, .qc_write_file length offset members.qc_file_index)

/-- The guard of iteration `i`. -/
def guardFires (size block i : UInt64) : Bool :=
  pastEnd size (BLOCK_SIZE * (i + block)) (blockLength size (BLOCK_SIZE * (i + block)))

/-- After `tr`, a loop with `n` iterations left calls `op`: `cancel` if the guard
fires, else its pair of calls and then the rest of the loop. -/
def loopIssues (size block : UInt64) (pair : UInt64 → BdevOp × BdevOp) :
    ℕ → UInt64 → List (Σ op, BdevRes op) → BdevOp → Prop
  | 0, _, _, _ => False
  | n + 1, i, tr, op =>
      if guardFires size block i then tr = [] ∧ op = .cancel
      else
        (tr = [] ∧ op = (pair i).1) ∨ (∃ r, tr = [⟨(pair i).1, r⟩] ∧ op = (pair i).2)
          ∨ ∃ r₁ r₂ tr', tr = ⟨(pair i).1, r₁⟩ :: ⟨(pair i).2, r₂⟩ :: tr'
              ∧ loopIssues size block pair n (i + 1) tr' op

/-- `cancel` is called at once, and nothing follows. -/
theorem issues_cancel {α : Type} (tr : List (Σ op, BdevRes op)) (op : BdevOp) :
    Issues (cancel : BdevProg α) tr op ↔ tr = [] ∧ op = .cancel := by
  unfold cancel
  rw [perform_bind]
  cases tr with
  | nil => rw [issues_call_nil]; exact ⟨fun h => ⟨rfl, h.symm⟩, fun h => h.2.symm⟩
  | cons e tr =>
      rw [issues_call_cons]
      constructor
      · rintro ⟨never, -⟩
        exact never.elim
      · rintro ⟨h, -⟩
        cases h

/-- Two calls in a row, and what comes after them. -/
theorem issues_two {α : Type} {o₁ o₂ : BdevOp} {k : BdevRes o₁ → BdevRes o₂ → BdevProg α}
    (tr : List (Σ op, BdevRes op)) (op : BdevOp) :
    Issues (call o₁ fun r₁ => call o₂ fun r₂ => k r₁ r₂) tr op
      ↔ (tr = [] ∧ op = o₁) ∨ (∃ r, tr = [⟨o₁, r⟩] ∧ op = o₂)
        ∨ ∃ r₁ r₂ tr', tr = ⟨o₁, r₁⟩ :: ⟨o₂, r₂⟩ :: tr' ∧ Issues (k r₁ r₂) tr' op := by
  constructor
  · -- before the first call, between the two, and behind both
    rintro ⟨k', h⟩
    cases h with
    | refl => exact Or.inl ⟨rfl, rfl⟩
    | step h =>
        cases h with
        | refl => exact Or.inr (Or.inl ⟨_, rfl, rfl⟩)
        | step h => exact Or.inr (Or.inr ⟨_, _, _, rfl, k', h⟩)
  · rintro (⟨rfl, rfl⟩ | ⟨r, rfl, rfl⟩ | ⟨r₁, r₂, tr', rfl, k', h⟩)
    · exact ⟨_, Follows.refl _⟩
    · exact ⟨_, (Follows.refl _).step⟩
    · exact ⟨k', h.step.step⟩

theorem readLoop_succ (members : AlephBDevMembers) (block : UInt64) (n : ℕ)
    (i byte_count : UInt64) :
    readLoop members block (n + 1) i byte_count
      = if guardFires members.size block i then cancel
        else
          call (.qc_read_file (blockLength members.size (BLOCK_SIZE * (i + block)))
              (BLOCK_SIZE * (i + block)) members.qc_file_index) fun _ =>
            call (.writeBytes (i * BLOCK_SIZE)
                (blockLength members.size (BLOCK_SIZE * (i + block)))) fun (moved : UInt64) =>
              readLoop members block n (i + 1) (byte_count + moved) := by
  rw [readLoop]
  rfl

theorem writeLoop_succ (members : AlephBDevMembers) (block : UInt64) (n : ℕ)
    (i byte_count : UInt64) :
    writeLoop members block (n + 1) i byte_count
      = if guardFires members.size block i then cancel
        else
          call (.readBytes (i * BLOCK_SIZE)
              (blockLength members.size (BLOCK_SIZE * (i + block)))) fun (moved : UInt64) =>
            call (.qc_write_file (blockLength members.size (BLOCK_SIZE * (i + block)))
                (BLOCK_SIZE * (i + block)) members.qc_file_index) fun _ =>
              writeLoop members block n (i + 1) (byte_count + moved) := by
  rw [writeLoop]
  rfl

theorem issues_readLoop (members : AlephBDevMembers) (block : UInt64) (n : ℕ) :
    ∀ (i byte_count : UInt64) tr op,
      Issues (readLoop members block n i byte_count) tr op
        ↔ loopIssues members.size block (readPair members block) n i tr op := by
  induction n with
  | zero => exact fun i bc tr op => iff_false_intro (issues_ret bc tr op)
  | succ n ih =>
      intro i byte_count tr op
      rw [readLoop_succ, loopIssues]
      split
      · exact issues_cancel tr op
      · rw [issues_two]
        simp only [ih]
        rfl

theorem issues_writeLoop (members : AlephBDevMembers) (block : UInt64) (n : ℕ) :
    ∀ (i byte_count : UInt64) tr op,
      Issues (writeLoop members block n i byte_count) tr op
        ↔ loopIssues members.size block (writePair members block) n i tr op := by
  induction n with
  | zero => exact fun i bc tr op => iff_false_intro (issues_ret bc tr op)
  | succ n ih =>
      intro i byte_count tr op
      rw [writeLoop_succ, loopIssues]
      split
      · exact issues_cancel tr op
      · rw [issues_two]
        simp only [ih]
        rfl

/-! ## One iteration more -/

/-- The two calls of every iteration are transfers, and staying inside block `k`
is what `BlockSafe` says of the iteration's offset. -/
structure PairFits (size block : UInt64) (pair : UInt64 → BdevOp × BdevOp) : Prop where
  fst : ∀ i, (pair i).1.isTransfer = true
  snd : ∀ i, (pair i).2.isTransfer = true
  inside : ∀ i k, InsideBlock size.toNat k (pair i).1 ∧ InsideBlock size.toNat k (pair i).2
    ↔ BlockSafe size (BLOCK_SIZE * (i + block)) k

theorem readPair_fits (members : AlephBDevMembers) (block : UInt64) :
    PairFits members.size block (readPair members block) where
  fst _ := rfl
  snd _ := rfl
  inside i k := by
    constructor
    · exact fun h => h.1
    · intro h
      exact ⟨h, h.1, h.2.1 ▸ h.2.2⟩

theorem writePair_fits (members : AlephBDevMembers) (block : UInt64) :
    PairFits members.size block (writePair members block) where
  fst _ := rfl
  snd _ := rfl
  inside i k := by
    constructor
    · exact fun h => h.2
    · intro h
      exact ⟨⟨h.1, h.2.1 ▸ h.2.2⟩, h⟩

/-- `StaysInside` for a loop with `n` iterations left, the next of block
`block + i`. -/
def LoopStays (size block : UInt64) (pair : UInt64 → BdevOp × BdevOp) (n : ℕ) (i : UInt64) : Prop :=
  ∀ tr op, loopIssues size block pair n i tr op →
    (op.isTransfer → InsideBlock size.toNat (block.toNat + i.toNat + transferCount tr / 2) op)
      ∧ (op = .cancel → transferCount tr % 2 = 0)

theorem transferCount_cons {o : BdevOp} (r : BdevRes o) (tr : List (Σ op, BdevRes op))
    (h : o.isTransfer = true) : transferCount (⟨o, r⟩ :: tr) = transferCount tr + 1 := by
  simp [transferCount, h]

/-- A transfer comes back with some answer. -/
theorem BdevOp.answers {o : BdevOp} (h : o.isTransfer = true) : Nonempty (BdevRes o) := by
  cases o with
  | qc_read_file | qc_write_file => exact ⟨(0 : Int64)⟩
  | readBytes | writeBytes => exact ⟨(0 : UInt64)⟩
  | _ => cases h

theorem ne_cancel_of_isTransfer {op : BdevOp} (h : op.isTransfer = true) : op ≠ .cancel := by
  rintro rfl
  cases h

theorem loopStays_zero (size block : UInt64) (pair : UInt64 → BdevOp × BdevOp) (i : UInt64) :
    LoopStays size block pair 0 i := fun _ _ h => h.elim

theorem toNat_succ {i : UInt64} (hi : i.toNat + 1 < 2 ^ 64) : (i + 1).toNat = i.toNat + 1 := by
  rw [UInt64.toNat_add]
  exact Nat.mod_eq_of_lt hi

theorem loopStays_succ {size block : UInt64} {pair : UInt64 → BdevOp × BdevOp}
    (hpair : PairFits size block pair) (n : ℕ) (i : UInt64) (hi : i.toNat + 1 < 2 ^ 64) :
    LoopStays size block pair (n + 1) i
      ↔ guardFires size block i = true
        ∨ (BlockSafe size (BLOCK_SIZE * (i + block)) (block.toNat + i.toNat)
            ∧ LoopStays size block pair n (i + 1)) := by
  unfold LoopStays
  simp only [loopIssues]
  by_cases hg : guardFires size block i = true
  · simp only [hg, if_true, true_or, iff_true]
    rintro tr op ⟨rfl, rfl⟩
    exact ⟨fun h => absurd h (by decide), fun _ => by decide⟩
  · simp only [hg, Bool.false_eq_true, if_false, false_or]
    -- the later calls are reached only if the earlier ones are answered
    obtain ⟨a₁⟩ := BdevOp.answers (hpair.fst i)
    obtain ⟨a₂⟩ := BdevOp.answers (hpair.snd i)
    have hone : ∀ r, transferCount [⟨(pair i).1, r⟩] = 1 :=
      fun r => transferCount_cons r [] (hpair.fst i)
    have htwo : ∀ r₁ r₂ tr, transferCount (⟨(pair i).1, r₁⟩ :: ⟨(pair i).2, r₂⟩ :: tr)
        = transferCount tr + 2 := by
      intro r₁ r₂ tr
      rw [transferCount_cons _ _ (hpair.fst i), transferCount_cons _ _ (hpair.snd i)]
    -- the block of a call two calls later is the next block
    have hblock : ∀ m, block.toNat + i.toNat + (m + 2) / 2
        = block.toNat + (i + 1).toNat + m / 2 := by
      intro m
      rw [toNat_succ hi]
      omega
    constructor
    · intro h
      refine ⟨(hpair.inside i _).mp ⟨?_, ?_⟩, ?_⟩
      · exact (h [] (pair i).1 (Or.inl ⟨rfl, rfl⟩)).1 (hpair.fst i)
      · have h2 := (h _ (pair i).2 (Or.inr (Or.inl ⟨a₁, rfl, rfl⟩))).1 (hpair.snd i)
        rwa [hone] at h2
      · intro tr op hop
        have h2 := h _ op (Or.inr (Or.inr ⟨a₁, a₂, tr, rfl, hop⟩))
        rw [htwo, hblock] at h2
        exact ⟨h2.1, fun hc => by have := h2.2 hc; omega⟩
    · rintro ⟨hsafe, hrest⟩ tr op (⟨rfl, rfl⟩ | ⟨r, rfl, rfl⟩ | ⟨r₁, r₂, tr', rfl, hop⟩)
      · exact ⟨fun _ => ((hpair.inside i _).mpr hsafe).1,
          fun hc => absurd hc (ne_cancel_of_isTransfer (hpair.fst i))⟩
      · rw [hone]
        exact ⟨fun _ => ((hpair.inside i _).mpr hsafe).2,
          fun hc => absurd hc (ne_cancel_of_isTransfer (hpair.snd i))⟩
      · have h2 := hrest tr' op hop
        rw [htwo, hblock]
        exact ⟨h2.1, fun hc => by have := h2.2 hc; omega⟩

/-! ## The whole loop -/

theorem offset_aligned (i block : UInt64) : (BLOCK_SIZE * (i + block)).toNat % 4096 = 0 := by
  rw [offset_toNat]
  omega

/-- Below `2^64 - 4096` the loop stays inside exactly when its last block starts
within the file. -/
theorem loopStays_small {size block : UInt64} {pair : UInt64 → BdevOp × BdevOp}
    (hpair : PairFits size block pair) (hsize : size.toNat < 2 ^ 64 - 4096) (n : ℕ) :
    ∀ i : UInt64, i.toNat + n < 2 ^ 64 →
      (LoopStays size block pair n i
        ↔ n = 0 ∨ 4096 * (block.toNat + i.toNat + n - 1) ≤ size.toNat) := by
  induction n with
  | zero => exact fun i _ => iff_of_true (loopStays_zero size block pair i) (Or.inl rfl)
  | succ n ih =>
      intro i hi
      have hguard : guardFires size block i = false := pastEnd_small hsize (offset_aligned i block)
      have hsucc : (i + 1).toNat = i.toNat + 1 := toNat_succ (by omega)
      -- the guard is out of the way, and the last block starts furthest in
      rw [loopStays_succ hpair n i (by omega), ih (i + 1) (by omega), hguard, hsucc,
        blockSafe_small hsize (offset_toNat i block)]
      simp only [Bool.false_eq_true, false_or, Nat.succ_ne_zero]
      omega

/-- From `2^64 - 4096` on the first iteration decides. -/
theorem loopStays_first {size block : UInt64} {pair : UInt64 → BdevOp × BdevOp}
    (hpair : PairFits size block pair) (hsize : 2 ^ 64 - 4096 ≤ size.toNat) (n : ℕ) :
    LoopStays size block pair (n + 1) 0
      ↔ size.toNat = 2 ^ 64 - 4096 ∨ 4096 * block.toNat % 2 ^ 64 ≠ 2 ^ 64 - 4096 := by
  have hzero : (0 : UInt64).toNat = 0 := rfl
  have hoffset := offset_toNat 0 block
  rw [hzero, Nat.add_zero] at hoffset
  rw [loopStays_succ hpair n 0 (by rw [hzero]; omega), guardFires]
  rcases Nat.lt_or_eq_of_le hsize with hlt | heq
  · rw [pastEnd_large hlt (offset_aligned 0 block), hoffset]
    constructor
    · rintro (h | ⟨hsafe, -⟩)
      · exact Or.inr h
      · exact Or.inr fun hlast => not_blockSafe_large _ hlt (hoffset.trans hlast) hsafe
    · rintro (h | h)
      · omega
      · exact Or.inl h
  · exact iff_of_true (Or.inl (pastEnd_exact _ _ heq.symm)) (Or.inl heq.symm)

theorem loopStays_iff {size block : UInt64} {pair : UInt64 → BdevOp × BdevOp}
    (hpair : PairFits size block pair) (nblks : UInt64) :
    LoopStays size block pair nblks.toNat 0 ↔ InRange size block nblks := by
  have hn := nblks.toNat_lt
  have hzero : nblks = 0 ↔ nblks.toNat = 0 := UInt64.toNat_inj.symm
  unfold InRange
  rcases Nat.lt_or_ge size.toNat (2 ^ 64 - 4096) with hsmall | hlarge
  · have h0 : (0 : UInt64).toNat = 0 := rfl
    rw [loopStays_small hpair hsmall nblks.toNat 0 (by rw [h0]; omega), h0, hzero]
    omega
  · rw [hzero]
    rcases hcases : nblks.toNat with - | n
    · exact iff_of_true (loopStays_zero size block pair 0) (Or.inl rfl)
    · rw [loopStays_first hpair hlarge n]
      omega

/-! ## The whole request -/

/-- The calls of a request after the lock is taken and the direction is known:
those of the transfer, and then two that touch no data. -/
theorem staysInside_iff_loopStays {members : AlephBDevMembers} {direction block nblks : UInt64}
    {completion : Option Completion} (pair : UInt64 → BdevOp × BdevOp)
    (hloop : ∀ tr op, Issues (transfer members block nblks direction) tr op
      ↔ loopIssues members.size block pair nblks.toNat 0 tr op) :
    StaysInside members direction block nblks completion
      ↔ LoopStays members.size block pair nblks.toNat 0 := by
  have hzero : (0 : UInt64).toNat = 0 := rfl
  -- the lock and the direction come first, whatever follows
  have hbody : ∀ tr op,
      Issues (doAsyncReadWrite members block nblks completion)
          (⟨.lck_mtx_lock members.lck_mtx, ()⟩ :: ⟨.getDirection, direction⟩ :: tr) op
        ↔ Issues (transfer members block nblks direction >>= fun byte_count =>
            complete completion byte_count >>= fun _ =>
              call (.lck_mtx_unlock members.lck_mtx) fun _ => ret (0 : UInt64)) tr op := by
    intro tr op
    constructor
    · rintro ⟨k, h⟩
      cases h with
      | step h =>
          cases h with
          | step h => exact ⟨k, h⟩
    · rintro ⟨k, h⟩
      exact ⟨k, h.step.step⟩
  unfold StaysInside LoopStays
  simp only [hbody, issues_bind, hloop, hzero, Nat.add_zero]
  constructor
  · exact fun h tr op hop => h tr op (Or.inl hop)
  · rintro h tr op (hop | ⟨byte_count, tr₁, tr₂, rfl, -, hop⟩)
    · exact h tr op hop
    · -- the completion call and the unlock
      have hlast : op.isTransfer = false ∧ op ≠ .cancel := by
        rcases hop with hop | ⟨-, tr₃, tr₄, -, -, hop⟩
        · cases completion with
          | none => exact absurd hop (issues_ret _ _ _)
          | some c =>
              obtain ⟨k, hop⟩ := hop
              cases hop with
              | refl => exact ⟨rfl, by simp⟩
              | step hop => cases hop
        · obtain ⟨k, hop⟩ := hop
          cases hop with
          | refl => exact ⟨rfl, by simp⟩
          | step hop => cases hop
      exact ⟨fun ht => absurd ht (by simp [hlast.1]), fun hc => absurd hc hlast.2⟩

/-- **When a request stays inside the disk.** For both directions, every device
size, block number and block count: exactly when `InRange` holds. -/
theorem staysInside_iff (members : AlephBDevMembers) (direction block nblks : UInt64)
    (completion : Option Completion)
    (hdir : direction = kIODirectionIn ∨ direction = kIODirectionOut) :
    StaysInside members direction block nblks completion
      ↔ InRange members.size block nblks := by
  rcases hdir with rfl | rfl
  · rw [staysInside_iff_loopStays (readPair members block) (fun tr op => ?_)]
    · exact loopStays_iff (readPair_fits members block) nblks
    · exact issues_readLoop members block nblks.toNat 0 0 tr op
  · rw [staysInside_iff_loopStays (writePair members block) (fun tr op => ?_)]
    · exact loopStays_iff (writePair_fits members block) nblks
    · exact issues_writeLoop members block nblks.toNat 0 0 tr op

/-- A disk of one block. -/
def oneBlockDisk : AlephBDevMembers where
  mtx_grp := 1
  lck_mtx := 2
  size := 4096
  block_count := 1
  qc_file_index := 0
  vendor_name := []
  product_name := []
  mutex_name := []

theorem staysInside_oneBlockDisk : StaysInside oneBlockDisk kIODirectionIn 0 1 none :=
  (staysInside_iff oneBlockDisk kIODirectionIn 0 1 none (Or.inl rfl)).mpr
    (Or.inr (Or.inl (by decide)))

/-- Reading block 2 of a disk of one block: the guard lets it pass, and the host
is asked for `2^64 - 4096` bytes at offset 8192, into a buffer of 4096. -/
theorem oneBlockDisk_overrun :
    Issues (doAsyncReadWrite oneBlockDisk 2 1 none)
        [⟨.lck_mtx_lock 2, ()⟩, ⟨.getDirection, kIODirectionIn⟩]
        (.qc_read_file 18446744073709547520 8192 0)
      ∧ ¬ StaysInside oneBlockDisk kIODirectionIn 2 1 none := by
  have hcall : Issues (doAsyncReadWrite oneBlockDisk 2 1 none)
      [⟨.lck_mtx_lock 2, ()⟩, ⟨.getDirection, kIODirectionIn⟩]
      (.qc_read_file 18446744073709547520 8192 0) := ⟨_, (Follows.refl _).step.step⟩
  exact ⟨hcall, fun h => absurd ((h [] _ hcall).1 rfl).1 (by decide)⟩

end XnuQemuTools.BlockDev
