/-
The block device is a byte array.

`apply` and `reply` say what a request is for, with no block, no bounce buffer
and no loop in sight: a write puts the first bytes of its descriptor at its place
in the file, a read puts the bytes at its place in the file into its descriptor.
`extent` is how many bytes that is, and it is where a file whose size is not a
multiple of the block size shows: the last block holds fewer.

`loop_exec` is the rule for the loops, and `readLoop_exec` and `writeLoop_exec` are its
invariants here. After `n` iterations the copies through the bounce buffer amount to
one copy of `extent` bytes (`copy_through` for the two halves of an iteration,
`copy_extent` for the next one), so file offset, descriptor offset and clamped length
line up in every iteration. `device_refines_bytes` carries this over a whole sequence
of requests.
-/
import XnuQemuTools.BlockDevGeometry
import XnuQemuTools.Monitor
import Mathlib.Data.List.Induction

set_option autoImplicit false

namespace XnuQemuTools.BlockDev

open Calls Calls.Prog Memory Monitor

/-! ## What a request is for -/

/-- A request: what `doAsyncReadWrite` is called with. -/
structure Request where
  write : Bool
  block : UInt64
  nblks : UInt64
  completion : Option Completion
  desc : Mem

/-- How many bytes of a file of `s` bytes lie in blocks `[b, b + n)`. -/
def extent (s b n : ℕ) : ℕ := min (4096 * (b + n)) s - 4096 * b

namespace Request

/-- The direction its descriptor reports. -/
def direction (r : Request) : UInt64 := if r.write then kIODirectionOut else kIODirectionIn

/-- The request before its first call. -/
def client (r : Request) : Client := ⟨r.desc, r.direction, []⟩

/-- The driver's code for it. -/
def prog (members : AlephBDevMembers) (r : Request) : BdevProg UInt64 :=
  doAsyncReadWrite members r.block r.nblks r.completion

/-- Its first byte in the file. -/
def first (r : Request) : ℕ := 4096 * r.block.toNat

/-- How many bytes it moves. -/
def bytes (s : ℕ) (r : Request) : ℕ := extent s r.block.toNat r.nblks.toNat

/-- At least one block, and all of them in `0..reportMaxValidBlock`. -/
def Valid (members : AlephBDevMembers) (r : Request) : Prop :=
  1 ≤ r.nblks.toNat
    ∧ r.block.toNat + r.nblks.toNat - 1 ≤ (reportMaxValidBlock members).toNat

/-- Every block it asks for starts within a file of `s` bytes. -/
def InFile (s : ℕ) (r : Request) : Prop :=
  r.nblks.toNat = 0 ∨ 4096 * (r.block.toNat + r.nblks.toNat - 1) < s

/-- The file afterwards. -/
def apply (s : ℕ) (file : Mem) (r : Request) : Mem :=
  if r.write then copy file r.first r.desc 0 (r.bytes s) else file

/-- The descriptor afterwards, for a request that finds `file`. -/
def reply (s : ℕ) (file : Mem) (r : Request) : Mem :=
  if r.write then r.desc else copy r.desc 0 file r.first (r.bytes s)

/-- The completion calls it makes: one if it has a completion, with status 0 and
the bytes it moved. -/
def completions (s : ℕ) (r : Request) : List BdevOp :=
  match r.completion with
  | none => []
  | some c => [.completionAction c.action c.target c.parameter 0 (UInt64.ofNat (r.bytes s))]

/-- A finished request: the right descriptor, and its calls in the right order.
The completion comes after the last of the `2 * nblks` transfers. -/
structure Answered (members : AlephBDevMembers) (s : ℕ) (file : Mem) (r : Request) (c : Client) :
    Prop where
  desc : c.desc = r.reply s file
  calls : ∃ moves, moves.length = 2 * r.nblks.toNat ∧ (∀ op ∈ moves, op.isTransfer = true)
    ∧ c.calls = [.lck_mtx_lock members.lck_mtx, .getDirection] ++ moves ++ r.completions s
        ++ [.lck_mtx_unlock members.lck_mtx]

/-- The byte at `a` of the file is one this request writes. -/
def covers (s : ℕ) (r : Request) (a : ℕ) : Bool :=
  r.write && decide (r.first ≤ a) && decide (a < r.first + r.bytes s)

end Request

/-- The file after some requests. -/
def replay (s : ℕ) (file : Mem) (rs : List Request) : Mem := rs.foldl (Request.apply s) file

/-- The most recent of some requests that wrote byte `a`. -/
def lastWrite (s : ℕ) (rs : List Request) (a : ℕ) : Option Request :=
  rs.reverse.find? fun r => r.covers s a

/-- Byte `a` after some requests: as the most recent write left it. -/
def mostRecent (s : ℕ) (file : Mem) (rs : List Request) (a : ℕ) : UInt8 :=
  match lastWrite s rs a with
  | none => file a
  | some r => r.desc (a - r.first)

theorem apply_eq (s : ℕ) (file : Mem) (r : Request) (a : ℕ) :
    r.apply s file a = if r.covers s a then r.desc (a - r.first) else file a := by
  unfold Request.apply Request.covers
  rcases r.write with - | -
  · rfl
  · simp only [if_true, Bool.true_and, Bool.and_eq_true, decide_eq_true_eq, copy, Nat.zero_add]

/-- Reading the array back byte by byte. -/
theorem replay_eq_mostRecent (s : ℕ) (file : Mem) (rs : List Request) (a : ℕ) :
    replay s file rs a = mostRecent s file rs a := by
  induction rs using List.reverseRecOn with
  | nil => rfl
  | append_singleton rs r ih =>
      have hstep : replay s file (rs ++ [r]) = r.apply s (replay s file rs) := by
        simp only [replay, List.foldl_append, List.foldl_cons, List.foldl_nil]
      -- the last request covers the byte, or leaves it to those before
      rw [hstep, apply_eq, mostRecent, lastWrite, List.reverse_append]
      by_cases hc : r.covers s a
      · simp [hc]
      · simp only [hc, Bool.false_eq_true, if_false, ih]
        simp [hc, mostRecent, lastWrite]

/-! ## One iteration -/

/-- The blocks before one, and that one. -/
theorem extent_last (s b i : ℕ) : extent s b (i + 1) = extent s b i + extent s (b + i) 1 := by
  unfold extent
  omega

theorem extent_le (s b i : ℕ) : extent s b i ≤ s := by
  unfold extent
  omega

@[simp] theorem extent_zero (s k : ℕ) : extent s k 0 = 0 := by
  unfold extent
  omega

/-- Some blocks and the one behind them are one copy: if that one holds anything, the
blocks before it were whole ones. -/
theorem copy_extent (dst : Mem) (d : ℕ) (src : Mem) (a s b i : ℕ) :
    copy (copy dst d src a (extent s b i)) (d + 4096 * i) src (a + 4096 * i) (extent s (b + i) 1)
      = copy dst d src a (extent s b (i + 1)) := by
  rw [extent_last s b i]
  rcases Nat.eq_zero_or_pos (extent s (b + i) 1) with hzero | hpos
  · rw [hzero, copy_zero, Nat.add_zero]
  · have hwhole : extent s b i = 4096 * i := by
      unfold extent at hpos ⊢
      omega
    rw [hwhole, copy_append]

section Loops

variable {members : AlephBDevMembers} {index : UInt64} {s : ℕ}

/-- Everything an iteration computes, when its block starts within the file. -/
structure Iteration (size block i : UInt64) (s : ℕ) : Prop where
  unguarded : guardFires size block i = false
  offset : (BLOCK_SIZE * (i + block)).toNat = 4096 * (block.toNat + i.toNat)
  length : (blockLength size (BLOCK_SIZE * (i + block))).toNat
    = extent s (block.toNat + i.toNat) 1
  fits : fits s (blockLength size (BLOCK_SIZE * (i + block))) (BLOCK_SIZE * (i + block)) = true
  place : (i * BLOCK_SIZE).toNat = 4096 * i.toNat
  small : (blockLength size (BLOCK_SIZE * (i + block))).toNat ≤ ALEPH_BDEV_BUFFER_SIZE

theorem iteration {size block i : UInt64} (hsize : size.toNat = s) (hs : s < 2 ^ 63)
    (hstart : 4096 * (block.toNat + i.toNat) < s) : Iteration size block i s := by
  have hsmall : size.toNat < 2 ^ 64 - 4096 := by omega
  have hoffset := offset_toNat i block
  obtain ⟨hbuf, hexact, hend⟩ := (blockSafe_small hsmall hoffset).mpr (by omega)
  have hlength : (blockLength size (BLOCK_SIZE * (i + block))).toNat
      = extent s (block.toNat + i.toNat) 1 := by
    rw [blockLength_toNat, hexact, hsize]
    unfold extent
    split <;> omega
  refine ⟨pastEnd_small hsmall (offset_aligned i block), hexact, hlength, ?_, ?_, hbuf⟩
  · rw [BlockDev.fits, Bool.and_eq_true, decide_eq_true_iff, decide_eq_true_iff]
    exact ⟨hbuf, hsize ▸ hend⟩
  · -- the block starts within a file below `2^63`, so the product does not wrap
    rw [UInt64.toNat_mul, toNat_BLOCK_SIZE]
    omega

/-- What `n` iterations leave: `bc'` counts the bytes, `moves` are the calls. -/
structure Moved (s k n : ℕ) (bc bc' : UInt64) (moves : List BdevOp) : Prop where
  count : bc'.toNat = bc.toNat + extent s k n
  twice : moves.length = 2 * n
  transfers : ∀ op ∈ moves, op.isTransfer = true

theorem moved_zero (s k : ℕ) (bc : UInt64) : Moved s k 0 bc bc [] where
  count := by rw [extent_zero, Nat.add_zero]
  twice := rfl
  transfers _ h := nomatch h

/-- The count does not wrap: it is at most the size. -/
theorem Moved.succ {k n : ℕ} {bc len : UInt64} {moves : List BdevOp} {o₁ o₂ : BdevOp}
    (h : Moved s k n 0 bc moves) (hs : s < 2 ^ 63) (h₁ : o₁.isTransfer = true)
    (h₂ : o₂.isTransfer = true) (hlen : len.toNat = extent s (k + n) 1) :
    Moved s k (n + 1) 0 (bc + len) (moves ++ [o₁, o₂]) where
  count := by
    have hlast := extent_last s k n
    have hle := extent_le s k (n + 1)
    have hcount : bc.toNat = extent s k n := h.count.trans (Nat.zero_add _)
    rw [UInt64.toNat_add, hlen, hcount, UInt64.toNat_zero]
    omega
  twice := by
    rw [List.length_append, h.twice]
    rfl
  transfers := by
    simp only [List.forall_mem_append, List.forall_mem_cons]
    exact ⟨h.transfers, h₁, h₂, fun _ hop => absurd hop List.not_mem_nil⟩

/-- The rule for both loops, whoever answers their calls. If every iteration keeps `I`,
which speaks of the iterations before it, then the loop ends with `I`. The induction is on
the iterations left. -/
theorem loop_exec {σ : Type} (handler : Handler BdevOp BdevRes σ)
    (loop : ℕ → UInt64 → UInt64 → BdevProg UInt64) {size block : UInt64}
    {I : ℕ → UInt64 → σ → Prop} {total : ℕ} (hsize : size.toNat = s) (hs : s < 2 ^ 63)
    (hlast : total = 0 ∨ 4096 * (block.toNat + total - 1) < s)
    (hzero : ∀ i bc, loop 0 i bc = ret bc)
    (hsucc : ∀ (n : ℕ) (i bc : UInt64) (x : σ), Iteration size block i s → i.toNat < total →
      I i.toNat bc x → ∃ bc' x', exec handler (loop (n + 1) i bc) x
        = exec handler (loop n (i + 1) bc') x' ∧ I (i.toNat + 1) bc' x') (n : ℕ) :
    ∀ (i bc : UInt64) (x : σ), i.toNat + n = total → I i.toNat bc x →
      ∃ bc' x', exec handler (loop n i bc) x = some (bc', x') ∧ I total bc' x' := by
  induction n with
  | zero =>
      intro i bc x htotal h
      rw [Nat.add_zero] at htotal
      exact ⟨bc, x, by rw [hzero, exec_ret], htotal ▸ h⟩
  | succ n ih =>
      intro i bc x htotal h
      have hi : (i + 1).toNat = i.toNat + 1 := toNat_succ (by omega)
      obtain ⟨bc₁, x₁, hiter, hkept⟩ :=
        hsucc n i bc x (iteration hsize hs (by omega)) (by omega) h
      rw [← hi] at hkept
      obtain ⟨bc', x', hrest, hend⟩ := ih (i + 1) bc₁ x₁ (by omega) hkept
      exact ⟨bc', x', hiter.trans hrest, hend⟩

/-- One iteration of the read loop: its two halves are one copy from the file. -/
theorem readLoop_iteration {block i : UInt64} (it : Iteration members.size block i s)
    (hindex : members.qc_file_index = index) (n : ℕ) (bc : UInt64) (p : Part) (c : Client) :
    ∃ buffer,
      exec (serve index s) (readLoop members block (n + 1) i bc) (p, c)
        = exec (serve index s) (readLoop members block n (i + 1)
            (bc + blockLength members.size (BLOCK_SIZE * (i + block)))) (⟨p.file, buffer⟩,
            ⟨copy c.desc (4096 * i.toNat) p.file (4096 * (block.toNat + i.toNat))
              (extent s (block.toNat + i.toNat) 1), c.direction,
              c.calls ++ [(readPair members block i).1, (readPair members block i).2]⟩) := by
  subst hindex
  refine ⟨copy p.buffer 0 p.file (BLOCK_SIZE * (i + block)).toNat
    (blockLength members.size (BLOCK_SIZE * (i + block))).toNat, ?_⟩
  rw [readLoop_succ, it.unguarded, if_neg Bool.false_ne_true,
    exec_call_some (serve_qc_read_file p c it.fits), exec_call_some (serve_writeBytes _ _ it.small)]
  simp only [Client.note, copy_through, it.place, it.offset, it.length, List.append_assoc,
    List.cons_append, List.nil_append, readPair]

/-- **The read loop.** It leaves the file alone and copies the bytes of its blocks
into the descriptor, in order. -/
theorem readLoop_exec (hsize : members.size.toNat = s) (hs : s < 2 ^ 63)
    (hindex : members.qc_file_index = index) (block : UInt64) (n : ℕ)
    (hlast : n = 0 ∨ 4096 * (block.toNat + n - 1) < s) (p : Part) (c : Client) :
    ∃ bc buffer moves,
      exec (serve index s) (readLoop members block n 0 0) (p, c)
          = some (bc, ⟨p.file, buffer⟩,
              ⟨copy c.desc 0 p.file (4096 * block.toNat) (extent s block.toNat n), c.direction,
                c.calls ++ moves⟩)
        ∧ Moved s block.toNat n 0 bc moves := by
  let Copied (i : ℕ) (bc : UInt64) (x : Part × Client) : Prop := ∃ buffer moves,
    x = (⟨p.file, buffer⟩, ⟨copy c.desc 0 p.file (4096 * block.toNat) (extent s block.toNat i),
      c.direction, c.calls ++ moves⟩) ∧ Moved s block.toNat i 0 bc moves
  have hstart : Copied 0 0 (p, c) :=
    ⟨p.buffer, [], by rw [extent_zero, copy_zero, List.append_nil], moved_zero _ _ _⟩
  have hrule := loop_exec (serve index s) (readLoop members block) (I := Copied) hsize hs hlast
    (fun _ _ => rfl) ?_ n 0 0 _ (Nat.zero_add n) hstart
  · obtain ⟨bc, x, hrun, buffer, moves, rfl, hmoved⟩ := hrule
    exact ⟨bc, buffer, moves, hrun, hmoved⟩
  · rintro m i bc _ it - ⟨buffer, moves, rfl, hmoved⟩
    obtain ⟨buffer', hiter⟩ := readLoop_iteration it hindex m bc ⟨p.file, buffer⟩ ⟨_, _, _⟩
    refine ⟨_, _, hiter, buffer', _, ?_, hmoved.succ hs ((readPair_fits members block).fst i)
      ((readPair_fits members block).snd i) it.length⟩
    -- the block goes behind the bytes that are there already
    have hnext := copy_extent c.desc 0 p.file (4096 * block.toNat) s block.toNat i.toNat
    rw [Nat.zero_add, ← Nat.mul_add] at hnext
    rw [hnext, List.append_assoc]

/-- One iteration of the write loop: its two halves are one copy to the file. -/
theorem writeLoop_iteration {block i : UInt64} (it : Iteration members.size block i s)
    (hindex : members.qc_file_index = index) (n : ℕ) (bc : UInt64) (p : Part) (c : Client) :
    ∃ buffer,
      exec (serve index s) (writeLoop members block (n + 1) i bc) (p, c)
        = exec (serve index s) (writeLoop members block n (i + 1)
            (bc + blockLength members.size (BLOCK_SIZE * (i + block))))
            (⟨copy p.file (4096 * (block.toNat + i.toNat)) c.desc (4096 * i.toNat)
              (extent s (block.toNat + i.toNat) 1), buffer⟩,
            ⟨c.desc, c.direction,
              c.calls ++ [(writePair members block i).1, (writePair members block i).2]⟩) := by
  subst hindex
  refine ⟨copy p.buffer 0 c.desc (i * BLOCK_SIZE).toNat
    (blockLength members.size (BLOCK_SIZE * (i + block))).toNat, ?_⟩
  rw [writeLoop_succ, it.unguarded, if_neg Bool.false_ne_true,
    exec_call_some (serve_readBytes p c it.small), exec_call_some (serve_qc_write_file _ _ it.fits)]
  simp only [Client.note, copy_through, it.place, it.offset, it.length, List.append_assoc,
    List.cons_append, List.nil_append, writePair]

/-- **The write loop.** It copies the descriptor, in order, over the bytes of its
blocks and over no other byte of the file. -/
theorem writeLoop_exec (hsize : members.size.toNat = s) (hs : s < 2 ^ 63)
    (hindex : members.qc_file_index = index) (block : UInt64) (n : ℕ)
    (hlast : n = 0 ∨ 4096 * (block.toNat + n - 1) < s) (p : Part) (c : Client) :
    ∃ bc buffer moves,
      exec (serve index s) (writeLoop members block n 0 0) (p, c)
          = some (bc, ⟨copy p.file (4096 * block.toNat) c.desc 0 (extent s block.toNat n),
              buffer⟩, ⟨c.desc, c.direction, c.calls ++ moves⟩)
        ∧ Moved s block.toNat n 0 bc moves := by
  let Copied (i : ℕ) (bc : UInt64) (x : Part × Client) : Prop := ∃ buffer moves,
    x = (⟨copy p.file (4096 * block.toNat) c.desc 0 (extent s block.toNat i), buffer⟩,
      ⟨c.desc, c.direction, c.calls ++ moves⟩) ∧ Moved s block.toNat i 0 bc moves
  have hstart : Copied 0 0 (p, c) :=
    ⟨p.buffer, [], by rw [extent_zero, copy_zero, List.append_nil], moved_zero _ _ _⟩
  have hrule := loop_exec (serve index s) (writeLoop members block) (I := Copied) hsize hs hlast
    (fun _ _ => rfl) ?_ n 0 0 _ (Nat.zero_add n) hstart
  · obtain ⟨bc, x, hrun, buffer, moves, rfl, hmoved⟩ := hrule
    exact ⟨bc, buffer, moves, hrun, hmoved⟩
  · rintro m i bc _ it - ⟨buffer, moves, rfl, hmoved⟩
    obtain ⟨buffer', hiter⟩ := writeLoop_iteration it hindex m bc ⟨_, buffer⟩ ⟨c.desc, _, _⟩
    refine ⟨_, _, hiter, buffer', _, ?_, hmoved.succ hs ((writePair_fits members block).fst i)
      ((writePair_fits members block).snd i) it.length⟩
    -- as in the read loop
    have hnext := copy_extent p.file (4096 * block.toNat) c.desc 0 s block.toNat i.toNat
    rw [Nat.zero_add, ← Nat.mul_add] at hnext
    rw [hnext, List.append_assoc]

end Loops

/-! ## One request -/

/-- What a device whose file has `s` bytes holds. -/
structure Sized (members : AlephBDevMembers) (index : UInt64) (s : ℕ) : Prop where
  bound : s < 2 ^ 63
  size : members.size.toNat = s
  index : members.qc_file_index = index

theorem toNat_toUInt64_ofNat {s : ℕ} (hs : s < 2 ^ 63) : (Int64.ofNat s).toUInt64.toNat = s :=
  Nat.mod_eq_of_lt (show s < 2 ^ 64 by omega)

theorem Made.sized {index : UInt64} {s : ℕ} {members : AlephBDevMembers}
    (h : Made index (Int64.ofNat s) members) (hs : s < 2 ^ 63) : Sized members index s where
  bound := hs
  size := by rw [h.fields.1, toNat_toUInt64_ofNat hs]
  index := h.fields.2.2

theorem Made.maxValidBlock {index : UInt64} {s : ℕ} {members : AlephBDevMembers}
    (h : Made index (Int64.ofNat s) members) (hpos : 0 < s) (hs : s < 2 ^ 63) :
    (reportMaxValidBlock members).toNat = (s - 1) / 4096 := by
  -- rounding `s` up and taking one off is rounding `s - 1` down
  rw [h.toNat_maxValidBlock, toNat_toUInt64_ofNat hs]
  omega

namespace Request

variable {members : AlephBDevMembers} {index : UInt64} {s : ℕ}

/-- The blocks the device reports as valid are those that start within its file. -/
theorem Valid.inFile {r : Request} (h : r.Valid members)
    (hmade : Made index (Int64.ofNat s) members) (hpos : 0 < s) (hs : s < 2 ^ 63) :
    r.InFile s := by
  obtain ⟨hone, hlast⟩ := h
  rw [hmade.maxValidBlock hpos hs] at hlast
  exact Or.inr (by omega)

/-- The two loops behind the direction: the data part of a request. -/
theorem transfer_exec (hm : Sized members index s) {r : Request} (hin : r.InFile s)
    (p : Part) (calls : List BdevOp) :
    ∃ bc buffer moves,
      exec (serve index s) (transfer members r.block r.nblks r.direction)
          (p, ⟨r.desc, r.direction, calls⟩)
        = some (bc, ⟨r.apply s p.file, buffer⟩, ⟨r.reply s p.file, r.direction, calls ++ moves⟩)
        ∧ bc.toNat = r.bytes s ∧ moves.length = 2 * r.nblks.toNat
        ∧ ∀ op ∈ moves, op.isTransfer = true := by
  unfold apply reply direction
  rcases r.write with - | -
  · obtain ⟨bc, buffer, moves, hrun, hmoved⟩ := readLoop_exec hm.size hm.bound hm.index r.block
      r.nblks.toNat hin p ⟨r.desc, kIODirectionIn, calls⟩
    exact ⟨bc, buffer, moves, hrun, hmoved.count.trans (Nat.zero_add _), hmoved.twice,
      hmoved.transfers⟩
  · obtain ⟨bc, buffer, moves, hrun, hmoved⟩ := writeLoop_exec hm.size hm.bound hm.index r.block
      r.nblks.toNat hin p ⟨r.desc, kIODirectionOut, calls⟩
    exact ⟨bc, buffer, moves, hrun, hmoved.count.trans (Nat.zero_add _), hmoved.twice,
      hmoved.transfers⟩

/-- **One request.** It always finishes, turns the file into `r.apply`, and is
answered from the file it found. -/
theorem prog_exec (hm : Sized members index s) {r : Request} (hin : r.InFile s) (p : Part) :
    ∃ buffer c,
      exec (serve index s) (r.prog members) (p, r.client) = some (0, ⟨r.apply s p.file, buffer⟩, c)
        ∧ r.Answered members s p.file c := by
  obtain ⟨bc, buffer, moves, hrun, hcount, htwice, hmoves⟩ := transfer_exec hm hin p
    [.lck_mtx_lock members.lck_mtx, .getDirection]
  have hbc : bc = UInt64.ofNat (r.bytes s) := by rw [← hcount, UInt64.ofNat_toNat]
  refine ⟨buffer, ⟨r.reply s p.file, r.direction, [.lck_mtx_lock members.lck_mtx, .getDirection]
      ++ moves ++ r.completions s ++ [.lck_mtx_unlock members.lck_mtx]⟩, ?_,
    ⟨rfl, moves, htwice, hmoves, rfl⟩⟩
  have hlock : serve index s (.lck_mtx_lock members.lck_mtx) (p, r.client)
      = some ((), p, ⟨r.desc, r.direction, [.lck_mtx_lock members.lck_mtx]⟩) := rfl
  have hdirection : ∀ c, serve index s .getDirection (p, c)
      = some (c.direction, p, c.note .getDirection) := fun c => rfl
  rw [prog, doAsyncReadWrite, perform_bind, perform_bind, exec_call_some hlock,
    exec_call_some (hdirection _)]
  -- behind the transfer, the completion and the unlock
  refine (exec_bind_some hrun).trans ?_
  unfold complete completions
  rw [hbc]
  cases r.completion with
  | none =>
      rw [List.append_nil]
      rfl
  | some completion => rfl

end Request

/-! ## A sequence of requests -/

section Sequence

variable {members : AlephBDevMembers} {index : UInt64} {s : ℕ}

/-- What running the requests one after another leaves: each is answered from the
file as the ones before it left it. -/
theorem serial_requests (hm : Sized members index s) (rs : List Request) :
    ∀ p : Part, (∀ r ∈ rs, r.InFile s) →
      ∃ p' cs,
        serial (serve index s) (rs.map fun r => (r.prog members, r.client)) p = some (p', cs)
          ∧ p'.file = replay s p.file rs ∧ cs.length = rs.length
          ∧ ∀ (k : ℕ) (r : Request) (c : Client), rs[k]? = some r → cs[k]? = some c →
              r.Answered members s (replay s p.file (rs.take k)) c := by
  induction rs with
  | nil => exact fun p _ => ⟨p, [], rfl, rfl, rfl, fun k r c h => by simp at h⟩
  | cons r rs ih =>
      intro p hin
      obtain ⟨hr, hrest⟩ := List.forall_mem_cons.mp hin
      obtain ⟨buffer, c, hrun, hanswered⟩ := Request.prog_exec hm hr p
      obtain ⟨p', cs, hserial, hfile, hlength, hall⟩ := ih ⟨r.apply s p.file, buffer⟩ hrest
      refine ⟨p', c :: cs, ?_, hfile, congrArg (· + 1) hlength, ?_⟩
      · rw [List.map_cons, serial_cons hrun, hserial]
        rfl
      · intro k q d hq hd
        -- the first request finds the file as it was, the others what it has left
        cases k with
        | zero =>
            obtain rfl := Option.some.inj hq
            obtain rfl := Option.some.inj hd
            exact hanswered
        | succ k => exact hall k q d hq hd

/-- **The device is a byte array.** Any valid requests, one after another, all
finish. The file is then the one `replay` computes, each byte as the most recent
write left it; every request is `Answered`, and a read gets the most recent
write at each of its bytes. -/
theorem device_refines_bytes (hpos : 0 < s) (hs : s ≤ 2 ^ 63 - 1)
    (hmade : Made index (Int64.ofNat s) members) (rs : List Request)
    (hvalid : ∀ r ∈ rs, r.Valid members) (p : Part) :
    ∃ p' cs,
      serial (serve index s) (rs.map fun r => (r.prog members, r.client)) p = some (p', cs)
        ∧ p'.file = replay s p.file rs ∧ (∀ a, p'.file a = mostRecent s p.file rs a)
        ∧ cs.length = rs.length
        ∧ ∀ (k : ℕ) (r : Request) (c : Client), rs[k]? = some r → cs[k]? = some c →
            r.Answered members s (replay s p.file (rs.take k)) c
              ∧ (r.write = false → ∀ j < r.bytes s,
                  c.desc j = mostRecent s p.file (rs.take k) (r.first + j)) := by
  obtain ⟨p', cs, hserial, hfile, hlength, hall⟩ :=
    serial_requests (hmade.sized (by omega)) rs p fun r hr =>
      (hvalid r hr).inFile hmade hpos (by omega)
  refine ⟨p', cs, hserial, hfile, fun a => ?_, hlength, fun k r c hr hc => ?_⟩
  · rw [hfile, replay_eq_mostRecent]
  · have hanswered := hall k r c hr hc
    refine ⟨hanswered, fun hread j hj => ?_⟩
    rw [hanswered.desc, Request.reply, hread, if_neg Bool.false_ne_true,
      copy_inside (Nat.zero_le j) (by omega), Nat.sub_zero, replay_eq_mostRecent]

/-- A file of 5000 bytes, so with a short second block: both blocks are written,
and the second one is read back. -/
theorem device_refines_bytes_short :
    ∃ p' cs,
      serial (serve 0 5000)
          ([⟨true, 0, 2, none, fun a => UInt8.ofNat a⟩, ⟨false, 1, 1, none, fun _ => 0⟩].map
            fun r : Request => (r.prog (newDevice 0 (Int64.ofNat 5000) 1 2), r.client))
          ⟨fun _ => 7, fun _ => 0⟩ = some (p', cs)
        ∧ p'.file 4999 = 135 ∧ p'.file 5000 = 7 ∧ ∃ c, cs[1]? = some c ∧ c.desc 903 = 135 := by
  obtain ⟨p', cs, hserial, -, hfile, hlength, hall⟩ :=
    device_refines_bytes (s := 5000) (by decide) (by decide) (newDevice_made 0 _ 1 2)
      [⟨true, 0, 2, none, fun a => UInt8.ofNat a⟩, ⟨false, 1, 1, none, fun _ => 0⟩]
      (by simp [Request.Valid]; decide) ⟨fun _ => 7, fun _ => 0⟩
  have hone : 1 < cs.length := hlength ▸ Nat.one_lt_two
  have hc : cs[1]? = some cs[1] := List.getElem?_eq_getElem hone
  refine ⟨p', cs, hserial, (hfile 4999).trans rfl, (hfile 5000).trans rfl, cs[1], hc, ?_⟩
  exact ((hall 1 _ cs[1] rfl hc).2 rfl 903 (by decide)).trans rfl

end Sequence

end XnuQemuTools.BlockDev
