/-
A request whose host calls fail and whose copies fall short.

`serve` moves every length it is given. `faulty` plays a script instead: the results of
the host calls, where a negative one is a failure and moves nothing, and the counts that
the descriptor's `readBytes` and `writeBytes` return, which are what they move. Instead of
bytes it tracks where they come from. `Origin` says who put a byte into the bounce buffer:
an earlier request, or one of the calls of this one.

The driver looks at no result of a host call, and adds up the counts without comparing
them with the length. `Honest` is what a request should then still be able to promise, and
`honest_iff` says for which scripts it holds. Both loops are followed by an invariant over
the iterations so far, `Read` and `Written`, in which the part of `Honest` about the bytes
that moved stands next to the condition on the script for it.
-/
import XnuQemuTools.BlockDevRefine
import Mathlib.Order.MinMax

set_option autoImplicit false

namespace XnuQemuTools.BlockDev

open Calls Calls.Prog

/-! ## Scripts, and what they move -/

/-- Where a byte of the bounce buffer is from. Calls are numbered from 0, separately for
the host and for the descriptor, and iteration `k` makes one of each. -/
inductive Origin where
  | earlier
  | file (k : ℕ)
  | descriptor (k : ℕ)
  deriving DecidableEq

def Origin.isFile : Origin → Bool
  | .file _ => true
  | _ => false

def Origin.isDescriptor : Origin → Bool
  | .descriptor _ => true
  | _ => false

/-- What is known about a request while it runs. `delivered` are the bytes that reached the
descriptor, and `stored` those that reached the file, each with the host call that took it
there. A completion is its status and its count. -/
structure Journal where
  hostCalls : ℕ := 0
  copies : ℕ := 0
  buffer : ℕ → Origin := fun _ => .earlier
  delivered : List Origin := []
  stored : List (ℕ × Origin) := []
  failed : Bool := false
  completions : List (UInt64 × UInt64) := []

/-- A host call that fails. -/
def Journal.fail (j : Journal) : Journal := { j with hostCalls := j.hostCalls + 1, failed := true }

/-- `qc_read_file` of `length` bytes into the buffer. -/
def Journal.fill (j : Journal) (length : ℕ) : Journal :=
  { j with
    hostCalls := j.hostCalls + 1
    buffer := fun a => if a < length then .file j.hostCalls else j.buffer a }

/-- `qc_write_file` of the first `length` bytes of the buffer. -/
def Journal.store (j : Journal) (length : ℕ) : Journal :=
  { j with
    hostCalls := j.hostCalls + 1
    stored := j.stored ++ (List.range length).map fun a => (j.hostCalls, j.buffer a) }

/-- `readBytes` that moves `count` bytes into the buffer. -/
def Journal.gather (j : Journal) (count : ℕ) : Journal :=
  { j with
    copies := j.copies + 1
    buffer := fun a => if a < count then .descriptor j.copies else j.buffer a }

/-- `writeBytes` that moves the first `count` bytes of the buffer. -/
def Journal.deliver (j : Journal) (count : ℕ) : Journal :=
  { j with
    copies := j.copies + 1
    delivered := j.delivered ++ (List.range count).map j.buffer }

/-- The calls of a request whose descriptor has the given direction, answered from the
scripts `host` and `count`. -/
def faulty (host : ℕ → Int64) (count : ℕ → UInt64) (direction : UInt64) :
    Handler BdevOp BdevRes Journal
  | .lck_mtx_lock _, j => some ((), j)
  | .lck_mtx_unlock _, j => some ((), j)
  | .getDirection, j => some (direction, j)
  | .qc_read_file length _ _, j =>
      some (host j.hostCalls, if host j.hostCalls < 0 then j.fail else j.fill length.toNat)
  | .qc_write_file length _ _, j =>
      some (host j.hostCalls, if host j.hostCalls < 0 then j.fail else j.store length.toNat)
  | .readBytes _ _, j => some (count j.copies, j.gather (count j.copies).toNat)
  | .writeBytes _ _, j => some (count j.copies, j.deliver (count j.copies).toNat)
  | .completionAction _ _ _ status byteCount, j =>
      some ((), { j with completions := j.completions ++ [(status, byteCount)] })
  | .cancel, _ => none

/-! ## The promise, and the scripts that keep it -/

/-- How many bytes moved between the file and the descriptor. -/
def Journal.moved (j : Journal) (write : Bool) : ℕ :=
  if write then j.stored.countP (fun b => b.2.isDescriptor)
  else j.delivered.countP Origin.isFile

/-- A request that reports and forwards no bytes it did not move. -/
structure Honest (write : Bool) (j : Journal) : Prop where
  /-- status 0 with count `c` only if no host call failed and `c` bytes moved -/
  completion : ∀ c ∈ j.completions, c.1 = 0 → j.failed = false ∧ c.2.toNat = j.moved write
  /-- what a host call stores was copied from the descriptor in its iteration -/
  stored : write = true → ∀ b ∈ j.stored, b.2 = .descriptor b.1
  /-- what the descriptor gets this request has got from the file -/
  delivered : write = false → ∀ o ∈ j.delivered, ∃ k, o = .file k

/-- The longest block that the first `n` host calls of a read got from the file, where
`b` is the first block and the file has `s` bytes. -/
def filled (s b : ℕ) (host : ℕ → Int64) : ℕ → ℕ
  | 0 => 0
  | n + 1 => if host n < 0 then filled s b host n else max (filled s b host n) (extent s (b + n) 1)

/-- The scripts under which the `n` blocks from `b` on are moved as promised. -/
structure Reliable (s b n : ℕ) (write completes : Bool) (host : ℕ → Int64) (count : ℕ → UInt64) :
    Prop where
  /-- a request that has a completion needs every host call to succeed -/
  succeed : completes = true → ∀ k < n, 0 ≤ host k
  /-- a write that the host does needs its block in full -/
  full : write = true → ∀ k < n, 0 ≤ host k → (count k).toNat = extent s (b + k) 1
  /-- a read needs no more than it has got from the file -/
  got : write = false → ∀ k < n, (count k).toNat ≤ filled s b host (k + 1)

/-- A host that does not fail and a descriptor that is long enough are reliable. -/
theorem reliable_of_full {s b n : ℕ} {write completes : Bool} {host : ℕ → Int64}
    {count : ℕ → UInt64} (hhost : ∀ k < n, 0 ≤ host k)
    (hcount : ∀ k < n, (count k).toNat = extent s (b + k) 1) :
    Reliable s b n write completes host count where
  succeed _ := hhost
  full _ k hk _ := hcount k hk
  got _ k hk := by
    rw [hcount k hk, filled, if_neg (Int64.not_lt.mpr (hhost k hk))]
    exact Nat.le_max_right _ _

section Loops

variable {members : AlephBDevMembers} {s : ℕ} {host : ℕ → Int64} {count : ℕ → UInt64}
  {direction : UInt64}

/-! ## Reading -/

/-- One iteration of a read, with a block of `length` bytes. -/
def readStep (host : ℕ → Int64) (count : ℕ → UInt64) (length : ℕ) (j : Journal) : Journal :=
  (if host j.hostCalls < 0 then j.fail else j.fill length).deliver (count j.copies).toNat

theorem readLoop_faulty {block i : UInt64} (it : Iteration members.size block i s) (n : ℕ)
    (bc : UInt64) (j : Journal) :
    exec (faulty host count direction) (readLoop members block (n + 1) i bc) j
      = exec (faulty host count direction) (readLoop members block n (i + 1)
          (bc + count j.copies)) (readStep host count (extent s (block.toNat + i.toNat) 1) j) := by
  rw [readLoop_succ, it.unguarded, if_neg Bool.false_ne_true, exec_call, ← it.length, readStep]
  by_cases h : host j.hostCalls < 0
  · simp only [faulty, h, if_true, Option.bind_some, exec_call]
    rfl
  · simp only [faulty, h, if_false, Option.bind_some, exec_call]
    rfl

/-- What `i` iterations of a read leave, from block `b`. -/
structure Read (s b i : ℕ) (host : ℕ → Int64) (count : ℕ → UInt64) (bc : UInt64) (j : Journal) :
    Prop where
  hostCalls : j.hostCalls = i
  copies : j.copies = i
  buffer : ∀ a, (∃ k, j.buffer a = .file k) ↔ a < filled s b host i
  failed : j.failed = true ↔ ∃ k < i, host k < 0
  completions : j.completions = []
  short : j.delivered.length ≤ extent s b i
  counted : bc.toNat = j.delivered.length
  delivered : (∀ o ∈ j.delivered, ∃ k, o = .file k) ↔
    ∀ k < i, (count k).toNat ≤ filled s b host (k + 1)

theorem read_zero (s b : ℕ) (host : ℕ → Int64) (count : ℕ → UInt64) :
    Read s b 0 host count 0 {} where
  hostCalls := rfl
  copies := rfl
  buffer a := ⟨fun ⟨_, h⟩ => Origin.noConfusion h, fun h => absurd h (Nat.not_lt_zero a)⟩
  failed := ⟨fun h => Bool.noConfusion h, fun ⟨k, hk, _⟩ => absurd hk (Nat.not_lt_zero k)⟩
  completions := rfl
  short := Nat.zero_le _
  counted := rfl
  delivered :=
    ⟨fun _ k hk => absurd hk (Nat.not_lt_zero k), fun _ _ ho => absurd ho List.not_mem_nil⟩

/-- Counts that stay within the blocks add up without wrapping. -/
theorem counted_add {s b i : ℕ} {bc c : UInt64} (hs : s < 2 ^ 63) (hbc : bc.toNat ≤ extent s b i)
    (hc : c.toNat ≤ extent s (b + i) 1) : (bc + c).toNat = bc.toNat + c.toNat := by
  have hlast := extent_last s b i
  have hle := extent_le s b (i + 1)
  rw [UInt64.toNat_add]
  omega

/-- The host call of a read, whether it succeeds or not. -/
theorem Read.hostCall {b i : ℕ} {bc : UInt64} {j : Journal} (h : Read s b i host count bc j) :
    let j' := if host i < 0 then j.fail else j.fill (extent s (b + i) 1)
    (∀ a, (∃ k, j'.buffer a = .file k) ↔ a < filled s b host (i + 1)) ∧
      (j'.failed = true ↔ ∃ k < i + 1, host k < 0) := by
  rw [Nat.exists_lt_succ_right, filled]
  by_cases hi : host i < 0
  · simp only [if_pos hi]
    exact ⟨h.buffer, iff_of_true rfl (Or.inr hi)⟩
  · simp only [if_neg hi]
    refine ⟨fun a => ?_, ?_⟩
    · rw [Journal.fill, lt_max_iff, ← h.buffer a]
      by_cases ha : a < extent s (b + i) 1
      · simp only [if_pos ha]
        exact iff_of_true ⟨_, rfl⟩ (Or.inr ha)
      · simp only [if_neg ha]
        rw [or_iff_left ha]
    · rw [or_iff_left hi]
      exact h.failed

/-- One more iteration of a read. -/
theorem Read.succ {b i : ℕ} {bc : UInt64} {j : Journal} (h : Read s b i host count bc j)
    (hs : s < 2 ^ 63) (hcount : (count i).toNat ≤ extent s (b + i) 1) :
    Read s b (i + 1) host count (bc + count j.copies)
      (readStep host count (extent s (b + i) 1) j) := by
  obtain ⟨hbuffer, hfailed⟩ := h.hostCall
  have hlast := extent_last s b i
  have hbc := h.counted
  have hshort := h.short
  rw [readStep, h.copies, h.hostCalls]
  generalize hj' : (if host i < 0 then j.fail else j.fill (extent s (b + i) 1)) = j'
    at hbuffer hfailed
  have hsame : j'.hostCalls = j.hostCalls + 1 ∧ j'.copies = j.copies
      ∧ j'.delivered = j.delivered ∧ j'.completions = j.completions := by
    rw [← hj']
    split
    · exact ⟨rfl, rfl, rfl, rfl⟩
    · exact ⟨rfl, rfl, rfl, rfl⟩
  obtain ⟨hcalls, hcopies, hdelivered, hcompletions⟩ := hsame
  rw [h.hostCalls] at hcalls
  rw [h.copies] at hcopies
  rw [h.completions] at hcompletions
  have hlength : (j'.delivered ++ (List.range (count i).toNat).map j'.buffer).length
      = j.delivered.length + (count i).toNat := by
    rw [hdelivered, List.length_append, List.length_map, List.length_range]
  refine ⟨hcalls, congrArg (· + 1) hcopies, hbuffer, hfailed, hcompletions, ?_, ?_, ?_⟩
  · rw [Journal.deliver, hlength]
    omega
  · rw [Journal.deliver, hlength, counted_add hs (by omega) hcount, hbc]
  · -- what was delivered before, and the first bytes of the buffer
    rw [Journal.deliver, hdelivered, List.forall_mem_append, h.delivered,
      Nat.forall_lt_succ_right, and_congr_right_iff]
    intro _
    rw [List.forall_mem_map]
    constructor
    · intro hall
      by_contra hlt
      have ha := hall (filled s b host (i + 1)) (List.mem_range.mpr (not_le.mp hlt))
      exact absurd ((hbuffer _).mp ha) (lt_irrefl _)
    · intro hle a ha
      exact (hbuffer a).mpr (Nat.lt_of_lt_of_le (List.mem_range.mp ha) hle)

/-- The read loop. -/
theorem readLoop_read (host : ℕ → Int64) (direction : UInt64) (hsize : members.size.toNat = s)
    (hs : s < 2 ^ 63) (block : UInt64) (n : ℕ) (hlast : n = 0 ∨ 4096 * (block.toNat + n - 1) < s)
    (hcount : ∀ k < n, (count k).toNat ≤ extent s (block.toNat + k) 1) :
    ∃ bc j, exec (faulty host count direction) (readLoop members block n 0 0) {} = some (bc, j)
      ∧ Read s block.toNat n host count bc j := by
  -- iteration `i` takes the journal that `i` iterations left
  exact loop_exec (faulty host count direction) (readLoop members block)
    (I := fun i => Read s block.toNat i host count) hsize hs hlast (fun _ _ => rfl)
    (fun m i bc j it hi h => ⟨_, _, readLoop_faulty it m bc j, h.succ hs (hcount i.toNat hi)⟩)
    n 0 0 {} (Nat.zero_add n) (read_zero s block.toNat host count)

/-! ## Writing -/

/-- One iteration of a write, with a block of `length` bytes. -/
def writeStep (host : ℕ → Int64) (count : ℕ → UInt64) (length : ℕ) (j : Journal) : Journal :=
  if host j.hostCalls < 0 then (j.gather (count j.copies).toNat).fail
  else (j.gather (count j.copies).toNat).store length

theorem writeLoop_faulty {block i : UInt64} (it : Iteration members.size block i s) (n : ℕ)
    (bc : UInt64) (j : Journal) :
    exec (faulty host count direction) (writeLoop members block (n + 1) i bc) j
      = exec (faulty host count direction) (writeLoop members block n (i + 1)
          (bc + count j.copies)) (writeStep host count (extent s (block.toNat + i.toNat) 1) j) := by
  have hcalls : (j.gather (count j.copies).toNat).hostCalls = j.hostCalls := rfl
  rw [writeLoop_succ, it.unguarded, if_neg Bool.false_ne_true, exec_call, ← it.length, writeStep]
  by_cases h : host j.hostCalls < 0
  · simp only [faulty, hcalls, h, if_true, Option.bind_some, exec_call]
  · simp only [faulty, hcalls, h, if_false, Option.bind_some, exec_call]

/-- What `i` iterations of a write leave, from block `b`. -/
structure Written (s b i : ℕ) (host : ℕ → Int64) (count : ℕ → UInt64) (bc : UInt64)
    (j : Journal) : Prop where
  hostCalls : j.hostCalls = i
  copies : j.copies = i
  buffer : ∀ a k, j.buffer a = .descriptor k → k < i
  failed : j.failed = true ↔ ∃ k < i, host k < 0
  completions : j.completions = []
  short : bc.toNat ≤ extent s b i
  counted : (∀ k < i, 0 ≤ host k ∧ (count k).toNat = extent s (b + k) 1) →
    bc.toNat = j.stored.length
  stored : (∀ x ∈ j.stored, x.2 = .descriptor x.1) ↔
    ∀ k < i, 0 ≤ host k → (count k).toNat = extent s (b + k) 1

theorem written_zero (s b : ℕ) (host : ℕ → Int64) (count : ℕ → UInt64) :
    Written s b 0 host count 0 {} where
  hostCalls := rfl
  copies := rfl
  buffer _ _ h := Origin.noConfusion h
  failed := ⟨fun h => Bool.noConfusion h, fun ⟨k, hk, _⟩ => absurd hk (Nat.not_lt_zero k)⟩
  completions := rfl
  short := Nat.zero_le _
  counted _ := rfl
  stored := ⟨fun _ k hk => absurd hk (Nat.not_lt_zero k), fun _ _ hx => absurd hx List.not_mem_nil⟩

/-- The buffer is the block of iteration `i` exactly as far as its copy went. -/
theorem Written.gather_buffer {b i : ℕ} {bc : UInt64} {j : Journal}
    (h : Written s b i host count bc j) (m a : ℕ) :
    (j.gather m).buffer a = .descriptor i ↔ a < m := by
  rw [Journal.gather, h.copies]
  by_cases ha : a < m
  · simp only [if_pos ha]
    exact iff_of_true trivial ha
  · simp only [if_neg ha]
    exact iff_of_false (fun he => lt_irrefl i (h.buffer a i he)) ha

theorem Written.gather_lt {b i : ℕ} {bc : UInt64} {j : Journal}
    (h : Written s b i host count bc j) (m a k : ℕ)
    (hk : (j.gather m).buffer a = .descriptor k) : k < i + 1 := by
  rw [Journal.gather, h.copies] at hk
  by_cases ha : a < m
  · simp only [if_pos ha] at hk
    exact Origin.descriptor.inj hk ▸ Nat.lt_succ_self i
  · simp only [if_neg ha] at hk
    exact Nat.lt_succ_of_lt (h.buffer a k hk)

/-- One more iteration of a write. The host call fails and stores nothing, or stores the
whole block. -/
theorem Written.succ {b i : ℕ} {bc : UInt64} {j : Journal} (h : Written s b i host count bc j)
    (hs : s < 2 ^ 63) (hcount : (count i).toNat ≤ extent s (b + i) 1) :
    Written s b (i + 1) host count (bc + count j.copies)
      (writeStep host count (extent s (b + i) 1) j) := by
  have hlast := extent_last s b i
  have hshort := h.short
  have hadd := counted_add hs hshort hcount
  have hstored := h.stored
  rw [writeStep, h.copies, h.hostCalls]
  by_cases hi : host i < 0
  · have hno : ¬ 0 ≤ host i := Int64.not_le.mpr hi
    rw [if_pos hi]
    refine ⟨congrArg (· + 1) h.hostCalls, congrArg (· + 1) h.copies, h.gather_lt _, ?_,
      h.completions, by omega, ?_, ?_⟩
    · exact iff_of_true rfl ⟨i, Nat.lt_succ_self i, hi⟩
    · exact fun hall => absurd (hall i (Nat.lt_succ_self i)).1 hno
    · rw [Nat.forall_lt_succ_right, and_iff_left (fun h0 => absurd h0 hno)]
      exact hstored
  · have hyes : 0 ≤ host i := Int64.not_lt.mp hi
    have hcalls : (j.gather (count i).toNat).hostCalls = i := h.hostCalls
    have hbefore : (j.gather (count i).toNat).stored = j.stored := rfl
    rw [if_neg hi]
    refine ⟨congrArg (· + 1) h.hostCalls, congrArg (· + 1) h.copies, h.gather_lt _, ?_,
      h.completions, by omega, ?_, ?_⟩
    · rw [Nat.exists_lt_succ_right, or_iff_left hi]
      exact h.failed
    · intro hall
      obtain ⟨hall, -, hfull⟩ := Nat.forall_lt_succ_right.mp hall
      rw [Journal.store, hbefore, List.length_append, List.length_map, List.length_range, hadd,
        h.counted hall, hfull]
    · -- what was stored before, and the block
      rw [Journal.store, hbefore, hcalls, List.forall_mem_append, hstored,
        Nat.forall_lt_succ_right, and_congr_right_iff]
      intro _
      rw [List.forall_mem_map]
      constructor
      · intro hall _
        by_contra hne
        have ha := hall (count i).toNat (List.mem_range.mpr (by omega))
        exact lt_irrefl _ ((h.gather_buffer _ _).mp ha)
      · intro hfull a ha
        exact (h.gather_buffer _ _).mpr (by rw [hfull hyes]; exact List.mem_range.mp ha)

/-- The write loop. -/
theorem writeLoop_written (host : ℕ → Int64) (direction : UInt64) (hsize : members.size.toNat = s)
    (hs : s < 2 ^ 63) (block : UInt64) (n : ℕ) (hlast : n = 0 ∨ 4096 * (block.toNat + n - 1) < s)
    (hcount : ∀ k < n, (count k).toNat ≤ extent s (block.toNat + k) 1) :
    ∃ bc j, exec (faulty host count direction) (writeLoop members block n 0 0) {} = some (bc, j)
      ∧ Written s block.toNat n host count bc j := by
  -- as for a read
  exact loop_exec (faulty host count direction) (writeLoop members block)
    (I := fun i => Written s block.toNat i host count) hsize hs hlast (fun _ _ => rfl)
    (fun m i bc j it hi h => ⟨_, _, writeLoop_faulty it m bc j, h.succ hs (hcount i.toNat hi)⟩)
    n 0 0 {} (Nat.zero_add n) (written_zero s block.toNat host count)

end Loops

/-! ## One request -/

/-- The journal after the completion, if the request has one. -/
def Journal.complete (j : Journal) (completes : Bool) (bc : UInt64) : Journal :=
  { j with completions := if completes then j.completions ++ [(0, bc)] else j.completions }

section Request

variable {members : AlephBDevMembers} {index : UInt64} {s : ℕ} {host : ℕ → Int64}
  {count : ℕ → UInt64} {b n : ℕ} {completes : Bool} {bc : UInt64} {j : Journal}

/-- No host call failed exactly if all of them succeeded. -/
theorem not_failed_iff {failed : Bool} (h : failed = true ↔ ∃ k < n, host k < 0) :
    failed = false ↔ ∀ k < n, 0 ≤ host k := by
  rw [← Bool.not_eq_true, h]
  constructor
  · intro hno k hk
    exact Int64.not_lt.mp (fun hneg => hno ⟨k, hk, hneg⟩)
  · rintro hall ⟨k, hk, hneg⟩
    exact Int64.not_lt.mpr (hall k hk) hneg

/-- The only completion is the one with status 0 and the count, if the request has one. -/
theorem completion_iff {write : Bool} (h : j.completions = []) :
    (∀ c ∈ (j.complete completes bc).completions, c.1 = 0 →
        (j.complete completes bc).failed = false ∧
          c.2.toNat = (j.complete completes bc).moved write)
      ↔ (completes = true → j.failed = false ∧ bc.toNat = j.moved write) := by
  cases completes with
  | false =>
      have hnone : (j.complete false bc).completions = [] := h
      rw [hnone]
      exact iff_of_true (List.forall_mem_nil _) (fun hc => Bool.noConfusion hc)
  | true =>
      have hone : (j.complete true bc).completions = [(0, bc)] := congrArg (· ++ [(0, bc)]) h
      rw [hone, List.forall_mem_singleton]
      exact ⟨fun hc _ => hc rfl, fun hc _ => hc rfl⟩

/-- A read keeps the promise for the scripts that are reliable. -/
theorem Read.honest (h : Read s b n host count bc j) :
    Honest false (j.complete completes bc) ↔ Reliable s b n false completes host count := by
  have hok := not_failed_iff h.failed
  constructor
  · rintro ⟨hcompletion, -, hdelivered⟩
    have hone := (completion_iff h.completions).mp hcompletion
    exact ⟨fun hc => hok.mp (hone hc).1, fun hw => Bool.noConfusion hw,
      fun _ => h.delivered.mp (hdelivered rfl)⟩
  · rintro ⟨hsucceed, -, hgot⟩
    have hfile := h.delivered.mpr (hgot rfl)
    refine ⟨(completion_iff h.completions).mpr fun hc => ⟨hok.mpr (hsucceed hc), ?_⟩,
      fun hw => Bool.noConfusion hw, fun _ => hfile⟩
    -- everything that was delivered is from the file, so all of it counts
    show bc.toNat = j.delivered.countP Origin.isFile
    rw [h.counted, eq_comm, List.countP_eq_length]
    intro o ho
    obtain ⟨k, rfl⟩ := hfile o ho
    rfl

/-- A write keeps the promise for the scripts that are reliable. -/
theorem Written.honest (h : Written s b n host count bc j) :
    Honest true (j.complete completes bc) ↔ Reliable s b n true completes host count := by
  have hok := not_failed_iff h.failed
  constructor
  · rintro ⟨hcompletion, hstored, -⟩
    have hone := (completion_iff h.completions).mp hcompletion
    exact ⟨fun hc => hok.mp (hone hc).1, fun _ => h.stored.mp (hstored rfl),
      fun hw => Bool.noConfusion hw⟩
  · rintro ⟨hsucceed, hfull, -⟩
    have hdescriptor := h.stored.mpr (hfull rfl)
    refine ⟨(completion_iff h.completions).mpr fun hc => ⟨hok.mpr (hsucceed hc), ?_⟩,
      fun _ => hdescriptor, fun hw => Bool.noConfusion hw⟩
    -- every block was stored, and in full
    have hall := hsucceed hc
    show bc.toNat = j.stored.countP fun x => x.2.isDescriptor
    rw [h.counted (fun k hk => ⟨hall k hk, hfull rfl k hk (hall k hk)⟩), eq_comm,
      List.countP_eq_length]
    intro x hx
    rw [hdescriptor x hx]
    rfl

/-- From the loop to the whole request: the lock, the direction, the completion and the
unlock add nothing but the completion. -/
theorem prog_faulty {r : Request} {direction : UInt64}
    (hrun : exec (faulty host count direction) (transfer members r.block r.nblks direction) {}
      = some (bc, j)) :
    exec (faulty host count direction) (r.prog members) {}
      = some (0, j.complete r.completion.isSome bc) := by
  have hlock : faulty host count direction (.lck_mtx_lock members.lck_mtx) {} = some ((), {}) := rfl
  have hdirection : faulty host count direction .getDirection {} = some (direction, {}) := rfl
  rw [Request.prog, doAsyncReadWrite, perform_bind, perform_bind, exec_call_some hlock,
    exec_call_some hdirection]
  refine (exec_bind_some hrun).trans ?_
  unfold complete
  cases r.completion with
  | none => rfl
  | some completion => rfl

/-- Every request in range ends. It reports and forwards only bytes that it moved if, and
only if, the script is reliable for it. -/
theorem honest_iff (hmade : Made index (Int64.ofNat s) members) (hs : s < 2 ^ 63) {r : Request}
    (hin : r.InFile s) (host : ℕ → Int64) (count : ℕ → UInt64)
    (hcount : ∀ k < r.nblks.toNat, (count k).toNat ≤ extent s (r.block.toNat + k) 1) :
    ∃ j, exec (faulty host count r.direction) (r.prog members) {} = some (0, j) ∧
      (Honest r.write j ↔ Reliable s r.block.toNat r.nblks.toNat r.write r.completion.isSome
        host count) := by
  have hm := hmade.sized hs
  cases hw : r.write with
  | false =>
      have hdir : r.direction = kIODirectionIn := by rw [Request.direction, hw]; rfl
      obtain ⟨bc, j, hloop, hread⟩ := readLoop_read host kIODirectionIn hm.size hs r.block
        r.nblks.toNat hin hcount
      exact ⟨_, hdir ▸ prog_faulty hloop, hread.honest⟩
  | true =>
      have hdir : r.direction = kIODirectionOut := by rw [Request.direction, hw]; rfl
      obtain ⟨bc, j, hloop, hwritten⟩ := writeLoop_written host kIODirectionOut hm.size hs r.block
        r.nblks.toNat hin hcount
      exact ⟨_, hdir ▸ prog_faulty hloop, hwritten.honest⟩

/-! ## On small files -/

/-- A request for the first two blocks. -/
def twoBlocks (completion : Option Completion) : Request := ⟨false, 0, 2, completion, fun _ => 0⟩

/-- The second host call fails. -/
def secondFails (k : ℕ) : Int64 := if k = 1 then -1 else 4096

/-- The descriptor takes a part of each block. -/
def shortCounts (k : ℕ) : UInt64 := if k = 1 then 10 else 100

/-- The second block cannot be read, from a file of two blocks, and the descriptor is short.
Without a completion nothing that was not read is passed on; with one it is called all the
same. -/
theorem honest_iff_twoBlocks :
    (∃ j, exec (faulty secondFails shortCounts kIODirectionIn)
        ((twoBlocks none).prog (newDevice 0 (Int64.ofNat 4112) 1 2)) {} = some (0, j)
      ∧ Honest false j)
      ∧ ∃ j, exec (faulty secondFails shortCounts kIODirectionIn)
        ((twoBlocks (some ⟨1, 2, 3⟩)).prog (newDevice 0 (Int64.ofNat 4112) 1 2)) {} = some (0, j)
      ∧ ¬ Honest false j := by
  have hsmall : ∀ k < 2, (shortCounts k).toNat ≤ extent 4112 (0 + k) 1 := by decide
  have hgot : ∀ k < 2, (shortCounts k).toNat ≤ filled 4112 0 secondFails (k + 1) := by decide
  have hmade := newDevice_made 0 (Int64.ofNat 4112) 1 2
  obtain ⟨j, hrun, hhonest⟩ := honest_iff hmade (by decide) (r := twoBlocks none)
    (Or.inr (by decide)) secondFails shortCounts hsmall
  obtain ⟨j', hrun', hhonest'⟩ := honest_iff hmade (by decide) (r := twoBlocks (some ⟨1, 2, 3⟩))
    (Or.inr (by decide)) secondFails shortCounts hsmall
  refine ⟨⟨j, hrun, hhonest.mpr ⟨nofun, nofun, fun _ => hgot⟩⟩, j', hrun', fun h => ?_⟩
  exact absurd ((hhonest'.mp h).succeed rfl 1 (by decide)) (by decide)

/-- A request for the one block of a file of 16 bytes, with a completion. -/
def oneBlock (write : Bool) : Request where
  write := write
  block := 0
  nblks := 1
  completion := some ⟨1, 2, 3⟩
  desc := fun _ => 0

/-- The host fails to read the block. The descriptor gets what an earlier request left in
the buffer, and the completion says that 16 bytes were read. -/
theorem failed_read_completes :
    ∃ j, exec (faulty (fun _ => -1) (fun _ => 16) kIODirectionIn)
        ((oneBlock false).prog (newDevice 0 (Int64.ofNat 16) 1 2)) {} = some (0, j) ∧
      j.completions = [(0, 16)] ∧ j.failed = true ∧
      j.delivered = List.replicate 16 Origin.earlier ∧ ¬ Honest false j := by
  refine ⟨_, rfl, rfl, rfl, rfl, fun h => ?_⟩
  obtain ⟨hfailed, -⟩ := h.completion (0, 16) (List.mem_singleton.mpr rfl) rfl
  exact Bool.noConfusion hfailed

end Request

end XnuQemuTools.BlockDev
