/-
The lists that `create_tc` takes.

A line is refused by `assert(len(hash_txt) >= 40)`, by `int` or by `struct.pack`, and
nothing else looks at it. `int` sees it in five pieces of eight characters, so an odd
character is refused or not by where it stands in its piece: `Taken` is a line that gets
through, each piece being a number of its own, and `create_tc_accepts` says that these
are all the lines that do. Lines of forty digits are among them, and so are lines with a
sign, a prefix, an underscore or a blank, for which a hash is written that they do not
spell. `accepts_startsHex_iff` is when this makes a difference.
-/
import XnuQemuTools.PythonInt
import XnuQemuTools.TrustCacheForm

set_option autoImplicit false

namespace XnuQemuTools.TrustCache

open Python

/-- A line that is long enough, with five pieces that are numbers and not negative. -/
def Taken (line : Bytes) : Prop :=
  40 ≤ line.length ∧ ∀ i < 5, Natural (slice line (i * 8) ((i + 1) * 8))

/-! ## A line -/

/-- A piece is written if it is a number that is not negative, since it cannot be one that
is too large. -/
theorem packBE_int16 {b : Bytes} (hlen : b.length ≤ 8) :
    (∃ number packed, int16 b = .ok number ∧ packBE number = .ok packed) ↔ Natural b := by
  rw [← int16_natural]
  constructor
  · rintro ⟨number, packed, hint, hpack⟩
    refine ⟨number, hint, ?_⟩
    unfold packBE at hpack
    split at hpack
    · rename_i hrange
      exact hrange.1
    · cases hpack
  · rintro ⟨number, hint, hpos⟩
    have hlt : number < 2 ^ 32 :=
      calc number < 16 ^ b.length := int16_lt hint
        _ ≤ 16 ^ 8 := by exact_mod_cast Nat.pow_le_pow_right (by decide) hlen
        _ = 2 ^ 32 := by decide
    exact ⟨number, _, hint, if_pos ⟨hpos, hlt⟩⟩

/-- `for i in range(5)` ends if all the pieces it has left are written. -/
theorem hashWords_isOk (hash_txt : Bytes) (n : ℕ) : ∀ i,
    (∃ words, hashWords hash_txt n i [] = .ok words) ↔
      ∀ j < n, Natural (slice hash_txt ((i + j) * 8) ((i + j + 1) * 8)) := by
  induction n with
  | zero => exact fun i => iff_of_true ⟨[], rfl⟩ fun j hj => absurd hj (Nat.not_lt_zero j)
  | succ n ih =>
      intro i
      have hlen : (slice hash_txt (i * 8) ((i + 1) * 8)).length ≤ 8 := by
        rw [slice, List.length_take]
        omega
      simp only [Nat.forall_lt_succ_left, Nat.add_zero]
      rw [← packBE_int16 hlen]
      have hrest : (∀ j < n, Natural (slice hash_txt ((i + (j + 1)) * 8) ((i + (j + 1) + 1) * 8)))
          ↔ ∃ words, hashWords hash_txt n (i + 1) [] = .ok words := by
        rw [ih (i + 1)]
        simp only [Nat.add_right_comm i _ 1, ← Nat.add_assoc]
      rw [hrest, hashWords]
      rcases hint : int16 (slice hash_txt (i * 8) ((i + 1) * 8)) with e | number
      · -- `int` raises
        simp [bind, Except.bind]
      · rcases hpack : packBE number with e | packed
        · -- `struct.pack` raises
          simp [bind, Except.bind, hpack]
        · simp only [bind, Except.bind, hpack, hashWords_append _ n (i + 1) ([] ++ packed)]
          rcases hashWords hash_txt n (i + 1) [] with e | words
          · simp [Except.map]
          · simp [Except.map, hpack]

/-- The first forty characters have the pieces of the line. -/
theorem slice_slice (line : Bytes) {i : ℕ} (hi : i < 5) :
    slice (slice line 0 40) (i * 8) ((i + 1) * 8) = slice line (i * 8) ((i + 1) * 8) := by
  simp only [slice, List.drop_zero, Nat.sub_zero, List.drop_take, List.take_take]
  congr 1
  omega

theorem taken_iff {line : Bytes} :
    Taken line ↔ 40 ≤ line.length ∧ ∃ record, lineRecord line = .ok record := by
  refine and_congr_right fun _ => ?_
  have hpieces : (∀ i < 5, Natural (slice line (i * 8) ((i + 1) * 8))) ↔
      ∃ words, hashWords (slice line 0 40) 5 0 [] = .ok words := by
    rw [hashWords_isOk]
    refine forall₂_congr fun i hi => ?_
    rw [Nat.zero_add, slice_slice line hi]
  rw [hpieces, lineRecord]
  rcases hashWords (slice line 0 40) 5 0 [] with e | words
  · simp [bind, Except.bind]
  · simp [bind, Except.bind, pure, Except.pure]

/-- Lines that begin with forty digits are among those that get through. -/
theorem StartsHex.taken {line : Bytes} (h : StartsHex line) : Taken line := by
  obtain ⟨hash, -, hrecord⟩ := lineRecord_hashOf h
  exact taken_iff.mpr ⟨h.1, _, hrecord⟩

/-! ## The list -/

theorem hashLoop_isOk (hashes : List Bytes) : ∀ tc,
    (∀ line ∈ nonempty hashes, Taken line) → ∃ tc', hashLoop hashes tc = .ok tc' := by
  induction hashes with
  | nil => exact fun tc _ => ⟨tc, rfl⟩
  | cons line hashes ih =>
      intro tc h
      rw [hashLoop]
      by_cases hempty : line.length = 0
      · rw [nonempty, List.filter_cons_of_neg (by simpa using hempty)] at h
        rw [if_pos hempty]
        exact ih tc h
      · rw [nonempty, List.filter_cons_of_pos (by simpa using hempty)] at h
        have hline := h line (List.mem_cons_self ..)
        obtain ⟨words, hwords⟩ := (hashWords_isOk (slice line 0 40) 5 0).mpr fun i hi => by
          rw [Nat.zero_add, slice_slice line hi]
          exact hline.2 i hi
        have happend : hashWords (slice line 0 40) 5 0 tc = .ok (tc ++ words) := by
          rw [hashWords_append, hwords]
          rfl
        rw [if_neg hempty, if_neg (not_not_intro hline.1)]
        simp only [happend]
        exact ih _ fun x hx => h x (List.mem_cons_of_mem _ hx)

/-- **The lists that `create_tc` takes.** -/
theorem create_tc_accepts (hashes : List Bytes) : (∃ tc, create_tc hashes = .ok tc) ↔
    hashes.length < 2 ^ 32 ∧ ∀ line ∈ nonempty hashes, Taken line := by
  constructor
  · rintro ⟨tc, h⟩
    obtain ⟨hlt, records, hrecords, -⟩ := create_tc_ok h
    refine ⟨hlt, fun line hline => ?_⟩
    obtain ⟨k, hk⟩ := List.mem_iff_getElem?.mp hline
    obtain ⟨record, -, hlen, hrecord⟩ := record_at hrecords hk
    exact taken_iff.mpr ⟨hlen, record, hrecord⟩
  · rintro ⟨hlt, h⟩
    rw [create_tc_of_lt hlt]
    exact hashLoop_isOk hashes _ h

/-- **When the lists that are taken are those of hash lines.** Where all lines that are not
empty begin with forty digits, the number of lines must fit into its four bytes. Where
some do not, it must not fit, or one of the lines must be refused. -/
theorem accepts_startsHex_iff (hashes : List Bytes) :
    ((∃ tc, create_tc hashes = .ok tc) ↔ ∀ line ∈ nonempty hashes, StartsHex line) ↔
      ((∀ line ∈ nonempty hashes, StartsHex line) ∧ hashes.length < 2 ^ 32)
      ∨ ((∃ line ∈ nonempty hashes, ¬ StartsHex line)
        ∧ (2 ^ 32 ≤ hashes.length ∨ ∃ line ∈ nonempty hashes, ¬ Taken line)) := by
  rw [create_tc_accepts]
  by_cases hhex : ∀ line ∈ nonempty hashes, StartsHex line
  · have htaken : ∀ line ∈ nonempty hashes, Taken line := fun line hline => (hhex line hline).taken
    have hnone : ¬ ∃ line ∈ nonempty hashes, ¬ StartsHex line := by
      rintro ⟨line, hline, h⟩
      exact h (hhex line hline)
    rw [iff_true_right hhex, and_iff_left htaken, and_iff_right hhex, or_iff_left (hnone ·.1)]
  · have hsome : ∃ line ∈ nonempty hashes, ¬ StartsHex line := by
      simpa using hhex
    rw [iff_false_right hhex, or_iff_right (hhex ·.1), and_iff_right hsome, not_and_or, not_lt]
    simp only [not_forall, exists_prop]

/-- A plus and thirty-nine zeros. -/
def plusLine : Bytes := 0x2b :: List.replicate 39 0x30

/-- A line that has no hash is taken, and for it the hash of another line is written. -/
theorem plusLine_taken : create_tc [plusLine] = create_tc [zeroLine]
    ∧ ¬ ((∃ tc, create_tc [plusLine] = .ok tc) ↔
      ∀ line ∈ nonempty [plusLine], StartsHex line) := by
  have hreturn : create_tc [plusLine] = .ok (header 1 ++ List.replicate 22 0) := rfl
  refine ⟨rfl, fun hiff => ?_⟩
  have hhex := hiff.mp ⟨_, hreturn⟩ plusLine (by decide +kernel)
  have hplus := hhex.2 0x2b (List.mem_cons_self ..)
  cases hplus

end XnuQemuTools.TrustCache
