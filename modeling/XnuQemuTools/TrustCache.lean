/-
The trust cache, `bootstrap_scripts/create_trustcache.py`.

`create_tc` writes a header with the number of elements of its list, and then a record
for each element that is not empty. The functions below are its statements in order:
`hashWords` is `for i in range(5)`, `hashLoop` is `for hash_txt in hashes`, both with
the buffer `tc` they append to. An exception leaves without a buffer. `main` is the
script from the bytes it reads to the bytes it writes.

`hashOf` is what a line says: twenty bytes, two hexadecimal digits each. The script
never does this. It reads five numbers of eight characters with `int` and writes them
as big-endian words, which comes to the same on digits (`lineRecord_hashOf`).
-/
import XnuQemuTools.Python

set_option autoImplicit false

namespace XnuQemuTools.TrustCache

open Python

/-! ## The script -/

/-- The last `n` iterations of `for i in range(5)`. -/
def hashWords (hash_txt : Bytes) : ℕ → ℕ → Bytes → Except PyError Bytes
  | 0, _, tc => .ok tc
  | n + 1, i, tc => do
      let four_bytes := slice hash_txt (i * 8) ((i + 1) * 8)
      let number ← int16 four_bytes
      let packed ← packBE number
      hashWords hash_txt n (i + 1) (tc ++ packed)

/-- `for hash_txt in hashes`. -/
def hashLoop : List Bytes → Bytes → Except PyError Bytes
  | [], tc => .ok tc
  | hash_txt :: hashes, tc =>
      if hash_txt.length = 0 then hashLoop hashes tc
      else if ¬ hash_txt.length ≥ 40 then .error .AssertionError
      else do
        let hash_txt := slice hash_txt 0 40
        let tc ← hashWords hash_txt 5 0 tc
        let hash_type ← packB 0
        let hash_flags ← packB 0
        hashLoop hashes (tc ++ hash_type ++ hash_flags)

/-- `create_tc`. -/
def create_tc (hashes : List Bytes) : Except PyError Bytes := do
  let trustcaches ← packLE 1
  let offset ← packLE 8
  let version ← packLE 1
  let unknown₁ ← packLE 0
  let unknown₂ ← packLE 0
  let unknown₃ ← packLE 0
  let unknown₄ ← packLE 0
  let number ← packLE hashes.length
  hashLoop hashes
    (trustcaches ++ offset ++ version ++ unknown₁ ++ unknown₂ ++ unknown₃ ++ unknown₄ ++ number)

/-- The list that the script gives to `create_tc`. -/
def hashLines (hashes_txt : Bytes) : List Bytes := sorted ((splitlines hashes_txt).map strip)

/-- The script: what it writes for what it reads. -/
def main (hashes_txt : Bytes) : Except PyError Bytes := create_tc (hashLines hashes_txt)

/-! ## What a line says -/

/-- The bytes that hexadecimal digits spell, two digits a byte. -/
def hexBytes : Bytes → Option Bytes
  | [] => some []
  | [_] => none
  | c :: c' :: b =>
      match hexDigit c, hexDigit c', hexBytes b with
      | some d, some d', some bs => some (UInt8.ofNat (d * 16 + d') :: bs)
      | _, _, _ => none

/-- The hash that a line spells with its first forty characters. -/
def hashOf (line : Bytes) : Option Bytes :=
  if 40 ≤ line.length then hexBytes (line.take 40) else none

/-- A line that begins with forty hexadecimal digits. -/
def StartsHex (line : Bytes) : Prop :=
  40 ≤ line.length ∧ ∀ c ∈ line.take 40, (hexDigit c).isSome

instance (line : Bytes) : Decidable (StartsHex line) := inferInstanceAs (Decidable (_ ∧ _))

/-! ## A record -/

/-- What is appended for a line that is not empty. -/
def lineRecord (line : Bytes) : Except PyError Bytes := do
  let words ← hashWords (slice line 0 40) 5 0 []
  return words ++ [0, 0]

theorem hashWords_append (hash_txt : Bytes) (n : ℕ) : ∀ (i : ℕ) (tc : Bytes),
    hashWords hash_txt n i tc = (hashWords hash_txt n i []).map (tc ++ ·) := by
  induction n with
  | zero =>
      intro i tc
      rw [hashWords, hashWords, Except.map, List.append_nil]
  | succ n ih =>
      intro i tc
      rw [hashWords, hashWords]
      rcases hint : int16 (slice hash_txt (i * 8) ((i + 1) * 8)) with e | number
      · rfl
      · rcases hpack : packBE number with e | packed
        · simp only [bind, Except.bind, hpack, Except.map]
        · simp only [bind, Except.bind, hpack]
          rw [ih (i + 1) (tc ++ packed), ih (i + 1) ([] ++ packed)]
          rcases hashWords hash_txt n (i + 1) [] with e | words
          · rfl
          · simp only [Except.map, List.nil_append, List.append_assoc]

theorem length_hashWords (hash_txt : Bytes) (n : ℕ) : ∀ {i : ℕ} {tc words : Bytes},
    hashWords hash_txt n i tc = .ok words → words.length = tc.length + 4 * n := by
  induction n with
  | zero =>
      intro i tc words h
      cases h
      rfl
  | succ n ih =>
      intro i tc words h
      rw [hashWords] at h
      rcases hint : int16 (slice hash_txt (i * 8) ((i + 1) * 8)) with e | number
      · rw [hint] at h
        cases h
      · rcases hpack : packBE number with e | packed
        · simp only [bind, Except.bind, hint, hpack] at h
          cases h
        · simp only [bind, Except.bind, hint, hpack] at h
          have hlen := ih h
          rw [List.length_append, length_packBE hpack] at hlen
          omega

theorem length_lineRecord {line record : Bytes} (h : lineRecord line = .ok record) :
    record.length = 22 := by
  unfold lineRecord at h
  rcases hwords : hashWords (slice line 0 40) 5 0 [] with e | words
  · rw [hwords] at h
    cases h
  · rw [hwords] at h
    cases h
    have hlen := length_hashWords _ 5 hwords
    rw [List.length_append, hlen]
    rfl

/-! ## The list -/

/-- The lines that become records. -/
def nonempty (hashes : List Bytes) : List Bytes := hashes.filter fun line => line.length ≠ 0

/-- **The records.** When the loop ends, it has appended one record for each line that
is not empty, all of which have forty characters at least. -/
theorem hashLoop_ok (hashes : List Bytes) : ∀ {tc tc' : Bytes}, hashLoop hashes tc = .ok tc' →
    ∃ records, List.Forall₂ (fun line record => 40 ≤ line.length ∧ lineRecord line = .ok record)
        (nonempty hashes) records
      ∧ tc' = tc ++ records.flatten := by
  induction hashes with
  | nil =>
      intro tc tc' h
      cases h
      exact ⟨[], List.Forall₂.nil, (List.append_nil tc).symm⟩
  | cons line hashes ih =>
      intro tc tc' h
      rw [hashLoop] at h
      by_cases hempty : line.length = 0
      · -- an empty line leaves no record
        rw [if_pos hempty] at h
        obtain ⟨records, hrecords, htc⟩ := ih h
        refine ⟨records, ?_, htc⟩
        rw [nonempty, List.filter_cons_of_neg (by simpa using hempty)]
        exact hrecords
      · rw [if_neg hempty] at h
        by_cases hshort : line.length ≥ 40
        · rw [if_neg (not_not_intro hshort)] at h
          simp only [hashWords_append _ 5 0 tc] at h
          rcases hwords : hashWords (slice line 0 40) 5 0 [] with e | words
          · rw [hwords] at h
            cases h
          · rw [hwords] at h
            have hrest : hashLoop hashes (tc ++ words ++ [0] ++ [0]) = .ok tc' := h
            obtain ⟨records, hrecords, htc⟩ := ih hrest
            -- the words and the two zeros are the record of the line
            have hrecord : lineRecord line = .ok (words ++ [0, 0]) := by
              rw [lineRecord, hwords]
              rfl
            refine ⟨(words ++ [0, 0]) :: records, ?_, ?_⟩
            · rw [nonempty, List.filter_cons_of_pos (by simpa using hempty)]
              exact List.Forall₂.cons ⟨hshort, hrecord⟩ hrecords
            · rw [htc]
              simp
        · -- the assertion fails
          rw [if_pos hshort] at h
          cases h

/-- The header for `n` lines. -/
def header (n : ℕ) : Bytes :=
  [1, 0, 0, 0, 8, 0, 0, 0, 1, 0, 0, 0, 0, 0, 0, 0, 0, 0, 0, 0, 0, 0, 0, 0, 0, 0, 0, 0,
    UInt8.ofNat n, UInt8.ofNat (n / 2 ^ 8), UInt8.ofNat (n / 2 ^ 16), UInt8.ofNat (n / 2 ^ 24)]

theorem create_tc_of_lt {hashes : List Bytes} (h : hashes.length < 2 ^ 32) :
    create_tc hashes = hashLoop hashes (header hashes.length) := by
  rw [create_tc, packLE_of_lt h]
  rfl

theorem length_lt_of_ok {hashes : List Bytes} {tc : Bytes} (h : create_tc hashes = .ok tc) :
    hashes.length < 2 ^ 32 := by
  by_contra hge
  have hpack : packLE hashes.length = .error .StructError := if_neg (by omega)
  rw [create_tc, hpack] at h
  cases h

/-- The buffer: the header, and the records. -/
theorem create_tc_ok {hashes : List Bytes} {tc : Bytes} (h : create_tc hashes = .ok tc) :
    hashes.length < 2 ^ 32 ∧ ∃ records,
      List.Forall₂ (fun line record => 40 ≤ line.length ∧ lineRecord line = .ok record)
        (nonempty hashes) records
      ∧ tc = header hashes.length ++ records.flatten := by
  have hlt := length_lt_of_ok h
  rw [create_tc_of_lt hlt] at h
  exact ⟨hlt, hashLoop_ok hashes h⟩

end XnuQemuTools.TrustCache
