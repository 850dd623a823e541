/-
The form of the trust cache file.

`WellFormed` is read off the buffer alone: the prefix, the number stored in it against
the length of the buffer, and the records against the lines. `wellFormed_iff` says for
which lists `create_tc` gets it right. The number is `len(hashes)` and is written before
the loop that leaves the empty lines out, so an empty line anywhere makes it wrong; the
script's own call has one for every blank line of its input. A line that does not begin
with forty digits can only get here because `int` takes more than digits, and has no
hash to be decoded back to.
-/
import XnuQemuTools.TrustCache

set_option autoImplicit false

namespace XnuQemuTools.TrustCache

open Python

/-! ## Digits and words -/

theorem ofNat_congr {m n : ℕ} (h : m % 256 = n % 256) : UInt8.ofNat m = UInt8.ofNat n := by
  apply UInt8.toNat_inj.mp
  rw [UInt8.toNat_ofNat', UInt8.toNat_ofNat']
  exact h

/-- Eight digits as a big-endian word are the four bytes they spell. -/
theorem packBE_eight {b : Bytes} (hlen : b.length = 8) (hhex : ∀ c ∈ b, (hexDigit c).isSome) :
    ∃ number packed, int16 b = .ok number ∧ packBE number = .ok packed
      ∧ hexBytes b = some packed := by
  match b, hlen with
  | [c₀, c₁, c₂, c₃, c₄, c₅, c₆, c₇], _ =>
      have hdigit : ∀ c ∈ [c₀, c₁, c₂, c₃, c₄, c₅, c₆, c₇], ∃ d, hexDigit c = some d ∧ d < 16 := by
        intro c hc
        obtain ⟨d, hd⟩ := Option.isSome_iff_exists.mp (hhex c hc)
        exact ⟨d, hd, hexDigit_lt hd⟩
      obtain ⟨d₀, h₀, hlt₀⟩ := hdigit c₀ (by simp)
      obtain ⟨d₁, h₁, hlt₁⟩ := hdigit c₁ (by simp)
      obtain ⟨d₂, h₂, hlt₂⟩ := hdigit c₂ (by simp)
      obtain ⟨d₃, h₃, hlt₃⟩ := hdigit c₃ (by simp)
      obtain ⟨d₄, h₄, hlt₄⟩ := hdigit c₄ (by simp)
      obtain ⟨d₅, h₅, hlt₅⟩ := hdigit c₅ (by simp)
      obtain ⟨d₆, h₆, hlt₆⟩ := hdigit c₆ (by simp)
      obtain ⟨d₇, h₇, hlt₇⟩ := hdigit c₇ (by simp)
      have hdigits : IsDigits [c₀, c₁, c₂, c₃, c₄, c₅, c₆, c₇] [d₀, d₁, d₂, d₃, d₄, d₅, d₆, d₇] :=
        .cons h₀ <| .cons h₁ <| .cons h₂ <| .cons h₃ <| .cons h₄ <| .cons h₅ <| .cons h₆ <|
          .cons h₇ .nil
      have hbytes : hexBytes [c₀, c₁, c₂, c₃, c₄, c₅, c₆, c₇]
          = some [UInt8.ofNat (d₀ * 16 + d₁), UInt8.ofNat (d₂ * 16 + d₃),
            UInt8.ofNat (d₄ * 16 + d₅), UInt8.ofNat (d₆ * 16 + d₇)] := by
        simp only [hexBytes, h₀, h₁, h₂, h₃, h₄, h₅, h₆, h₇]
      have hvalue : value 0 [d₀, d₁, d₂, d₃, d₄, d₅, d₆, d₇]
          = (((((((d₀ * 16 + d₁) * 16 + d₂) * 16 + d₃) * 16 + d₄) * 16 + d₅) * 16 + d₆) * 16
            + d₇) := by
        simp only [value, Nat.zero_mul, Nat.zero_add]
      refine ⟨_, _, int16_digits (List.cons_ne_nil _ _) hdigits, ?_, hbytes⟩
      rw [hvalue, packBE_of_lt (by omega)]
      congr 1
      -- the bytes of the word are its digits two by two, modulo 256
      rw [List.cons.injEq, List.cons.injEq, List.cons.injEq, List.cons.injEq]
      exact ⟨ofNat_congr (by omega), ofNat_congr (by omega), ofNat_congr (by omega),
        ofNat_congr (by omega), rfl⟩

/-- What two digits and a list that spells something spell. -/
theorem hexBytes_cons {c c' : UInt8} {b bs : Bytes} (h : hexBytes (c :: c' :: b) = some bs) :
    ∃ d d' bs', hexDigit c = some d ∧ hexDigit c' = some d' ∧ hexBytes b = some bs'
      ∧ bs = UInt8.ofNat (d * 16 + d') :: bs' := by
  rw [hexBytes] at h
  split at h
  · rename_i d d' bs' hd hd' hbs'
    exact ⟨d, d', bs', hd, hd', hbs', (Option.some.inj h).symm⟩
  · cases h

theorem hexBytes_append {b' bs' : Bytes} (h' : hexBytes b' = some bs') :
    ∀ {b bs : Bytes}, hexBytes b = some bs → hexBytes (b ++ b') = some (bs ++ bs')
  | [], bs, h => by
      obtain rfl := Option.some.inj h
      exact h'
  | [c], bs, h => by cases h
  | c :: c' :: b, bs, h => by
      obtain ⟨d, d', rest, hd, hd', hrest, rfl⟩ := hexBytes_cons h
      have hall := hexBytes_append h' hrest
      rw [List.cons_append, List.cons_append, hexBytes, hd, hd', hall]
      rfl

/-- Only digits spell something. -/
theorem digits_of_hexBytes : ∀ {b bs : Bytes}, hexBytes b = some bs → ∀ c ∈ b, (hexDigit c).isSome
  | [], bs, h => fun c hc => (nomatch hc)
  | [c], bs, h => by cases h
  | c :: c' :: b, bs, h => by
      obtain ⟨d, d', rest, hd, hd', hrest, rfl⟩ := hexBytes_cons h
      intro x hx
      rcases List.mem_cons.mp hx with rfl | hx
      · exact Option.isSome_iff_exists.mpr ⟨d, hd⟩
      · rcases List.mem_cons.mp hx with rfl | hx
        · exact Option.isSome_iff_exists.mpr ⟨d', hd'⟩
        · exact digits_of_hexBytes hrest x hx

/-- The loop over the words of a hash writes what its digits spell. -/
theorem hashWords_hexBytes {hash : Bytes} (hhex : ∀ c ∈ hash, (hexDigit c).isSome) (n : ℕ) :
    ∀ i, hash.length = 8 * (i + n) →
      ∃ words, hashWords hash n i [] = .ok words ∧ hexBytes (hash.drop (i * 8)) = some words := by
  induction n with
  | zero =>
      intro i hlen
      rw [List.drop_of_length_le (by omega)]
      exact ⟨[], rfl, rfl⟩
  | succ n ih =>
      intro i hlen
      obtain ⟨words, hwords, hbytes⟩ := ih (i + 1) (by omega)
      -- word `i` is made of the next eight characters
      have hchunk : slice hash (i * 8) ((i + 1) * 8) = (hash.drop (i * 8)).take 8 := by
        rw [slice, show (i + 1) * 8 - i * 8 = 8 by omega]
      have hsplit : hash.drop (i * 8)
          = slice hash (i * 8) ((i + 1) * 8) ++ hash.drop ((i + 1) * 8) := by
        rw [hchunk, show (i + 1) * 8 = i * 8 + 8 by omega, ← List.drop_drop, List.take_append_drop]
      have height : (slice hash (i * 8) ((i + 1) * 8)).length = 8 := by
        rw [hchunk, List.length_take, List.length_drop]
        omega
      obtain ⟨number, packed, hint, hpack, hspell⟩ := packBE_eight height fun c hc =>
        hhex c (List.mem_of_mem_drop (List.mem_of_mem_take (hchunk ▸ hc)))
      refine ⟨packed ++ words, ?_, ?_⟩
      · rw [hashWords, hint]
        simp only [bind, Except.bind, hpack]
        rw [hashWords_append, hwords]
        rfl
      · rw [hsplit]
        exact hexBytes_append hbytes hspell

/-- **A line of digits** becomes its hash and two zero bytes. -/
theorem lineRecord_hashOf {line : Bytes} (h : StartsHex line) :
    ∃ hash, hashOf line = some hash ∧ lineRecord line = .ok (hash ++ [0, 0]) := by
  obtain ⟨hlen, hhex⟩ := h
  have hslice : slice line 0 40 = line.take 40 := rfl
  have htake : (line.take 40).length = 8 * (0 + 5) := by
    rw [List.length_take]
    omega
  obtain ⟨words, hwords, hbytes⟩ := hashWords_hexBytes hhex 5 0 htake
  refine ⟨words, (if_pos hlen).trans hbytes, ?_⟩
  rw [lineRecord, hslice, hwords]
  rfl

/-- Lines that begin with digits are those that have a hash. -/
theorem startsHex_iff {line : Bytes} : StartsHex line ↔ ∃ hash, hashOf line = some hash := by
  constructor
  · intro h
    obtain ⟨hash, hhash, -⟩ := lineRecord_hashOf h
    exact ⟨hash, hhash⟩
  · rintro ⟨hash, hhash⟩
    unfold hashOf at hhash
    split at hhash
    · rename_i hlen
      exact ⟨hlen, digits_of_hexBytes hhash⟩
    · cases hhash

/-! ## The buffer -/

/-- The record of line `k`. -/
theorem record_at {lines records : List Bytes}
    (h : List.Forall₂ (fun line record => 40 ≤ line.length ∧ lineRecord line = .ok record)
      lines records) :
    ∀ {k : ℕ} {line : Bytes}, lines[k]? = some line →
      ∃ record, records[k]? = some record ∧ 40 ≤ line.length ∧ lineRecord line = .ok record := by
  induction h with
  | nil =>
      intro k line hk
      cases hk
  | cons hrecord _ ih =>
      intro k line hk
      cases k with
      | zero =>
          obtain rfl := Option.some.inj hk
          exact ⟨_, rfl, hrecord⟩
      | succ k => exact ih hk

theorem length_records {lines records : List Bytes}
    (h : List.Forall₂ (fun line record => 40 ≤ line.length ∧ lineRecord line = .ok record)
      lines records) : ∀ r ∈ records, r.length = 22 := by
  induction h with
  | nil => exact fun r hr => (nomatch hr)
  | cons hrecord _ ih =>
      intro r hr
      rcases List.mem_cons.mp hr with rfl | hin
      · exact length_lineRecord hrecord.2
      · exact ih r hin

theorem length_flatten_records {records : List Bytes} (h : ∀ r ∈ records, r.length = 22) :
    records.flatten.length = 22 * records.length := by
  induction records with
  | nil => rfl
  | cons r records ih =>
      have hrest := ih fun x hx => h x (List.mem_cons_of_mem _ hx)
      rw [List.flatten_cons, List.length_append, h r (List.mem_cons_self ..), hrest,
        List.length_cons]
      omega

/-- Record `k` of a list of records. -/
theorem slice_flatten_records {records : List Bytes} (h : ∀ r ∈ records, r.length = 22) :
    ∀ {k : ℕ} {r : Bytes}, records[k]? = some r →
      slice records.flatten (22 * k) (22 * k + 22) = r := by
  induction records with
  | nil =>
      intro k r hr
      cases hr
  | cons r' records ih =>
      intro k r hr
      have hlen := h r' (List.mem_cons_self ..)
      cases k with
      | zero =>
          obtain rfl : r' = r := Option.some.inj hr
          rw [slice, List.flatten_cons, Nat.mul_zero, List.drop_zero, Nat.sub_zero, Nat.zero_add,
            ← hlen, List.take_left]
      | succ k =>
          -- behind the first record
          have hrest := ih (fun x hx => h x (List.mem_cons_of_mem _ hx))
            (show records[k]? = some r from hr)
          rw [slice, show 22 * k + 22 - 22 * k = 22 by omega] at hrest
          rw [slice, List.flatten_cons, show 22 * (k + 1) = r'.length + 22 * k by omega,
            ← List.drop_drop, List.drop_left,
            show r'.length + 22 * k + 22 - (r'.length + 22 * k) = 22 by omega]
          exact hrest

theorem length_header (n : ℕ) : (header n).length = 32 := rfl

/-- A slice behind the header. -/
theorem slice_header (n : ℕ) (b : Bytes) (i j : ℕ) :
    slice (header n ++ b) (32 + i) (32 + j) = slice b i j := by
  rw [slice, slice, ← List.drop_drop, ← length_header n, List.drop_left,
    Nat.add_sub_add_left]

/-- The number in the header. -/
theorem unpack_header {n : ℕ} (h : n < 2 ^ 32) (b : Bytes) :
    unpackLE (slice (header n ++ b) 28 32) = .ok n := by
  have hbytes : slice (header n ++ b) 28 32
      = [UInt8.ofNat n, UInt8.ofNat (n / 2 ^ 8), UInt8.ofNat (n / 2 ^ 16),
        UInt8.ofNat (n / 2 ^ 24)] := rfl
  have hsum : ((n / 2 ^ 24 % 256 * 256 + n / 2 ^ 16 % 256) * 256 + n / 2 ^ 8 % 256) * 256 + n % 256
      = n := by omega
  rw [hbytes]
  show Except.ok (((((UInt8.ofNat (n / 2 ^ 24)).toNat * 256 + (UInt8.ofNat (n / 2 ^ 16)).toNat) * 256
    + (UInt8.ofNat (n / 2 ^ 8)).toNat) * 256) + (UInt8.ofNat n).toNat) = _
  rw [UInt8.toNat_ofNat', UInt8.toNat_ofNat', UInt8.toNat_ofNat', UInt8.toNat_ofNat']
  exact congrArg Except.ok hsum

/-- Where every line that is not empty begins with digits, `create_tc` returns. -/
theorem create_tc_returns {hashes : List Bytes} (hlen : hashes.length < 2 ^ 32)
    (hhex : ∀ line ∈ nonempty hashes, StartsHex line) : ∃ tc, create_tc hashes = .ok tc := by
  have hloop : ∀ (ls : List Bytes), (∀ line ∈ nonempty ls, StartsHex line) →
      ∀ tc, ∃ tc', hashLoop ls tc = .ok tc' := by
    intro ls
    induction ls with
    | nil => exact fun _ tc => ⟨tc, rfl⟩
    | cons line ls ih =>
        intro h tc
        rw [hashLoop]
        by_cases hempty : line.length = 0
        · rw [if_pos hempty]
          rw [nonempty, List.filter_cons_of_neg (by simpa using hempty)] at h
          exact ih h tc
        · rw [nonempty, List.filter_cons_of_pos (by simpa using hempty)] at h
          -- a line that is not empty has its five words, so no statement raises
          have hline := h line (List.mem_cons_self ..)
          obtain ⟨words, hwords, -⟩ := hashWords_hexBytes hline.2 5 0 (by
            rw [List.length_take]
            have := hline.1
            omega)
          have hslice : slice line 0 40 = line.take 40 := rfl
          have happend : hashWords (line.take 40) 5 0 tc = .ok (tc ++ words) := by
            rw [hashWords_append, hwords]
            rfl
          rw [if_neg hempty, if_neg (not_not_intro hline.1), hslice]
          simp only [happend]
          exact ih (fun x hx => h x (List.mem_cons_of_mem _ hx)) _
  rw [create_tc_of_lt hlen]
  exact hloop hashes hhex _

/-! ## Well formed files -/

/-- The buffer is a trust cache for the lines: the prefix, the number of records and the
length, and in record `k` the hash of the `k`-th line that is not empty. -/
structure WellFormed (hashes : List Bytes) (tc : Bytes) : Prop where
  trustcaches : unpackLE (slice tc 0 4) = .ok 1
  offset : unpackLE (slice tc 4 8) = .ok 8
  version : unpackLE (slice tc 8 12) = .ok 1
  number : unpackLE (slice tc 28 32) = .ok (nonempty hashes).length
  length : tc.length = 32 + 22 * (nonempty hashes).length
  records : ∀ k line, (nonempty hashes)[k]? = some line → ∃ hash, hashOf line = some hash
    ∧ slice tc (32 + 22 * k) (32 + (22 * k + 22)) = hash ++ [0, 0]

theorem nonempty_eq_self {hashes : List Bytes} (h : ∀ line ∈ hashes, StartsHex line) :
    nonempty hashes = hashes := by
  refine List.filter_eq_self.mpr fun line hline => ?_
  have hlen := (h line hline).1
  simp only [decide_eq_true_eq]
  omega

/-- **When the file is well formed**: whenever `create_tc` returns, what it returns is
a trust cache for its lines if and only if every line begins with forty digits. -/
theorem wellFormed_iff {hashes : List Bytes} {tc : Bytes} (h : create_tc hashes = .ok tc) :
    WellFormed hashes tc ↔ ∀ line ∈ hashes, StartsHex line := by
  obtain ⟨hlt, records, hrecords, rfl⟩ := create_tc_ok h
  have hsizes := length_records hrecords
  constructor
  · intro hwell
    -- the number in the header is that of all lines
    have hcount : (nonempty hashes).length = hashes.length :=
      Except.ok.inj (hwell.number.symm.trans (unpack_header hlt _))
    -- so none of them is empty
    have hall : nonempty hashes = hashes :=
      List.filter_eq_self.mpr (List.length_filter_eq_length_iff.mp hcount)
    intro line hline
    obtain ⟨k, hk⟩ := List.mem_iff_getElem?.mp hline
    obtain ⟨hash, hhash, -⟩ := hwell.records k line (hall.symm ▸ hk)
    exact startsHex_iff.mpr ⟨hash, hhash⟩
  · intro hhex
    have hall := nonempty_eq_self hhex
    refine ⟨rfl, rfl, rfl, ?_, ?_, fun k line hk => ?_⟩
    · rw [hall]
      exact unpack_header hlt _
    · rw [List.length_append, length_header, length_flatten_records hsizes,
        hrecords.length_eq]
    · obtain ⟨r, hr, -, hrecord⟩ := record_at hrecords hk
      obtain ⟨hash, hhash, hline⟩ := lineRecord_hashOf (hhex line
        (hall ▸ List.mem_of_getElem? hk))
      refine ⟨hash, hhash, ?_⟩
      rw [slice_header, slice_flatten_records hsizes hr]
      exact Except.ok.inj (hrecord.symm.trans hline)

/-- The sixteen digits. -/
def upDigits : Bytes :=
  [0x30, 0x31, 0x32, 0x33, 0x34, 0x35, 0x36, 0x37, 0x38, 0x39, 0x61, 0x62, 0x63, 0x64, 0x65, 0x66]

/-- A line of forty digits, and the hash it spells. -/
def upLine : Bytes := upDigits ++ upDigits ++ upDigits.take 8
def upHash : Bytes :=
  [0x01, 0x23, 0x45, 0x67, 0x89, 0xab, 0xcd, 0xef, 0x01, 0x23, 0x45, 0x67, 0x89, 0xab, 0xcd, 0xef,
    0x01, 0x23, 0x45, 0x67]

/-- Another, with more behind the digits. -/
def downLine : Bytes := upDigits.reverse ++ upDigits.reverse ++ upDigits.take 8 ++ [0x20, 0x7a]
def downHash : Bytes :=
  [0xfe, 0xdc, 0xba, 0x98, 0x76, 0x54, 0x32, 0x10, 0xfe, 0xdc, 0xba, 0x98, 0x76, 0x54, 0x32, 0x10,
    0x01, 0x23, 0x45, 0x67]

theorem wellFormed_twoLines :
    create_tc [upLine, downLine] = .ok (header 2 ++ (upHash ++ [0, 0] ++ (downHash ++ [0, 0])))
      ∧ WellFormed [upLine, downLine] (header 2 ++ (upHash ++ [0, 0] ++ (downHash ++ [0, 0]))) := by
  have hreturn : create_tc [upLine, downLine]
      = .ok (header 2 ++ (upHash ++ [0, 0] ++ (downHash ++ [0, 0]))) := rfl
  have hhex : ∀ line ∈ [upLine, downLine], StartsHex line := by decide +kernel
  exact ⟨hreturn, (wellFormed_iff hreturn).mpr hhex⟩

/-- Forty zeros. -/
def zeroLine : Bytes := List.replicate 40 0x30

/-- With a blank line before it, the file says two and has one. -/
theorem blankLine_miscounted : ∃ tc, create_tc [[], zeroLine] = .ok tc
    ∧ unpackLE (slice tc 28 32) = .ok 2 ∧ tc.length = 32 + 22 * 1
    ∧ ¬ WellFormed [[], zeroLine] tc := by
  refine ⟨_, rfl, rfl, rfl, fun hwell => ?_⟩
  have hnumber := hwell.number
  cases hnumber

end XnuQemuTools.TrustCache
