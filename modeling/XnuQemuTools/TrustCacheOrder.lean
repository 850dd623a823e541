/-
The order of the hashes in the trust cache.

The kernel looks a hash up by binary search, so the script sorts; but it sorts the
lines, before it decodes them. `codes` is how lines compare, and `lineDigits` how their
hashes do (`hashOf_lt_iff`). The two orders differ where upper and lower case meet:
`B` is before `a` as a character and behind it as a digit. `Inverted` is a pair of
lines on which they differ, and `searchable_iff` is that such a pair is the only thing
that can go wrong. There is none among lines of lower case digits, which is how the
signing tools print them (`not_inverted_of_lower`).

Blank lines are sorted to the front and become no records, and what a line has behind
its hash only decides between lines of one hash.
-/
import XnuQemuTools.BinSearch
import XnuQemuTools.TrustCacheForm
import Mathlib.Data.List.Pairwise

set_option autoImplicit false

namespace XnuQemuTools.TrustCache

open Python BinSearch

/-! ## The order of lines and the order of hashes -/

/-- The forty digits of a line. -/
def lineDigits (line : Bytes) : List ℕ := (line.take 40).filterMap hexDigit

/-- Two lines of which the first is before the second as text, and its digits are behind
the other's. -/
def Inverted (x y : Bytes) : Prop := codes x < codes y ∧ lineDigits y < lineDigits x

instance (x y : Bytes) : Decidable (Inverted x y) := inferInstanceAs (Decidable (_ ∧ _))

/-- Bytes compare as the digits that spell them. -/
theorem hexBytes_lt_iff : ∀ {b b' bs bs' : Bytes}, hexBytes b = some bs → hexBytes b' = some bs' →
    b.length = b'.length → (codes bs < codes bs' ↔ b.filterMap hexDigit < b'.filterMap hexDigit)
  | [], [], bs, bs', h, h', _ => by
      obtain rfl := Option.some.inj h
      obtain rfl := Option.some.inj h'
      rfl
  | [c], _, bs, bs', h, _, _ => by cases h
  | _, [c], bs, bs', _, h', _ => by cases h'
  | c :: c' :: b, e :: e' :: b', bs, bs', h, h', hlen => by
      obtain ⟨d₁, d₂, cs, hd₁, hd₂, hcs, rfl⟩ := hexBytes_cons h
      obtain ⟨d₁', d₂', cs', hd₁', hd₂', hcs', rfl⟩ := hexBytes_cons h'
      have hlt₁ := hexDigit_lt hd₁
      have hlt₂ := hexDigit_lt hd₂
      have hlt₁' := hexDigit_lt hd₁'
      have hlt₂' := hexDigit_lt hd₂'
      have hrest := hexBytes_lt_iff hcs hcs' (by simpa using hlen)
      have hbyte : (UInt8.ofNat (d₁ * 16 + d₂)).toNat = d₁ * 16 + d₂ := by
        rw [UInt8.toNat_ofNat']
        exact Nat.mod_eq_of_lt (by omega)
      have hbyte' : (UInt8.ofNat (d₁' * 16 + d₂')).toNat = d₁' * 16 + d₂' := by
        rw [UInt8.toNat_ofNat']
        exact Nat.mod_eq_of_lt (by omega)
      rw [List.filterMap_cons_some hd₁, List.filterMap_cons_some hd₂,
        List.filterMap_cons_some hd₁', List.filterMap_cons_some hd₂']
      simp only [codes, List.map_cons, List.cons_lt_cons_iff, hbyte, hbyte'] at hrest ⊢
      rw [hrest]
      constructor
      · -- the first byte decides, by its first or its second digit, or the bytes behind it
        rintro (h | ⟨heq, h⟩)
        · by_cases hfirst : d₁ = d₁'
          · exact Or.inr ⟨hfirst, Or.inl (by omega)⟩
          · exact Or.inl (by omega)
        · exact Or.inr ⟨by omega, Or.inr ⟨by omega, h⟩⟩
      · rintro (h | ⟨rfl, h | ⟨rfl, h⟩⟩)
        · exact Or.inl (by omega)
        · exact Or.inl (by omega)
        · exact Or.inr ⟨rfl, h⟩

/-- **The hashes of two lines compare as their digits.** -/
theorem hashOf_lt_iff {x y a b : Bytes} (hx : hashOf x = some a) (hy : hashOf y = some b) :
    codes a < codes b ↔ lineDigits x < lineDigits y := by
  have hhex : ∀ {line hash : Bytes}, hashOf line = some hash →
      40 ≤ line.length ∧ hexBytes (line.take 40) = some hash := by
    intro line hash h
    unfold hashOf at h
    split at h
    · rename_i hlen
      exact ⟨hlen, h⟩
    · cases h
  obtain ⟨hxlen, hx⟩ := hhex hx
  obtain ⟨hylen, hy⟩ := hhex hy
  refine hexBytes_lt_iff hx hy ?_
  rw [List.length_take, List.length_take]
  omega

/-! ## The hashes of the file -/

/-- The hashes in the records of a trust cache. -/
def hashesOf (tc : Bytes) : List Bytes :=
  (List.range ((tc.length - 32) / 22)).map fun k => slice tc (32 + 22 * k) (32 + 22 * k + 20)

/-- The hash of a line that has one. -/
def hashIn (line : Bytes) : Bytes := (hashOf line).getD []

theorem hashOf_hashIn {line : Bytes} (h : StartsHex line) : hashOf line = some (hashIn line) := by
  obtain ⟨hash, hhash⟩ := startsHex_iff.mp h
  rw [hashIn, hhash, Option.getD_some]

theorem lineRecord_hashIn {line : Bytes} (h : StartsHex line) :
    lineRecord line = .ok (hashIn line ++ [0, 0]) := by
  obtain ⟨hash, hhash, hrecord⟩ := lineRecord_hashOf h
  rw [hrecord, hashIn, hhash, Option.getD_some]

theorem length_hashIn {line : Bytes} (h : StartsHex line) : (hashIn line).length = 20 := by
  have hlen := length_lineRecord (lineRecord_hashIn h)
  rw [List.length_append] at hlen
  simpa using hlen

/-- The hashes are those of the lines, in the order of the lines. -/
theorem hashesOf_create_tc {hashes : List Bytes} {tc : Bytes} (h : create_tc hashes = .ok tc)
    (hhex : ∀ line ∈ nonempty hashes, StartsHex line) :
    hashesOf tc = (nonempty hashes).map hashIn := by
  obtain ⟨-, records, hrecords, rfl⟩ := create_tc_ok h
  have hsizes := length_records hrecords
  have hnumber : ((header hashes.length ++ records.flatten).length - 32) / 22
      = (nonempty hashes).length := by
    rw [List.length_append, length_header, length_flatten_records hsizes, hrecords.length_eq]
    omega
  unfold hashesOf
  rw [hnumber]
  apply List.ext_getElem
  · rw [List.length_map, List.length_map, List.length_range]
  · intro k hk hk'
    rw [List.length_map] at hk'
    obtain ⟨r, hr, -, hrecord⟩ := record_at hrecords (List.getElem?_eq_getElem hk')
    have hline := hhex _ (List.getElem_mem hk')
    have hr' : r = hashIn (nonempty hashes)[k] ++ [0, 0] :=
      Except.ok.inj (hrecord.symm.trans (lineRecord_hashIn hline))
    have hwhole := slice_flatten_records hsizes hr
    rw [slice, show 22 * k + 22 - 22 * k = 22 by omega] at hwhole
    rw [List.getElem_map, List.getElem_map, List.getElem_range,
      show 32 + 22 * k + 20 = 32 + (22 * k + 20) by omega, slice_header, slice,
      show 22 * k + 20 - 22 * k = min 20 22 by omega, ← List.take_take, hwhole, hr',
      ← length_hashIn hline, List.take_left]

/-! ## Files -/

section Files

variable {hashes_txt tc : Bytes}

/-- The lines of the file, stripped. -/
def fileLines (hashes_txt : Bytes) : List Bytes := (splitlines hashes_txt).map strip

/-- Every line of the file is blank or begins with forty digits. -/
def Admissible (hashes_txt : Bytes) : Prop :=
  ∀ line ∈ fileLines hashes_txt, line = [] ∨ StartsHex line

instance (hashes_txt : Bytes) : Decidable (Admissible hashes_txt) :=
  inferInstanceAs (Decidable (∀ line ∈ fileLines hashes_txt, line = [] ∨ StartsHex line))

/-- Stripping keeps the digits a line begins with. -/
theorem startsHex_strip {line : Bytes} (h : StartsHex line) : StartsHex (strip line) := by
  obtain ⟨hlen, hhex⟩ := h
  have hplain : ∀ c ∈ line.take 40, isSpace c = false := fun c hc => (hexDigit_plain (hhex c hc)).1
  have hleft : line.dropWhile isSpace = line := by
    rcases line with - | ⟨c, rest⟩
    · rfl
    · have hfirst : isSpace c = false := hplain c (by simp)
      exact List.dropWhile_cons_of_neg (by simp [hfirst])
  -- the first forty characters stay, whatever is stripped behind them
  obtain ⟨rest, hrest⟩ : ∃ rest, strip line = line.take 40 ++ rest := by
    have hall : (line.take 40).reverse.dropWhile isSpace = (line.take 40).reverse := by
      refine List.dropWhile_eq_self_iff.mpr fun hl => ?_
      rw [hplain _ (List.mem_reverse.mp (List.getElem_mem hl))]
      decide
    rw [strip, hleft, List.rdropWhile]
    conv in line.reverse => rw [← List.take_append_drop 40 line, List.reverse_append]
    rw [List.dropWhile_append]
    split
    · rw [hall, List.reverse_reverse]
      exact ⟨[], (List.append_nil _).symm⟩
    · rw [List.reverse_append, List.reverse_reverse]
      exact ⟨_, rfl⟩
  have htake : (line.take 40).length = 40 := by
    rw [List.length_take]
    omega
  refine ⟨?_, ?_⟩
  · rw [hrest, List.length_append]
    omega
  · have hsame : (strip line).take 40 = line.take 40 := by
      rw [hrest, List.take_left' htake]
    rw [hsame]
    exact hhex

/-- The lines may be given as they are in the file, unstripped. -/
theorem admissible_of_splitlines
    (h : ∀ line ∈ splitlines hashes_txt, strip line = [] ∨ StartsHex line) :
    Admissible hashes_txt := by
  intro line hline
  obtain ⟨raw, hraw, rfl⟩ := List.mem_map.mp hline
  exact (h raw hraw).imp_right startsHex_strip

/-- The records can be searched: their hashes are in order, and a binary search finds
exactly the hashes that the lines spell, wherever it probes. -/
structure Searchable (hashes_txt tc : Bytes) : Prop where
  ordered : (hashesOf tc).Pairwise fun a b => codes a ≤ codes b
  found : ∀ (p : Probe) (hash : Bytes),
    search ((hashesOf tc).map codes) p (codes hash) 0 (hashesOf tc).length = true
      ↔ ∃ line ∈ fileLines hashes_txt, hashOf line = some hash

theorem mem_nonempty {line : Bytes} :
    line ∈ nonempty (hashLines hashes_txt) ↔ line ∈ fileLines hashes_txt ∧ line ≠ [] := by
  rw [nonempty, List.mem_filter, hashLines, (sorted_perm _).mem_iff]
  simp [fileLines]

theorem Admissible.startsHex (hadm : Admissible hashes_txt) :
    ∀ line ∈ nonempty (hashLines hashes_txt), StartsHex line := by
  intro line hline
  obtain ⟨hmem, hne⟩ := mem_nonempty.mp hline
  exact (hadm line hmem).resolve_left hne

/-- The script writes a file for what it is meant for. -/
theorem main_returns (hadm : Admissible hashes_txt)
    (hlen : (splitlines hashes_txt).length < 2 ^ 32) : ∃ tc, main hashes_txt = .ok tc := by
  refine create_tc_returns ?_ hadm.startsHex
  rw [hashLines, (sorted_perm _).length_eq, List.length_map]
  exact hlen

theorem lines_pairwise :
    (nonempty (hashLines hashes_txt)).Pairwise fun x y => codes x ≤ codes y :=
  (sorted_pairwise _).filter _

/-- In order, the hashes are found. -/
theorem found_of_ordered (hadm : Admissible hashes_txt) (h : main hashes_txt = .ok tc)
    (hordered : (hashesOf tc).Pairwise fun a b => codes a ≤ codes b) (p : Probe) (hash : Bytes) :
    search ((hashesOf tc).map codes) p (codes hash) 0 (hashesOf tc).length = true
      ↔ ∃ line ∈ fileLines hashes_txt, hashOf line = some hash := by
  have hsorted : ((hashesOf tc).map codes).Pairwise (· ≤ ·) := List.pairwise_map.mpr hordered
  have hsearch : search ((hashesOf tc).map codes) p (codes hash) 0 ((hashesOf tc).map codes).length
      = true ↔ codes hash ∈ (hashesOf tc).map codes := search_iff hsorted
  rw [List.length_map] at hsearch
  rw [hsearch, List.mem_map_of_injective codes_injective, hashesOf_create_tc h hadm.startsHex,
    List.mem_map]
  constructor
  · rintro ⟨line, hline, rfl⟩
    exact ⟨line, (mem_nonempty.mp hline).1, hashOf_hashIn (hadm.startsHex line hline)⟩
  · rintro ⟨line, hline, hhash⟩
    have hhex : StartsHex line := startsHex_iff.mpr ⟨hash, hhash⟩
    -- a blank line spells nothing
    have hne : line ≠ [] := by
      rintro rfl
      exact absurd hhex.1 (by decide)
    refine ⟨line, mem_nonempty.mpr ⟨hline, hne⟩, ?_⟩
    rw [hashIn, hhash, Option.getD_some]

/-- The two lines and their hashes are in the same order, one way or the other. -/
def Agree (x y : Bytes) : Prop :=
  (codes x ≤ codes y ∧ codes (hashIn x) ≤ codes (hashIn y))
    ∨ (codes y ≤ codes x ∧ codes (hashIn y) ≤ codes (hashIn x))

instance : Std.Symm Agree := ⟨fun _ _ => Or.symm⟩

/-- In order, no two lines are inverted: of two lines, the one sorted first has the
smaller hash. -/
theorem not_inverted_of_ordered (hadm : Admissible hashes_txt) (h : main hashes_txt = .ok tc)
    (hordered : (hashesOf tc).Pairwise fun a b => codes a ≤ codes b) {x y : Bytes}
    (hx : x ∈ fileLines hashes_txt) (hy : y ∈ fileLines hashes_txt) : ¬ Inverted x y := by
  rintro ⟨htext, hdigits⟩
  -- a blank line has no digits, and no text is before it
  have hnex : x ≠ [] := by
    rintro rfl
    exact absurd hdigits (List.not_lt_nil _)
  have hney : y ≠ [] := by
    rintro rfl
    exact absurd htext (List.not_lt_nil _)
  have hmemx := mem_nonempty.mpr ⟨hx, hnex⟩
  have hmemy := mem_nonempty.mpr ⟨hy, hney⟩
  rw [hashesOf_create_tc h hadm.startsHex, List.pairwise_map] at hordered
  have hboth : (nonempty (hashLines hashes_txt)).Pairwise Agree :=
    (lines_pairwise.and hordered).imp Or.inl
  -- two different lines are in the list in one order or the other
  have hpair := hboth.forall hmemx hmemy fun heq => lt_irrefl _ (heq ▸ htext)
  have hhash : codes (hashIn y) < codes (hashIn x) :=
    (hashOf_lt_iff (hashOf_hashIn (hadm.startsHex y hmemy))
      (hashOf_hashIn (hadm.startsHex x hmemx))).mpr hdigits
  rcases hpair with ⟨-, hle⟩ | ⟨hle, -⟩
  · exact not_lt.mpr hle hhash
  · exact not_lt.mpr hle htext

/-- Where no two lines are inverted, sorting the lines has sorted the hashes. -/
theorem ordered_of_not_inverted (hadm : Admissible hashes_txt) (h : main hashes_txt = .ok tc)
    (hnone : ∀ x ∈ fileLines hashes_txt, ∀ y ∈ fileLines hashes_txt, ¬ Inverted x y) :
    (hashesOf tc).Pairwise fun a b => codes a ≤ codes b := by
  rw [hashesOf_create_tc h hadm.startsHex, List.pairwise_map]
  refine lines_pairwise.imp_of_mem fun {x y} hx hy hle => not_lt.mp fun hhash => ?_
  have hdigits : lineDigits y < lineDigits x :=
    (hashOf_lt_iff (hashOf_hashIn (hadm.startsHex y hy))
      (hashOf_hashIn (hadm.startsHex x hx))).mp hhash
  have hne : codes x ≠ codes y := by
    intro heq
    rw [codes_injective heq] at hdigits
    exact lt_irrefl _ hdigits
  exact hnone x (mem_nonempty.mp hx).1 y (mem_nonempty.mp hy).1 ⟨lt_of_le_of_ne hle hne, hdigits⟩

/-- **When the records can be searched**: if and only if no two lines of the file
compare one way as text and the other way as digits. -/
theorem searchable_iff (hadm : Admissible hashes_txt) (h : main hashes_txt = .ok tc) :
    Searchable hashes_txt tc
      ↔ ∀ x ∈ fileLines hashes_txt, ∀ y ∈ fileLines hashes_txt, ¬ Inverted x y := by
  constructor
  · exact fun hsearch x hx y hy => not_inverted_of_ordered hadm h hsearch.ordered hx hy
  · intro hnone
    have hordered := ordered_of_not_inverted hadm h hnone
    exact ⟨hordered, found_of_ordered hadm h hordered⟩

end Files

/-! ## Lower case -/

/-- A digit that is not in upper case. -/
def IsLowerDigit (c : UInt8) : Prop := (hexDigit c).isSome ∧ ¬ (0x41 ≤ c ∧ c ≤ 0x46)

/-- Lower case digits are in the order of their values. -/
theorem lower_lt_iff {c e : UInt8} {d d' : ℕ} (hc : hexDigit c = some d)
    (he : hexDigit e = some d') (hlower : IsLowerDigit c) (hlower' : IsLowerDigit e) :
    c.toNat < e.toNat ↔ d < d' := by
  -- a digit is below `a` and its value below ten, or the other way round
  have hrange : ∀ {c : UInt8} {d : ℕ}, hexDigit c = some d → IsLowerDigit c →
      (c.toNat = d + 0x30 ∧ d < 10) ∨ (c.toNat = d + 0x57 ∧ 10 ≤ d) := by
    intro c d h hlow
    have h30 : (0x30 : UInt8).toNat = 0x30 := rfl
    have h39 : (0x39 : UInt8).toNat = 0x39 := rfl
    have h61 : (0x61 : UInt8).toNat = 0x61 := rfl
    unfold hexDigit at h
    split at h
    · rename_i hdigit
      have hlo := UInt8.le_iff_toNat_le.mp hdigit.1
      have hhi := UInt8.le_iff_toNat_le.mp hdigit.2
      cases h
      omega
    · split at h
      · rename_i hupper
        exact absurd hupper hlow.2
      · split at h
        · rename_i hletter
          have hlo := UInt8.le_iff_toNat_le.mp hletter.1
          cases h
          omega
        · cases h
  rcases hrange hc hlower with hc' | hc' <;> rcases hrange he hlower' with he' | he' <;> omega

theorem codes_lt_iff_of_lower : ∀ {b b' : Bytes}, (∀ c ∈ b, IsLowerDigit c) →
    (∀ c ∈ b', IsLowerDigit c) → b.length = b'.length →
    (codes b < codes b' ↔ b.filterMap hexDigit < b'.filterMap hexDigit)
  | [], [], _, _, _ => by rfl
  | [], _ :: _, _, _, hlen => by cases hlen
  | _ :: _, [], _, _, hlen => by cases hlen
  | c :: b, e :: b', h, h', hlen => by
      have hc := h c (List.mem_cons_self ..)
      have he := h' e (List.mem_cons_self ..)
      obtain ⟨d, hd⟩ := Option.isSome_iff_exists.mp hc.1
      obtain ⟨d', hd'⟩ := Option.isSome_iff_exists.mp he.1
      have hlt := lower_lt_iff hd hd' hc he
      have hgt := lower_lt_iff hd' hd he hc
      have heq : c.toNat = e.toNat ↔ d = d' := by omega
      have hrest := codes_lt_iff_of_lower (fun x hx => h x (List.mem_cons_of_mem _ hx))
        (fun x hx => h' x (List.mem_cons_of_mem _ hx)) (by simpa using hlen)
      rw [List.filterMap_cons_some hd, List.filterMap_cons_some hd']
      simp only [codes, List.map_cons, List.cons_lt_cons_iff] at hrest ⊢
      rw [hlt, heq, hrest]

/-- What follows does not change how two lists of one length compare, if they differ. -/
theorem append_lt_append_of_lt {t t' : List ℕ} : ∀ {a a' : List ℕ}, a.length = a'.length →
    a < a' → a ++ t < a' ++ t'
  | [], [], _, h => absurd h (lt_irrefl _)
  | [], _ :: _, hlen, _ => by cases hlen
  | _ :: _, [], hlen, _ => by cases hlen
  | x :: a, x' :: a', hlen, h => by
      rw [List.cons_append, List.cons_append, List.cons_lt_cons_iff]
      rcases List.cons_lt_cons_iff.mp h with hlt | ⟨heq, hlt⟩
      · exact Or.inl hlt
      · exact Or.inr ⟨heq, append_lt_append_of_lt (by simpa using hlen) hlt⟩

/-- **Lines in lower case are never inverted.** -/
theorem not_inverted_of_lower {x y : Bytes} (hx : 40 ≤ x.length) (hy : 40 ≤ y.length)
    (hlower : ∀ c ∈ x.take 40, IsLowerDigit c) (hlower' : ∀ c ∈ y.take 40, IsLowerDigit c) :
    ¬ Inverted x y := by
  rintro ⟨htext, hdigits⟩
  have hlen : (y.take 40).length = (x.take 40).length := by
    rw [List.length_take, List.length_take]
    omega
  have hprefix : codes (y.take 40) < codes (x.take 40) :=
    (codes_lt_iff_of_lower hlower' hlower hlen).mpr hdigits
  have hwhole : codes y < codes x := by
    rw [← List.take_append_drop 40 y, ← List.take_append_drop 40 x, codes, List.map_append, codes,
      List.map_append]
    exact append_lt_append_of_lt (by simpa [codes] using hlen) hprefix
  exact lt_asymm htext hwhole

/-! ## Two files -/

/-- A hash that begins with a given byte, and is zero from there. -/
def hashFrom (b : UInt8) : Bytes := b :: List.replicate 19 0

/-- A line that begins with a given character, and is zero from there. -/
def lineFrom (c : UInt8) : Bytes := c :: List.replicate 39 0x30

/-- The lines `a000…` and `b000…`. -/
def lowerFile : Bytes := lineFrom 0x61 ++ [0x0a] ++ lineFrom 0x62 ++ [0x0a]

/-- The lines `a000…` and `B000…`. -/
def mixedFile : Bytes := lineFrom 0x61 ++ [0x0a] ++ lineFrom 0x42 ++ [0x0a]

/-- The trust cache of two hashes. -/
def cacheOf (b b' : UInt8) : Bytes :=
  header 2 ++ hashFrom b ++ [0, 0] ++ hashFrom b' ++ [0, 0]

theorem searchable_lowerFile :
    main lowerFile = .ok (cacheOf 0xa0 0xb0) ∧ Searchable lowerFile (cacheOf 0xa0 0xb0) := by
  have hreturn : main lowerFile = .ok (cacheOf 0xa0 0xb0) := by decide +kernel
  have hadm : Admissible lowerFile := by decide +kernel
  exact ⟨hreturn, (searchable_iff hadm hreturn).mpr (by decide +kernel)⟩

/-- In the second file `B` is sorted before `a`. The search for the hash `b000…` looks at
the second record, `a000…`, and goes on behind it. -/
theorem mixedFile_unsearchable :
    main mixedFile = .ok (cacheOf 0xb0 0xa0) ∧ Admissible mixedFile
      ∧ hashesOf (cacheOf 0xb0 0xa0) = [hashFrom 0xb0, hashFrom 0xa0]
      ∧ search ([hashFrom 0xb0, hashFrom 0xa0].map codes) Probe.middle (codes (hashFrom 0xb0)) 0 2
        = false
      ∧ ¬ Searchable mixedFile (cacheOf 0xb0 0xa0) := by
  have hreturn : main mixedFile = .ok (cacheOf 0xb0 0xa0) := by decide +kernel
  have hadm : Admissible mixedFile := by decide +kernel
  have hhashes : hashesOf (cacheOf 0xb0 0xa0) = [hashFrom 0xb0, hashFrom 0xa0] := by
    decide +kernel
  have hless : codes (hashFrom 0xa0) < codes (hashFrom 0xb0) := by decide +kernel
  refine ⟨hreturn, hadm, hhashes, ?_, fun hsearch => ?_⟩
  · -- the first probe is at 1, and the interval behind it is empty
    rw [search, dif_pos (by decide)]
    show (if codes (hashFrom 0xa0) = codes (hashFrom 0xb0) then true
      else if codes (hashFrom 0xa0) < codes (hashFrom 0xb0) then search _ _ _ 2 2
      else search _ _ _ 0 1) = false
    rw [if_neg (ne_of_lt hless), if_pos hless, search, dif_neg (by decide)]
  · have hordered := hsearch.ordered
    rw [hhashes] at hordered
    have hle : codes (hashFrom 0xb0) ≤ codes (hashFrom 0xa0) :=
      List.rel_of_pairwise_cons hordered (List.mem_singleton.mpr rfl)
    exact not_lt.mpr hle hless

end XnuQemuTools.TrustCache
