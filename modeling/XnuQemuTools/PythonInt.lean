/-
The texts that `int(_, 16)` takes.

`int16` strips, looks for a sign and a prefix, and reads digits. `Numeral` is the same
from the other side, as a text that is put together: blanks, a sign, a prefix `0x`, digits
in groups with an underscore between them, and blanks again. All but the digits are
optional. The two agree (`int16_numeral`), and a number is never longer than its text
(`int16_lt`), so what a script does with `int16` can be said of the texts it is given.
-/
import XnuQemuTools.Python

set_option autoImplicit false

namespace XnuQemuTools.Python

/-! ## The notation -/

/-- A sign, or none, and whether it is a minus. -/
inductive Sign : Bytes → Bool → Prop
  | none : Sign [] false
  | plus : Sign [0x2b] false
  | minus : Sign [0x2d] true

/-- `0x`, which an underscore may follow, or nothing. -/
inductive Prefix : Bytes → Prop
  | none : Prefix []
  | letter {x : UInt8} (hx : x = 0x78 ∨ x = 0x58) : Prefix [0x30, x]
  | gap {x : UInt8} (hx : x = 0x78 ∨ x = 0x58) : Prefix [0x30, x, 0x5f]

/-- Digits, with at most one underscore between two of them. -/
inductive Grouped : Bytes → Prop
  | last {c : UInt8} (hc : (hexDigit c).isSome) : Grouped [c]
  | digit {c : UInt8} {b : Bytes} (hc : (hexDigit c).isSome) (h : Grouped b) : Grouped (c :: b)
  | underscore {c : UInt8} {b : Bytes} (hc : (hexDigit c).isSome) (h : Grouped b) :
      Grouped (c :: 0x5f :: b)

/-- A number in hexadecimal notation, with its digits. -/
def Numeral (b : Bytes) (minus : Bool) (body : Bytes) : Prop :=
  ∃ left sign pre right, b = left ++ (sign ++ (pre ++ body)) ++ right
    ∧ (∀ c ∈ left, isSpace c) ∧ (∀ c ∈ right, isSpace c) ∧ Sign sign minus ∧ Prefix pre
    ∧ Grouped body

/-- A number that is not negative: behind a minus there are only zeros. -/
def Natural (b : Bytes) : Prop :=
  ∃ minus body, Numeral b minus body ∧ (minus = true → ∀ c ∈ body, c = 0x30 ∨ c = 0x5f)

/-! ## Digits -/

theorem not_hexDigit_underscore : ¬ (hexDigit 0x5f).isSome := by decide

theorem Grouped.head {b : Bytes} (h : Grouped b) : ∃ c b', b = c :: b' ∧ (hexDigit c).isSome := by
  cases h with
  | last hc => exact ⟨_, _, rfl, hc⟩
  | digit hc _ => exact ⟨_, _, rfl, hc⟩
  | underscore hc _ => exact ⟨_, _, rfl, hc⟩

/-- No blank, no sign and no `x` stands among digits. -/
theorem Grouped.plain {b : Bytes} (h : Grouped b) :
    ∀ c ∈ b, isSpace c = false ∧ c ≠ 0x2b ∧ c ≠ 0x2d ∧ c ≠ 0x78 ∧ c ≠ 0x58 := by
  have hdigit : ∀ {c : UInt8}, (hexDigit c).isSome →
      isSpace c = false ∧ c ≠ 0x2b ∧ c ≠ 0x2d ∧ c ≠ 0x78 ∧ c ≠ 0x58 := fun hc =>
    have hplain := hexDigit_plain hc
    ⟨hplain.1, hplain.2.1, hplain.2.2.1, hplain.2.2.2.1, hplain.2.2.2.2.1⟩
  induction h with
  | last hc => exact List.forall_mem_singleton.mpr (hdigit hc)
  | digit hc _ ih => exact List.forall_mem_cons.mpr ⟨hdigit hc, ih⟩
  | underscore hc _ ih =>
      exact List.forall_mem_cons.mpr ⟨hdigit hc, List.forall_mem_cons.mpr ⟨by decide, ih⟩⟩

theorem hexDigit_eq_zero {c : UInt8} {d : ℕ} (h : hexDigit c = some d) : d = 0 ↔ c = 0x30 := by
  have hall : ∀ n < 256, ∀ d < 16, hexDigit (UInt8.ofNat n) = some d →
      (d = 0 ↔ UInt8.ofNat n = 0x30) := by
    decide +kernel
  have hbyte := hall c.toNat c.toNat_lt d (hexDigit_lt h)
  rw [UInt8.ofNat_toNat] at hbyte
  exact hbyte h

/-- What may stand behind a digit. -/
def Rest (b : Bytes) : Prop := b = [] ∨ Grouped b ∨ ∃ b', b = 0x5f :: b' ∧ Grouped b'

theorem grouped_cons {c : UInt8} {b : Bytes} : Grouped (c :: b) ↔ (hexDigit c).isSome ∧ Rest b := by
  constructor
  · intro h
    cases h with
    | last hc => exact ⟨hc, Or.inl rfl⟩
    | digit hc h => exact ⟨hc, Or.inr (Or.inl h)⟩
    | underscore hc h => exact ⟨hc, Or.inr (Or.inr ⟨_, rfl, h⟩)⟩
  · rintro ⟨hc, rfl | h | ⟨b', rfl, h⟩⟩
    · exact .last hc
    · exact .digit hc h
    · exact .underscore hc h

theorem not_grouped_underscore {b : Bytes} : ¬ Grouped (0x5f :: b) :=
  fun h => not_hexDigit_underscore (grouped_cons.mp h).1

theorem rest_underscore {b : Bytes} : Rest (0x5f :: b) ↔ Grouped b := by
  refine ⟨?_, fun h => Or.inr (Or.inr ⟨b, rfl, h⟩)⟩
  rintro (h | h | ⟨b', hcons, h⟩)
  · cases h
  · exact absurd h not_grouped_underscore
  · obtain ⟨-, rfl⟩ := List.cons_eq_cons.mp hcons
    exact h

theorem rest_cons {c : UInt8} {b : Bytes} (hc : c ≠ 0x5f) : Rest (c :: b) ↔ Grouped (c :: b) := by
  refine ⟨?_, fun h => Or.inr (Or.inl h)⟩
  rintro (h | h | ⟨b', h, -⟩)
  · cases h
  · exact h
  · exact absurd (List.cons_eq_cons.mp h).1 hc

/-- `digits` takes digits in groups. -/
theorem digits_isSome (b : Bytes) : ∀ n,
    ((digits true n b).isSome ↔ Grouped b) ∧ ((digits false n b).isSome ↔ Rest b) := by
  induction b with
  | nil =>
      intro n
      rw [digits, digits]
      exact ⟨iff_of_false Bool.false_ne_true (by rintro ⟨⟩), iff_of_true rfl (Or.inl rfl)⟩
  | cons c b ih =>
      intro n
      by_cases hunderscore : c = 0x5f
      · subst hunderscore
        rw [digits, digits, if_pos rfl, if_pos rfl, if_neg Bool.false_ne_true, rest_underscore]
        exact ⟨iff_of_false (by decide) not_grouped_underscore, (ih n).1⟩
      · rw [digits, digits, if_neg hunderscore, if_neg hunderscore, rest_cons hunderscore,
          and_self_iff, grouped_cons]
        rcases hc : hexDigit c with _ | d
        · exact iff_of_false Bool.false_ne_true fun h => Bool.false_ne_true h.1
        · exact (ih (n * 16 + d)).2.trans (and_iff_right rfl).symm

/-- How large a number can be, and when it is 0. -/
theorem digits_bounds (b : Bytes) : ∀ {gap : Bool} {n m : ℕ}, digits gap n b = some m →
    m < (n + 1) * 16 ^ b.length ∧ (m = 0 ↔ n = 0 ∧ ∀ c ∈ b, c = 0x30 ∨ c = 0x5f) := by
  induction b with
  | nil =>
      intro gap n m h
      rw [digits] at h
      obtain ⟨-, h⟩ := Option.ite_none_left_eq_some.mp h
      obtain rfl := Option.some.inj h
      exact ⟨by simp, ⟨fun h => ⟨h, List.forall_mem_nil _⟩, And.left⟩⟩
  | cons c b ih =>
      intro gap n m h
      rw [digits] at h
      split at h
      · rename_i hc
        obtain ⟨-, h⟩ := Option.ite_none_left_eq_some.mp h
        obtain ⟨hlt, hzero⟩ := ih h
        refine ⟨hlt.trans_le (Nat.mul_le_mul_left _ (Nat.pow_le_pow_right (by decide) (by simp))),
          ?_⟩
        rw [hzero, List.forall_mem_cons]
        simp [hc]
      · rename_i hc
        rcases hd : hexDigit c with _ | d
        · rw [hd] at h
          cases h
        · rw [hd] at h
          obtain ⟨hlt, hzero⟩ := ih h
          have hdigit := hexDigit_lt hd
          constructor
          · calc m < (n * 16 + d + 1) * 16 ^ b.length := hlt
              _ ≤ ((n + 1) * 16) * 16 ^ b.length := Nat.mul_le_mul_right _ (by omega)
              _ = (n + 1) * 16 ^ (c :: b).length := by
                rw [List.length_cons, pow_succ, Nat.mul_assoc, Nat.mul_comm 16]
          · rw [hzero, List.forall_mem_cons]
            simp only [hc, or_false, ← hexDigit_eq_zero hd]
            constructor
            · rintro ⟨h, hb⟩
              exact ⟨by omega, by omega, hb⟩
            · rintro ⟨rfl, rfl, hb⟩
              exact ⟨rfl, hb⟩

/-! ## The parts of a text -/

/-- Blanks around a text without blanks are stripped. -/
theorem strip_between {left b right : Bytes} (hleft : ∀ c ∈ left, isSpace c)
    (hright : ∀ c ∈ right, isSpace c) (hne : b ≠ []) (h : ∀ c ∈ b, isSpace c = false) :
    strip (left ++ b ++ right) = b := by
  obtain ⟨c, b', rfl⟩ := List.exists_cons_of_ne_nil hne
  have hdrop : (left ++ (c :: b') ++ right).dropWhile isSpace = (c :: b') ++ right := by
    rw [List.append_assoc, List.dropWhile_append_of_pos hleft, List.cons_append,
      List.dropWhile_cons_of_neg (by rw [h c (List.mem_cons_self ..)]; decide)]
  have hlast : (c :: b').rdropWhile isSpace = c :: b' := by
    refine List.rdropWhile_eq_self_iff.mpr fun hl => ?_
    rw [h _ (List.getLast_mem hl)]
    decide
  rw [strip, hdrop, List.rdropWhile, List.reverse_append,
    List.dropWhile_append_of_pos fun c hc => hright c (List.mem_reverse.mp hc)]
  exact hlast

/-- What `strip` takes away. -/
theorem strip_parts (b : Bytes) : ∃ left right, b = left ++ strip b ++ right
    ∧ (∀ c ∈ left, isSpace c) ∧ ∀ c ∈ right, isSpace c := by
  refine ⟨b.takeWhile isSpace, (b.dropWhile isSpace).rtakeWhile isSpace, ?_,
    fun c => List.mem_takeWhile_imp, fun c => List.mem_rtakeWhile_imp⟩
  rw [List.append_assoc, strip, List.rdropWhile_append_rtakeWhile, List.takeWhile_append_dropWhile]

theorem Sign.not_blank {sign : Bytes} {minus : Bool} (h : Sign sign minus) :
    ∀ c ∈ sign, isSpace c = false := by
  cases h with
  | none => exact List.forall_mem_nil _
  | plus => exact List.forall_mem_singleton.mpr rfl
  | minus => exact List.forall_mem_singleton.mpr rfl

theorem Prefix.plain {pre : Bytes} (h : Prefix pre) :
    ∀ c ∈ pre, isSpace c = false ∧ c ≠ 0x2b ∧ c ≠ 0x2d := by
  cases h with
  | none => exact List.forall_mem_nil _
  | letter hx =>
      rw [List.forall_mem_cons, List.forall_mem_singleton]
      rcases hx with rfl | rfl <;> decide
  | gap hx =>
      rw [List.forall_mem_cons, List.forall_mem_cons, List.forall_mem_singleton]
      rcases hx with rfl | rfl <;> decide

/-- What `splitSign` takes away. -/
theorem splitSign_parts (b : Bytes) :
    ∃ sign, b = sign ++ (splitSign b).2 ∧ Sign sign (splitSign b).1 := by
  unfold splitSign
  split
  · exact ⟨[0x2b], rfl, .plus⟩
  · exact ⟨[0x2d], rfl, .minus⟩
  · exact ⟨[], rfl, .none⟩

theorem splitSign_append {sign b : Bytes} {minus : Bool} (hsign : Sign sign minus)
    (h : ∀ c ∈ b, c ≠ 0x2b ∧ c ≠ 0x2d) : splitSign (sign ++ b) = (minus, b) := by
  cases hsign with
  | none => exact splitSign_of_plain h
  | plus => rfl
  | minus => rfl

/-- What `dropPrefix` takes away. -/
theorem dropPrefix_parts (b : Bytes) : ∃ pre, b = pre ++ dropPrefix b ∧ Prefix pre := by
  unfold dropPrefix
  split
  · split
    · rename_i x b hx
      split
      · exact ⟨[0x30, x, 0x5f], rfl, .gap hx⟩
      · exact ⟨[0x30, x], rfl, .letter hx⟩
    · exact ⟨[], rfl, .none⟩
  · exact ⟨[], rfl, .none⟩

theorem dropPrefix_append {pre body : Bytes} (hpre : Prefix pre) (h : Grouped body) :
    dropPrefix (pre ++ body) = body := by
  cases hpre with
  | none =>
      exact dropPrefix_of_plain fun c hc => ⟨(h.plain c hc).2.2.2.1, (h.plain c hc).2.2.2.2⟩
  | letter hx =>
      obtain ⟨c, b, rfl, hc⟩ := h.head
      have hne : c ≠ 0x5f := (hexDigit_plain hc).2.2.2.2.2
      simp [dropPrefix, hx, hne]
  | gap hx => simp [dropPrefix, hx]

/-! ## `int16` -/

/-- **The texts that `int16` takes, and their values.** -/
theorem int16_numeral (b : Bytes) (n : ℤ) : int16 b = .ok n ↔
    ∃ minus body m, Numeral b minus body ∧ digits true 0 body = some m
      ∧ n = if minus then -(m : ℤ) else m := by
  constructor
  · intro h
    obtain ⟨left, right, hb, hleft, hright⟩ := strip_parts b
    obtain ⟨sign, hstrip, hsign⟩ := splitSign_parts (strip b)
    obtain ⟨pre, hsplit, hpre⟩ := dropPrefix_parts (splitSign (strip b)).2
    unfold int16 at h
    rcases hm : digits true 0 (dropPrefix (splitSign (strip b)).2) with _ | m
    · simp only [hm] at h
      cases h
    · simp only [hm] at h
      refine ⟨_, _, m, ⟨left, sign, pre, right, ?_, hleft, hright, hsign, hpre, ?_⟩, hm,
        (Except.ok.inj h).symm⟩
      · rw [← hsplit, ← hstrip, ← hb]
      · exact ((digits_isSome _ 0).1).mp (by rw [hm]; rfl)
  · rintro ⟨minus, body, m, ⟨left, sign, pre, right, rfl, hleft, hright, hsign, hpre, h⟩, hm, rfl⟩
    have hplain : ∀ c ∈ pre ++ body, isSpace c = false ∧ c ≠ 0x2b ∧ c ≠ 0x2d := by
      intro c hc
      rcases List.mem_append.mp hc with hc | hc
      · exact hpre.plain c hc
      · exact ⟨(h.plain c hc).1, (h.plain c hc).2.1, (h.plain c hc).2.2.1⟩
    have hne : sign ++ (pre ++ body) ≠ [] := by
      obtain ⟨c, b, rfl, -⟩ := h.head
      simp
    have hstrip : strip (left ++ (sign ++ (pre ++ body)) ++ right) = sign ++ (pre ++ body) :=
      strip_between hleft hright hne
        (List.forall_mem_append.mpr ⟨hsign.not_blank, fun c hc => (hplain c hc).1⟩)
    unfold int16
    rw [hstrip, splitSign_append hsign fun c hc => (hplain c hc).2]
    simp only [dropPrefix_append hpre h, hm]

/-- A number is not longer than its text. -/
theorem int16_lt {b : Bytes} {n : ℤ} (h : int16 b = .ok n) : n < 16 ^ b.length := by
  obtain ⟨minus, body, m, ⟨left, sign, pre, right, hb, -⟩, hm, rfl⟩ := (int16_numeral b n).mp h
  have hlen : body.length ≤ b.length := by
    rw [hb]
    simp only [List.length_append]
    omega
  have hlt : m < 16 ^ b.length :=
    calc m < (0 + 1) * 16 ^ body.length := (digits_bounds body hm).1
      _ = 16 ^ body.length := by rw [Nat.zero_add, Nat.one_mul]
      _ ≤ 16 ^ b.length := Nat.pow_le_pow_right (by decide) hlen
  have hcast : (m : ℤ) < 16 ^ b.length := by exact_mod_cast hlt
  have hpos : (0 : ℤ) ≤ m := Int.natCast_nonneg m
  split <;> omega

/-- The texts whose value is not negative. -/
theorem int16_natural (b : Bytes) : (∃ n, int16 b = .ok n ∧ 0 ≤ n) ↔ Natural b := by
  constructor
  · rintro ⟨n, h, hpos⟩
    obtain ⟨minus, body, m, hnumeral, hm, rfl⟩ := (int16_numeral b n).mp h
    refine ⟨minus, body, hnumeral, fun hminus => ?_⟩
    rw [if_pos hminus] at hpos
    exact ((digits_bounds body hm).2.mp (by omega)).2
  · rintro ⟨minus, body, hnumeral, hzero⟩
    have hgrouped : Grouped body := by
      obtain ⟨-, -, -, -, -, -, -, -, -, h⟩ := hnumeral
      exact h
    obtain ⟨m, hm⟩ := Option.isSome_iff_exists.mp ((digits_isSome body 0).1.mpr hgrouped)
    refine ⟨_, (int16_numeral b _).mpr ⟨minus, body, m, hnumeral, hm, rfl⟩, ?_⟩
    split
    · rename_i hminus
      have hm0 : m = 0 := (digits_bounds body hm).2.mpr ⟨rfl, hzero hminus⟩
      omega
    · exact Int.natCast_nonneg m

end XnuQemuTools.Python
