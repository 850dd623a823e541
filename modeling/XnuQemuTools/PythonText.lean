/-
Python's `str.split()` and `int(_, 0)`.

A script that talks to a program through its output takes the output apart at its
blanks and reads one of the words as a number. Here a text is a list of characters.
`split_word` takes the first word off; `int0_hex` reads back what `hex` or a padded
format has printed, and `int0_eq_none` says at a word's first character that it is no
number.

Of the digits that Python knows only those of ASCII are here, and not the limit on the
length of a decimal number.
-/
import Mathlib.Data.List.DropRight
import Mathlib.Data.Nat.Digits.Defs
import Mathlib.Tactic.IntervalCases

set_option autoImplicit false

namespace XnuQemuTools.PythonText

/-- A `str`. -/
abbrev Text : Type := List Char

/-! ## `str.split()` -/

/-- `str.isspace`. -/
def isSpace (c : Char) : Bool :=
  c ∈ [' ', '\t', '\n', '\u000b', '\u000c', '\r', '\u001c', '\u001d', '\u001e', '\u001f', '\u0085',
    '\u00a0', '\u1680', '\u2000', '\u2001', '\u2002', '\u2003', '\u2004', '\u2005', '\u2006',
    '\u2007', '\u2008', '\u2009', '\u200a', '\u2028', '\u2029', '\u202f', '\u205f', '\u3000']

/-- The words of a text, the first of which goes on a word that has been begun. -/
def splitFrom : Text → Text → List Text
  | word, [] => if word = [] then [] else [word]
  | word, c :: text =>
      if isSpace c then
        if word = [] then splitFrom [] text else word :: splitFrom [] text
      else splitFrom (word ++ [c]) text

/-- `text.split()`. -/
def split (text : Text) : List Text := splitFrom [] text

/-- `" ".join(words)`. -/
def unwords (words : List Text) : Text := List.intercalate [' '] words

/-- A word: no blanks. -/
def Word (w : Text) : Prop := ∀ c ∈ w, isSpace c = false

theorem word_of_all {w : Text} (h : (w.all fun c => !isSpace c) = true) : Word w := fun c hc => by
  simpa using List.all_eq_true.mp h c hc

theorem splitFrom_append {w : Text} (hw : Word w) (word text : Text) :
    splitFrom word (w ++ text) = splitFrom (word ++ w) text := by
  induction w generalizing word with
  | nil => rw [List.nil_append, List.append_nil]
  | cons c w ih =>
      obtain ⟨hc, hw⟩ := List.forall_mem_cons.mp hw
      rw [List.cons_append, splitFrom, hc, if_neg Bool.false_ne_true, ih hw, List.append_assoc,
        List.singleton_append]

/-- **The first word.** -/
theorem split_word {w : Text} (hw : Word w) (hne : w ≠ []) {c : Char} (hc : isSpace c = true)
    (text : Text) : split (w ++ c :: text) = w :: split text := by
  rw [split, splitFrom_append hw, List.nil_append, splitFrom, if_pos hc, if_neg hne, split]

theorem split_self {w : Text} (hw : Word w) (hne : w ≠ []) : split w = [w] := by
  have h := splitFrom_append hw [] []
  rw [List.append_nil, List.nil_append, splitFrom, if_neg hne] at h
  exact h

/-- A word that has been begun goes on. -/
theorem splitFrom_begun (text : Text) :
    ∀ {word : Text}, word ≠ [] → ∃ w rest, splitFrom word text = (word ++ w) :: rest := by
  induction text with
  | nil => exact fun {word} hne => ⟨[], [], by rw [splitFrom, if_neg hne, List.append_nil]⟩
  | cons c text ih =>
      intro word hne
      rw [splitFrom]
      split
      · exact ⟨[], splitFrom [] text, by rw [List.append_nil]⟩
      · obtain ⟨w, rest, h⟩ := ih (List.append_ne_nil_of_left_ne_nil hne [c])
        exact ⟨c :: w, rest, by rw [h, List.append_assoc, List.singleton_append]⟩

theorem split_cons {c : Char} (hc : isSpace c = false) (text : Text) :
    ∃ w rest, split (c :: text) = (c :: w) :: rest := by
  obtain ⟨w, rest, h⟩ := splitFrom_begun text (List.cons_ne_nil c [])
  exact ⟨w, rest, by rw [split, splitFrom, hc, if_neg Bool.false_ne_true, List.nil_append, h,
    List.singleton_append]⟩

/-- A blank at the end makes no difference. -/
theorem splitFrom_concat {c : Char} (hc : isSpace c = true) (text : Text) :
    ∀ word : Text, splitFrom word (text ++ [c]) = splitFrom word text := by
  induction text with
  | nil =>
      intro word
      simp only [List.nil_append, splitFrom, hc, if_true]
  | cons d text ih =>
      intro word
      rw [List.cons_append, splitFrom, splitFrom, ih, ih]

theorem split_concat {c : Char} (hc : isSpace c = true) (text : Text) :
    split (text ++ [c]) = split text := splitFrom_concat hc text []

/-! ## `int(_, 0)` -/

/-- The value of a digit or letter; 36 is no digit. -/
def digitVal (c : Char) : ℕ :=
  if '0' ≤ c ∧ c ≤ '9' then c.toNat - 48
  else if 'a' ≤ c ∧ c ≤ 'z' then c.toNat - 87
  else if 'A' ≤ c ∧ c ≤ 'Z' then c.toNat - 55
  else 36

/-- The number that goes on with the digits of a text. An underscore must have a digit on
either side; `gap` says that there is none on the left. -/
def digits (base : ℕ) : Bool → ℕ → Text → Option ℕ
  | gap, n, [] => if gap then none else some n
  | gap, n, c :: text =>
      if c = '_' then
        if gap then none else digits base true n text
      else if digitVal c < base then digits base false (n * base + digitVal c) text
      else none

/-- One underscore may follow a prefix. -/
def dropGap : Text → Text
  | '_' :: text => text
  | text => text

/-- A number without its sign. The prefix tells the base; with a zero in front and no
prefix it can only be zero. -/
def literal : Text → Option ℕ
  | '0' :: c :: text =>
      if c = 'x' ∨ c = 'X' then digits 16 true 0 (dropGap text)
      else if c = 'o' ∨ c = 'O' then digits 8 true 0 (dropGap text)
      else if c = 'b' ∨ c = 'B' then digits 2 true 0 (dropGap text)
      else (digits 10 true 0 ('0' :: c :: text)).filter (· = 0)
  | text => digits 10 true 0 text

/-- `text.strip()`. -/
def strip (text : Text) : Text := (text.dropWhile isSpace).rdropWhile isSpace

/-- `int(text, 0)`; `none` is a `ValueError`. -/
def int0 (text : Text) : Option ℤ :=
  match strip text with
  | '-' :: text => (literal text).map fun n : ℕ => -(n : ℤ)
  | '+' :: text => (literal text).map Int.ofNat
  | text => (literal text).map Int.ofNat

/-! ## Reading what has been printed -/

theorem strip_word {w : Text} (hw : Word w) : strip w = w := by
  have hleft : w.dropWhile isSpace = w := by
    cases w with
    | nil => rfl
    | cons c w => rw [List.dropWhile_cons, (List.forall_mem_cons.mp hw).1, if_neg Bool.false_ne_true]
  have hright : w.rdropWhile isSpace = w := by
    refine List.rdropWhile_eq_self_iff.mpr fun hne => ?_
    rw [hw _ (List.getLast_mem hne)]
    exact Bool.false_ne_true
  rw [strip, hleft, hright]

/-- The digits of base 16 as they are printed. -/
theorem digitVal_digitChar {d : ℕ} (hd : d < 16) :
    digitVal d.digitChar = d ∧ d.digitChar ≠ '_' ∧ isSpace d.digitChar = false := by
  interval_cases d <;> decide

theorem digits_zeros (k : ℕ) (gap : Bool) (text : Text) (hgap : gap = false ∨ 0 < k) :
    digits 16 gap 0 (List.replicate k '0' ++ text) = digits 16 false 0 text := by
  induction k generalizing gap with
  | zero =>
      obtain rfl := hgap.resolve_right (Nat.lt_irrefl 0)
      rfl
  | succ k ih => exact ih false (Or.inl rfl)

/-- Digits at the end of a number, the last of which stands for a remainder. -/
theorem digits_concat {base : ℕ} {d : ℕ} (hd : d < 16) (hbase : d < base) (text : Text) :
    ∀ {gap : Bool} {n m : ℕ}, digits base gap n text = some m →
      digits base gap n (text ++ [d.digitChar]) = some (m * base + d) := by
  obtain ⟨hval, hunderscore, -⟩ := digitVal_digitChar hd
  induction text with
  | nil =>
      intro gap n m h
      rw [digits] at h
      obtain ⟨-, hm⟩ := Option.ite_none_left_eq_some.mp h
      obtain rfl := Option.some.inj hm
      rw [List.nil_append, digits, if_neg hunderscore, hval, if_pos hbase]
      rfl
  | cons c text ih =>
      intro gap n m h
      rw [digits] at h
      rw [List.cons_append, digits]
      split at h
      · rename_i hc
        obtain ⟨hgap, h⟩ := Option.ite_none_left_eq_some.mp h
        rw [if_pos hc, if_neg hgap]
        exact ih h
      · rename_i hc
        obtain ⟨hlt, h⟩ := Option.ite_none_right_eq_some.mp h
        rw [if_neg hc, if_pos hlt]
        exact ih h

/-- The digits of `n` give `n`. -/
theorem digits_toDigits (gap : Bool) (n : ℕ) :
    digits 16 gap 0 (Nat.toDigits 16 n) = some n := by
  induction n using Nat.base_induction 16 (by decide) with
  | single d hd =>
      obtain ⟨hval, hunderscore, -⟩ := digitVal_digitChar hd
      rw [Nat.toDigits_of_lt_base hd, digits, if_neg hunderscore, hval, if_pos hd, Nat.zero_mul,
        Nat.zero_add]
      rfl
  | digit m d hd hm ih =>
      have hdiv : (16 * m + d) / 16 = m := by omega
      have hmod : (16 * m + d) % 16 = d := by omega
      rw [Nat.toDigits_of_base_le (by decide) (by omega : 16 ≤ 16 * m + d), hdiv, hmod,
        digits_concat hd hd _ ih, Nat.mul_comm]

theorem word_toDigits {b : ℕ} (hb : 1 < b) (hbase : b ≤ 16) (n : ℕ) : Word (Nat.toDigits b n) := by
  induction n using Nat.base_induction b hb with
  | single d hd =>
      rw [Nat.toDigits_of_lt_base hd]
      exact List.forall_mem_singleton.mpr (digitVal_digitChar (hd.trans_le hbase)).2.2
  | digit m d hd hm ih =>
      have hdiv : (b * m + d) / b = m := by
        rw [Nat.mul_add_div (by omega), Nat.div_eq_of_lt hd, Nat.add_zero]
      have hmod : (b * m + d) % b = d := by rw [Nat.mul_add_mod, Nat.mod_eq_of_lt hd]
      have hle : b ≤ b * m + d := (Nat.le_mul_of_pos_right b hm).trans (Nat.le_add_right _ d)
      rw [Nat.toDigits_of_base_le hb hle, hdiv, hmod]
      exact List.forall_mem_append.mpr
        ⟨ih, List.forall_mem_singleton.mpr (digitVal_digitChar (hd.trans_le hbase)).2.2⟩

/-- `0x`, zeros and the digits of `n`. -/
def padded (zeros n : ℕ) : Text :=
  '0' :: 'x' :: (List.replicate zeros '0' ++ Nat.toDigits 16 n)

theorem word_padded (zeros n : ℕ) : Word (padded zeros n) := by
  refine List.forall_mem_cons.mpr ⟨by decide, List.forall_mem_cons.mpr ⟨by decide, ?_⟩⟩
  refine List.forall_mem_append.mpr ⟨fun c hc => ?_, word_toDigits (by decide) le_rfl n⟩
  rw [List.eq_of_mem_replicate hc]
  decide

/-- A text that reads as a number does not begin with an underscore. -/
theorem dropGap_of_digits {base n m : ℕ} {text : Text} (h : digits base true n text = some m) :
    dropGap text = text := by
  cases text with
  | nil => rfl
  | cons c text =>
      unfold dropGap
      split
      · rename_i heq
        obtain ⟨rfl, -⟩ := List.cons_eq_cons.mp heq
        rw [digits, if_pos rfl, if_pos rfl] at h
        cases h
      · rfl

theorem literal_padded (zeros n : ℕ) : literal (padded zeros n) = some n := by
  have hdigits : digits 16 true 0 (List.replicate zeros '0' ++ Nat.toDigits 16 n) = some n := by
    cases zeros with
    | zero => exact digits_toDigits true n
    | succ k => exact (digits_zeros (k + 1) true _ (Or.inr k.succ_pos)).trans (digits_toDigits false n)
  rw [padded, literal, if_pos (Or.inl rfl), dropGap_of_digits hdigits, hdigits]

/-- **What was printed in base 16 reads back as the number.** -/
theorem int0_padded (zeros n : ℕ) : int0 (padded zeros n) = some (n : ℤ) := by
  rw [int0, strip_word (word_padded zeros n)]
  exact congrArg (Option.map Int.ofNat) (literal_padded zeros n)

theorem int0_neg_padded (zeros n : ℕ) : int0 ('-' :: padded zeros n) = some (-(n : ℤ)) := by
  have hword : Word ('-' :: padded zeros n) :=
    List.forall_mem_cons.mpr ⟨by decide, word_padded zeros n⟩
  rw [int0, strip_word hword]
  exact congrArg (Option.map fun n : ℕ => -(n : ℤ)) (literal_padded zeros n)

/-- What begins with neither a blank, a sign nor a digit is no number. -/
theorem int0_eq_none {c : Char} (hspace : isSpace c = false) (hsign : c ≠ '-' ∧ c ≠ '+')
    (hdigit : 10 ≤ digitVal c) (text : Text) : int0 (c :: text) = none := by
  have hleft : (c :: text).dropWhile isSpace = c :: text := by
    rw [List.dropWhile_cons, hspace, if_neg Bool.false_ne_true]
  obtain ⟨rest, hrest⟩ : ∃ rest, strip (c :: text) = c :: rest := by
    rw [strip, hleft]
    cases hstrip : (c :: text).rdropWhile isSpace with
    | nil =>
        have hall := List.rdropWhile_eq_nil_iff.mp hstrip c (List.mem_cons_self ..)
        rw [hspace] at hall
        cases hall
    | cons d rest =>
        obtain ⟨tail, htail⟩ := List.rdropWhile_prefix isSpace (c :: text)
        rw [hstrip, List.cons_append] at htail
        exact ⟨rest, by rw [(List.cons_eq_cons.mp htail).1]⟩
  have hlit : literal (c :: rest) = none := by
    have hzero : c ≠ '0' := by
      rintro rfl
      exact absurd hdigit (by decide)
    have hten : digits 10 true 0 (c :: rest) = none := by
      rw [digits]
      split
      · rfl
      · rw [if_neg (by omega)]
    unfold literal
    split
    · rename_i heq
      exact absurd (List.cons_eq_cons.mp heq).1 hzero
    · exact hten
  rw [int0, hrest]
  split
  · rename_i heq
    exact absurd (List.cons_eq_cons.mp heq).1 hsign.1
  · rename_i heq
    exact absurd (List.cons_eq_cons.mp heq).1 hsign.2
  · rw [hlit]
    rfl

end XnuQemuTools.PythonText
