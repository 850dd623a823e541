/-
`my_itoa`, which `common_hooks/src/utils.c` and `aleph_bdev_drv/src/utils.c` both have.

The first loop takes the digits off the number, the last one first, and puts them into an
array of 64 bytes; the second goes back through the array. A place of the array is an
index here, and one outside the array is a `Fault`. `my_itoa_eq` is that there is none,
that the loops end and that the text is `decimal`, whatever the array held before.
-/
import XnuQemuTools.CString
import XnuQemuTools.Loop

set_option autoImplicit false

namespace XnuQemuTools.Itoa

open CString Loop

/-! ## The two loops -/

/-- An access outside `digits`. -/
inductive Fault where
  | digits

/-- The variables of the first loop. -/
structure Taking where
  digits : List UInt8
  dp : ℕ
  num : UInt64

/-- `while (num)`. -/
def takeDigit (s : Taking) : Except Fault (Step Taking Taking) :=
  if s.num = 0 then .ok (.stop s)
  else if s.dp < s.digits.length then
    .ok (.next ⟨s.digits.set s.dp (0x30 + s.num % 10).toUInt8, s.dp + 1, s.num / 10⟩)
  else .error .digits

/-- The variables of the second loop; `str` is what has been written there. -/
structure Giving where
  dp : ℕ
  str : List UInt8

/-- `while (dp != digits)`. -/
def giveDigit (digits : List UInt8) (s : Giving) : Except Fault (Step Giving (List UInt8)) :=
  if s.dp = 0 then .ok (.stop s.str)
  else
    match digits[s.dp - 1]? with
    | some c => .ok (.next ⟨s.dp - 1, s.str ++ [c]⟩)
    | none => .error .digits

/-- `my_itoa`: the text it leaves at `str`, without the zero behind it. The array is as it
was found on the stack. The first loop has left the array when it has gone round more
often than the array has elements. -/
def my_itoa (digits : List UInt8) (num : UInt64) : Option (Except Fault (List UInt8)) :=
  if num = 0 then some (.ok [0x30])
  else
    match whileTrue takeDigit (digits.length + 1) ⟨digits, 0, num⟩ with
    | some (.ok s) => whileTrue (giveDigit s.digits) (s.dp + 1) ⟨s.dp, []⟩
    | some (.error e) => some (.error e)
    | none => none

/-! ## What they do -/

/-- The character of a digit. -/
theorem digit_char (num : UInt64) :
    (0x30 + num % 10).toUInt8 = UInt8.ofNat (num.toNat % 10).digitChar.toNat := by
  have hlt : num.toNat % 10 < 10 := Nat.mod_lt _ (by decide)
  have hmod : num % 10 = UInt64.ofNat (num.toNat % 10) := by
    apply UInt64.toNat_inj.mp
    rw [UInt64.toNat_mod, UInt64.toNat_ofNat_of_lt' (hlt.trans (by decide))]
    rfl
  rw [hmod]
  generalize num.toNat % 10 = d at hlt
  interval_cases d <;> rfl

theorem decimal_length_le {n : ℕ} (h : n < 2 ^ 64) : (decimal n).length ≤ 20 := by
  rw [decimal, List.length_map]
  exact (Nat.length_toDigits_le_iff (by decide) (by decide)).mpr (h.trans (by decide))

/-- One digit is taken. -/
theorem takeDigit_next {digits : List UInt8} {dp : ℕ} {num : UInt64} (hne : num ≠ 0)
    (hlt : dp < digits.length) : takeDigit ⟨digits, dp, num⟩ = .ok (.next
      ⟨digits.set dp (0x30 + num % 10).toUInt8, dp + 1, num / 10⟩) := by
  rw [takeDigit, if_neg hne, if_pos hlt]

/-- It is the last one of the number. -/
theorem take_set_digit {digits : List UInt8} {dp : ℕ} (num : UInt64) (hlt : dp < digits.length) :
    (digits.set dp (0x30 + num % 10).toUInt8).take (dp + 1)
      = digits.take dp ++ [UInt8.ofNat (num.toNat % 10).digitChar.toNat] := by
  rw [← digit_char, List.take_add_one, List.take_set_of_le (Nat.le_refl _),
    List.getElem?_set_self hlt]
  rfl

theorem div_ten_eq_zero {num : UInt64} : num / 10 = 0 ↔ num.toNat < 10 := by
  have hdiv : (num / 10).toNat = num.toNat / 10 := UInt64.toNat_div num 10
  have hzero : (0 : UInt64).toNat = 0 := rfl
  rw [← UInt64.toNat_inj, hdiv, hzero]
  omega

/-- The digits of a number that is not 0, the last one first, behind those taken before. -/
theorem takeDigit_loop (fuel : ℕ) : ∀ {digits : List UInt8} {dp : ℕ} {num : UInt64}, num ≠ 0 →
    dp + (decimal num.toNat).length ≤ digits.length → (decimal num.toNat).length < fuel →
    ∃ s, whileTrue takeDigit fuel ⟨digits, dp, num⟩ = some (.ok s) ∧ s.dp ≤ s.digits.length
      ∧ s.digits.take s.dp = digits.take dp ++ (decimal num.toNat).reverse := by
  induction fuel with
  | zero => exact fun _ _ h => absurd h (Nat.not_lt_zero _)
  | succ fuel ih =>
      intro digits dp num hne hroom hfuel
      have hpos := List.length_pos_of_ne_nil (decimal_ne_nil num.toNat)
      have hlt : dp < digits.length := by omega
      rw [whileTrue_next (takeDigit_next hne hlt)]
      by_cases hten : num.toNat < 10
      · -- the last digit, and then `num` is 0
        have hdecimal := decimal_lt hten
        obtain ⟨fuel, rfl⟩ : ∃ n, fuel = n + 1 := ⟨fuel - 1, by omega⟩
        refine ⟨_, whileTrue_stop (if_pos (div_ten_eq_zero.mpr hten)), ?_, ?_⟩
        · rw [List.length_set]
          exact hlt
        · rw [hdecimal, take_set_digit num hlt, Nat.mod_eq_of_lt hten]
          rfl
      · have hdecimal := decimal_ge (Nat.not_lt.mp hten)
        have hdiv : (num / 10).toNat = num.toNat / 10 := UInt64.toNat_div num 10
        have hlen : (decimal num.toNat).length = (decimal (num / 10).toNat).length + 1 := by
          rw [hdecimal, hdiv, List.length_append]
          rfl
        obtain ⟨s, hs, hle, hdigits⟩ := @ih (digits.set dp (0x30 + num % 10).toUInt8) (dp + 1) _
          (mt div_ten_eq_zero.mp hten) (by rw [List.length_set]; omega) (by omega)
        refine ⟨s, hs, hle, ?_⟩
        rw [hdigits, take_set_digit num hlt, hdecimal, hdiv, List.reverse_append,
          List.append_assoc]
        rfl

/-- The second loop writes the array backwards. -/
theorem giveDigit_loop (digits : List UInt8) (dp : ℕ) : ∀ {str : List UInt8},
    dp ≤ digits.length →
    whileTrue (giveDigit digits) (dp + 1) ⟨dp, str⟩
      = some (.ok (str ++ (digits.take dp).reverse)) := by
  induction dp with
  | zero =>
      intro str _
      have hbody : giveDigit digits ⟨0, str⟩ = .ok (.stop str) := if_pos rfl
      rw [whileTrue_stop hbody, List.take_zero, List.reverse_nil, List.append_nil]
  | succ dp ih =>
      intro str hle
      have hbody : giveDigit digits ⟨dp + 1, str⟩ = .ok (.next ⟨dp, str ++ [digits[dp]]⟩) := by
        rw [giveDigit, if_neg (Nat.succ_ne_zero dp)]
        simp only [Nat.add_sub_cancel, List.getElem?_eq_getElem (Nat.lt_of_succ_le hle)]
      rw [whileTrue_next hbody, ih (Nat.le_of_succ_le hle),
        List.take_succ_eq_append_getElem (Nat.lt_of_succ_le hle), List.reverse_append,
        List.append_assoc]
      rfl

/-- Both loops, for a number that is not 0: twenty places and one more iteration are enough. -/
theorem both_loops {digits : List UInt8} (hlen : 20 ≤ digits.length) {num : UInt64} (hne : num ≠ 0)
    {fuel : ℕ} (hfuel : 20 < fuel) :
    ∃ s, whileTrue takeDigit fuel ⟨digits, 0, num⟩ = some (.ok s) ∧ s.dp ≤ 20
      ∧ whileTrue (giveDigit s.digits) (s.dp + 1) ⟨s.dp, []⟩
        = some (.ok (decimal num.toNat)) := by
  have htwenty := decimal_length_le num.toNat_lt
  obtain ⟨s, hs, hle, hdigits⟩ := @takeDigit_loop fuel digits 0 num hne (by omega) (by omega)
  rw [List.take_zero, List.nil_append] at hdigits
  refine ⟨s, hs, ?_, ?_⟩
  · have hdp : s.dp = (decimal num.toNat).length := by
      rw [← List.length_take_of_le hle, hdigits, List.length_reverse]
    omega
  · rw [giveDigit_loop s.digits s.dp hle, hdigits, List.reverse_reverse, List.nil_append]

/-- **`my_itoa` writes the number.** -/
theorem my_itoa_eq {digits : List UInt8} (hlen : digits.length = 64) (num : UInt64) :
    my_itoa digits num = some (.ok (decimal num.toNat)) := by
  unfold my_itoa
  by_cases hzero : num = 0
  · subst hzero
    rw [if_pos rfl]
    rfl
  · obtain ⟨s, hs, -, hgive⟩ :=
      @both_loops digits (by omega) num hzero (digits.length + 1) (by omega)
    rw [if_neg hzero, hs]
    exact hgive

end XnuQemuTools.Itoa
