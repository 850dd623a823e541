/-
`my_itoa` with the buffer it writes to.

`Itoa` has the text that is written. Here the digits go through `cp` into a memory, from
`str` on, and the zero behind them does too; the array `digits` and `dp` are as before, and
the loops have a bound of their own, which is any that is large enough. Both copies of the
function, in `common_hooks/src/utils.c` and in `aleph_bdev_drv/src/utils.c`, are this one.

The second loop does to the memory what that of `Itoa` does to the text
(`giveDigit_onBuffer`), so the buffer is found to hold the text and the zero
(`my_itoa_refines`) without another induction. `my_itoa_decimal` is what a reader of the
buffer can rely on.
-/
import XnuQemuTools.Itoa
import XnuQemuTools.Memory

set_option autoImplicit false

namespace XnuQemuTools.ItoaBuffer

open CString Itoa Loop Memory

/-! ## With the buffer -/

/-- The variables of the second loop, and the memory. -/
structure Giving where
  dp : ℕ
  cp : ℕ
  m : Mem

/-- `while (dp != digits)`: `*cp++ = *--dp`. -/
def giveDigit (digits : List UInt8) (s : Giving) : Except Fault (Step Giving (ℕ × Mem)) :=
  if s.dp = 0 then .ok (.stop (s.cp, s.m))
  else
    match digits[s.dp - 1]? with
    | some c => .ok (.next ⟨s.dp - 1, s.cp + 1, Function.update s.m s.cp c⟩)
    | none => .error .digits

/-- What both branches end with: `*cp++ = '\0'` and `return str`. -/
def terminate (str : ℕ) (r : ℕ × Mem) : ℕ × Mem := (str, Function.update r.2 r.1 0)

/-- `my_itoa`, with at most `fuel` iterations of each loop: what it returns, and the memory. -/
def my_itoa (fuel : ℕ) (digits : List UInt8) (num : UInt64) (str : ℕ) (m : Mem) :
    Option (Except Fault (ℕ × Mem)) :=
  if num = 0 then some (.ok (terminate str (str + 1, Function.update m str 0x30)))
  else
    match whileTrue takeDigit fuel ⟨digits, 0, num⟩ with
    | some (.ok s) =>
        (whileTrue (giveDigit s.digits) fuel ⟨s.dp, str, m⟩).map (Except.map (terminate str))
    | some (.error e) => some (.error e)
    | none => none

/-! ## The text in the buffer -/

/-- The buffer when `s.str` has been written. -/
def onBuffer (str : ℕ) (m : Mem) (s : Itoa.Giving) : Giving :=
  ⟨s.dp, str + s.str.length, put m str s.str⟩

/-- A digit that is appended to the text is written behind it. -/
theorem giveDigit_onBuffer (digits : List UInt8) (str : ℕ) (m : Mem) (s : Itoa.Giving) :
    giveDigit digits (onBuffer str m s) = (Itoa.giveDigit digits s).map
      (Step.map (onBuffer str m) fun text => (str + text.length, put m str text)) := by
  unfold giveDigit Itoa.giveDigit onBuffer
  by_cases hdp : s.dp = 0
  · rw [if_pos hdp, if_pos hdp]
    rfl
  · rw [if_neg hdp, if_neg hdp]
    cases digits[s.dp - 1]? with
    | none => rfl
    | some c =>
        simp only [Except.map, Step.map, put_concat, List.length_append, List.length_singleton,
          Nat.add_assoc]

theorem terminate_put (str : ℕ) (m : Mem) (text : List UInt8) :
    terminate str (str + text.length, put m str text) = (str, put m str (text ++ [0])) := by
  rw [terminate, put_concat]

/-- **The buffer holds the text of `Itoa.my_itoa`**, and a zero. -/
theorem my_itoa_refines {digits : List UInt8} (hlen : digits.length = 64) (num : UInt64) (str : ℕ)
    (m : Mem) {fuel : ℕ} (hfuel : 20 < fuel) :
    my_itoa fuel digits num str m = (Itoa.my_itoa digits num).map
      (Except.map fun text => (str, put m str (text ++ [0]))) := by
  rw [my_itoa_eq hlen]
  show _ = some (Except.ok (str, put m str (decimal num.toNat ++ [0])))
  unfold my_itoa
  by_cases hzero : num = 0
  · subst hzero
    have hone : Function.update m str 0x30 = put m str [0x30] := by
      rw [← List.nil_append [0x30], put_concat, put_nil]
      rfl
    rw [if_pos rfl, hone]
    exact congrArg (some ∘ Except.ok) (terminate_put str m [0x30])
  · obtain ⟨s, hs, hdp, hgive⟩ := @both_loops digits (by omega) num hzero fuel hfuel
    have hstart : onBuffer str m ⟨s.dp, []⟩ = ⟨s.dp, str, m⟩ := by
      rw [onBuffer, put_nil]
      rfl
    -- the same loop on the buffer
    have hbuffer := whileTrue_map (onBuffer str m) _ (giveDigit_onBuffer s.digits str m) fuel
      ⟨s.dp, []⟩
    rw [whileTrue_mono (by omega : s.dp + 1 ≤ fuel) hgive, hstart] at hbuffer
    rw [if_neg hzero, hs]
    simp only [hbuffer, Option.map_some, Except.map, terminate_put]

/-! ## What can be read there -/

/-- The digits of a number are the characters from `0` to `9`. -/
theorem char_of_digitVal {c : UInt8} (h : digitVal c < 10) : 0x30 ≤ c ∧ c ≤ 0x39 := by
  unfold digitVal at h
  split_ifs at h with hdigit
  · exact hdigit
  all_goals omega

/-- **`my_itoa` prints decimal numbers.** Both loops end and stay within the array, and what
is written from `str` on is one to twenty digits, which are those of the number without a
zero in front, and a zero byte. Nothing else is written. -/
theorem my_itoa_decimal {digits : List UInt8} (hlen : digits.length = 64) (num : UInt64)
    (str : ℕ) (m : Mem) : ∃ text m',
      (∀ fuel, 20 < fuel → my_itoa fuel digits num str m = some (.ok (str, m')))
      ∧ 1 ≤ text.length ∧ text.length ≤ 20
      ∧ (∀ c ∈ text, 0x30 ≤ c ∧ c ≤ 0x39)
      ∧ value 10 text = num.toNat
      ∧ (num ≠ 0 → text.head? ≠ some 0x30)
      ∧ (∀ i (hi : i < text.length), m' (str + i) = text[i])
      ∧ m' (str + text.length) = 0
      ∧ ∀ a, a < str ∨ str + text.length < a → m' a = m a := by
  obtain ⟨hdigits, hvalue, hhead⟩ := decimal_digits num.toNat
  have hlength : (decimal num.toNat ++ [0]).length = (decimal num.toNat).length + 1 :=
    List.length_append
  refine ⟨decimal num.toNat, put m str (decimal num.toNat ++ [0]), fun fuel hfuel => ?_,
    List.length_pos_of_ne_nil (decimal_ne_nil _), decimal_length_le num.toNat_lt,
    fun c hc => char_of_digitVal (hdigits c hc), hvalue, fun hne => hhead ?_, fun i hi => ?_, ?_,
    fun a ha => put_outside (by omega)⟩
  · rw [my_itoa_refines hlen num str m hfuel, my_itoa_eq hlen]
    rfl
  · exact fun hzero => hne (UInt64.toNat_inj.mp hzero)
  · rw [put_inside m str (by omega), List.getElem_append_left hi]
  · rw [put_inside m str (by omega), List.getElem_concat_length rfl]

/-- The largest number, printed into a buffer of ones. -/
theorem my_itoa_decimal_largest : ∃ text m',
    (∀ fuel, 20 < fuel → my_itoa fuel (List.replicate 64 0) 0xffffffffffffffff 0x1000 (fun _ => 1)
      = some (.ok (0x1000, m')))
    ∧ text.length ≤ 20 ∧ value 10 text = 18446744073709551615
    ∧ m' (0x1000 + text.length) = 0 ∧ m' 0x0fff = 1 ∧ m' 0x1015 = 1 := by
  obtain ⟨text, m', hruns, -, hle, -, hvalue, -, -, hend, houtside⟩ :=
    @my_itoa_decimal (List.replicate 64 0) rfl 0xffffffffffffffff 0x1000 fun _ => 1
  refine ⟨text, m', hruns, hle, hvalue, hend, houtside _ (Or.inl ?_), houtside _ (Or.inr ?_)⟩
  · decide
  · omega

end XnuQemuTools.ItoaBuffer
