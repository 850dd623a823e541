/-
C strings, and the functions of the C library that take them apart.

A string is the list of its bytes without the terminating zero. What `strtok` leaves in
the buffer for the next call is the rest of the string, so it is a function to the token
and that rest. Its tokens are the `fields` of the string, which are never empty: a
separator more, or one at either end, makes no difference.

`strtoul` is the one of base 0, where `unsigned long` has 64 bits. `Numeral t n` is the
notation it is meant for, a number written out from the first byte to the last; on such
text it gives that number (`strtoul_numeral`).
-/
import Mathlib.Tactic.Common
import Mathlib.Algebra.Ring.Nat
import Mathlib.Data.List.Basic
import Mathlib.Data.List.TakeWhile
import Mathlib.Tactic.IntervalCases

set_option autoImplicit false

namespace XnuQemuTools.CString

/-- The bytes of a literal, which is ASCII everywhere in the sources. -/
def ascii (s : String) : List UInt8 := s.toList.map fun c => UInt8.ofNat c.toNat

/-! ## `strtok` -/

section Strtok

variable {sep : UInt8}

/-- `strtok` with the one separator `sep`: the token, and what is left for the next
call. -/
def strtok (sep : UInt8) (s : List UInt8) : Option (List UInt8) × List UInt8 :=
  match s.dropWhile (· == sep) with
  | [] => (none, [])
  | c :: s => (some ((c :: s).takeWhile (· != sep)), ((c :: s).dropWhile (· != sep)).drop 1)

theorem strtok_sep (s : List UInt8) : strtok sep (sep :: s) = strtok sep s := by
  rw [strtok, List.dropWhile_cons_of_pos (p := (· == sep)) (beq_self_eq_true sep), strtok]

theorem strtok_cons {c : UInt8} (hc : c ≠ sep) (s : List UInt8) :
    strtok sep (c :: s)
      = (some (c :: s.takeWhile (· != sep)), (s.dropWhile (· != sep)).drop 1) := by
  have hbne : (c != sep) = true := bne_iff_ne.mpr hc
  have hhead : (c :: s).dropWhile (· == sep) = c :: s :=
    List.dropWhile_cons_of_neg (p := (· == sep)) (by rw [beq_iff_eq]; exact hc)
  rw [strtok, hhead]
  simp only [List.takeWhile_cons_of_pos (p := (· != sep)) hbne,
    List.dropWhile_cons_of_pos (p := (· != sep)) hbne]

private theorem all_bne {t : List UInt8} (ht : sep ∉ t) : ∀ x ∈ t, (x != sep) = true := by
  intro x hx
  exact bne_iff_ne.mpr (fun h => ht (h ▸ hx))

/-- A token that stands before a separator. -/
theorem strtok_append {t : List UInt8} (hne : t ≠ []) (ht : sep ∉ t) (s : List UInt8) :
    strtok sep (t ++ sep :: s) = (some t, s) := by
  cases t with
  | nil => exact absurd rfl hne
  | cons c t =>
      have hc : c ≠ sep := fun h => ht (h ▸ List.mem_cons_self)
      have htail : ∀ x ∈ t, (x != sep) = true := all_bne (fun h => ht (List.mem_cons_of_mem c h))
      have hstop : (sep != sep) = false := bne_self_eq_false sep
      rw [List.cons_append, strtok_cons hc, List.takeWhile_append_of_pos htail,
        List.dropWhile_append_of_pos htail]
      simp only [List.takeWhile_cons, List.dropWhile_cons, hstop, Bool.false_eq_true, if_false,
        List.append_nil, List.drop_one, List.tail_cons]

/-- A token at the end. -/
theorem strtok_last {t : List UInt8} (hne : t ≠ []) (ht : sep ∉ t) :
    strtok sep t = (some t, []) := by
  cases t with
  | nil => exact absurd rfl hne
  | cons c t =>
      have hc : c ≠ sep := fun h => ht (h ▸ List.mem_cons_self)
      have htail : ∀ x ∈ t, (x != sep) = true := all_bne (fun h => ht (List.mem_cons_of_mem c h))
      rw [strtok_cons hc, List.takeWhile_eq_self_iff.mpr htail,
        List.dropWhile_eq_nil_iff.mpr htail, List.drop_nil]

/-- What is left after a token is shorter. -/
theorem strtok_length {s t : List UInt8} (h : (strtok sep s).1 = some t) :
    (strtok sep s).2.length < s.length := by
  induction s with
  | nil => exact absurd h (Option.some_ne_none t).symm
  | cons c s ih =>
      by_cases hc : c = sep
      · subst hc
        rw [strtok_sep] at h ⊢
        exact (ih h).trans (Nat.lt_succ_self _)
      · rw [strtok_cons hc, List.length_drop, List.length_cons]
        have hle : (s.dropWhile (· != sep)).length ≤ s.length :=
          (List.dropWhile_suffix _).length_le
        omega

/-- The tokens `strtok` hands out, call after call. -/
def fields (sep : UInt8) (s : List UInt8) : List (List UInt8) :=
  match _h : (strtok sep s).1 with
  | none => []
  | some t => t :: fields sep (strtok sep s).2
termination_by s.length
decreasing_by exact strtok_length _h

theorem strtok_head (s : List UInt8) : (strtok sep s).1 = (fields sep s).head? := by
  rw [fields]
  split
  · next h => rw [h]; rfl
  · next h => rw [h]; rfl

/-- Once there is no token, nothing is left. -/
theorem strtok_none {s : List UInt8} (h : (strtok sep s).1 = none) : (strtok sep s).2 = [] := by
  rw [strtok] at h ⊢
  split at h
  · rfl
  · exact absurd h (Option.some_ne_none _)

theorem fields_nil : fields sep [] = [] := by
  rw [fields]
  rfl

theorem strtok_tail (s : List UInt8) : fields sep (strtok sep s).2 = (fields sep s).tail := by
  cases h : (strtok sep s).1 with
  | none =>
      have hs : fields sep s = [] := List.head?_eq_none_iff.mp (by rw [← strtok_head, h])
      rw [strtok_none h, fields_nil, hs, List.tail_nil]
  | some t =>
      conv_rhs => rw [fields]
      split
      · next h' => rw [h] at h'; exact absurd h' (Option.some_ne_none t)
      · rw [List.tail_cons]

theorem fields_append {t : List UInt8} (hne : t ≠ []) (ht : sep ∉ t) (s : List UInt8) :
    fields sep (t ++ sep :: s) = t :: fields sep s := by
  have hs := strtok_append hne ht s
  rw [fields]
  split
  · next h => rw [hs] at h; exact absurd h (Option.some_ne_none t)
  · next h => rw [hs] at h ⊢; rw [Option.some.inj h]

theorem fields_last {t : List UInt8} (hne : t ≠ []) (ht : sep ∉ t) : fields sep t = [t] := by
  have hs := strtok_last hne ht
  rw [fields]
  split
  · next h => rw [hs] at h; exact absurd h (Option.some_ne_none t)
  · next h => rw [hs] at h ⊢; rw [Option.some.inj h, fields_nil]

end Strtok

/-! ## `strncpy` -/

/-- The `n` bytes that `strncpy` writes: cut off at `n`, or filled up with zeros. -/
def strncpy (src : List UInt8) (n : ℕ) : List UInt8 := (src ++ List.replicate n 0).take n

/-- A source that is shorter than the buffer is terminated in it. -/
theorem strncpy_of_lt {src : List UInt8} {n : ℕ} (h : src.length < n) :
    strncpy src n = src ++ List.replicate (n - src.length) 0 := by
  rw [strncpy, List.take_append, List.take_of_length_le h.le, List.take_replicate,
    Nat.min_eq_left (Nat.sub_le n src.length)]

/-! ## `strtoul` -/

section Strtoul

/-- The value of a digit or letter, 36 for any other byte. -/
def digitVal (c : UInt8) : ℕ :=
  if 0x30 ≤ c ∧ c ≤ 0x39 then c.toNat - 0x30
  else if 0x41 ≤ c ∧ c ≤ 0x5a then c.toNat - 0x41 + 10
  else if 0x61 ≤ c ∧ c ≤ 0x7a then c.toNat - 0x61 + 10
  else 36

/-- The value of digits in base `b`. -/
def value (b : ℕ) (t : List UInt8) : ℕ := t.foldl (fun n c => n * b + digitVal c) 0

/-- `isspace` in the C locale. -/
def isspace (c : UInt8) : Bool := c == 0x20 || (0x09 ≤ c && c ≤ 0x0d)

/-- The optional sign, and whether it is a minus. -/
def sign : List UInt8 → Bool × List UInt8
  | c :: s => if c = 0x2d then (true, s) else if c = 0x2b then (false, s) else (false, c :: s)
  | [] => (false, [])

/-- What base 0 makes of the first bytes. A prefix `0x` counts only before a hexadecimal
digit; otherwise its zero is an octal number. -/
def prefixBase : List UInt8 → ℕ × List UInt8
  | a :: x :: c :: s =>
      if a = 0x30 then
        if (x = 0x78 ∨ x = 0x58) ∧ digitVal c < 16 then (16, c :: s) else (8, a :: x :: c :: s)
      else (10, a :: x :: c :: s)
  | a :: s => if a = 0x30 then (8, a :: s) else (10, a :: s)
  | [] => (10, [])

/-- `strtoul(s, NULL, 0)`: the value, and whether `errno` is set. A C library may set it
where there is nothing to convert, but need not: that is `einval`. -/
def strtoul (einval : Bool) (s : List UInt8) : UInt64 × Bool :=
  let (minus, s) := sign (s.dropWhile isspace)
  let (b, s) := prefixBase s
  let digits := s.takeWhile (digitVal · < b)
  let n := value b digits
  if digits = [] then (0, einval)
  else if 2 ^ 64 ≤ n then (UInt64.ofNat (2 ^ 64 - 1), true)
  else (if minus then 0 - UInt64.ofNat n else UInt64.ofNat n, false)

/-- The numbers of base 0, without blanks or a sign: decimal, octal after `0`, hexadecimal
after `0x`. -/
inductive Numeral : List UInt8 → ℕ → Prop
  | decimal {t : List UInt8} (hne : t ≠ []) (hhead : t.head? ≠ some 0x30)
      (hdigits : ∀ c ∈ t, digitVal c < 10) : Numeral t (value 10 t)
  | octal {t : List UInt8} (hdigits : ∀ c ∈ t, digitVal c < 8) :
      Numeral (0x30 :: t) (value 8 t)
  | hexadecimal {x : UInt8} {t : List UInt8} (hx : x = 0x78 ∨ x = 0x58) (hne : t ≠ [])
      (hdigits : ∀ c ∈ t, digitVal c < 16) : Numeral (0x30 :: x :: t) (value 16 t)

/-- A digit is no blank and no sign. -/
theorem digit_ge {c : UInt8} (h : digitVal c < 36) : 0x30 ≤ c := by
  unfold digitVal at h
  split_ifs at h with h1 h2 h3
  · exact h1.1
  · exact UInt8.le_trans (by decide) h2.1
  · exact UInt8.le_trans (by decide) h3.1
  · exact absurd h (Nat.lt_irrefl 36)

theorem isspace_digit {c : UInt8} (h : digitVal c < 36) : isspace c = false := by
  have hge : 0x30 ≤ c.toNat := UInt8.le_iff_toNat_le.mp (digit_ge h)
  have hspace : c ≠ 0x20 := fun e => by rw [e] at hge; exact absurd hge (by decide)
  have hcr : ¬ c ≤ 0x0d := fun hle => by
    have hle' : c.toNat ≤ 0x0d := UInt8.le_iff_toNat_le.mp hle
    omega
  rw [isspace, beq_false_of_ne hspace, decide_eq_false hcr, Bool.and_false, Bool.or_false]

theorem sign_digit {c : UInt8} (h : digitVal c < 36) (t : List UInt8) :
    sign (c :: t) = (false, c :: t) := by
  have hge : (0x30 : UInt8) ≤ c := digit_ge h
  have hminus : c ≠ 0x2d := fun e => by rw [e] at hge; exact absurd hge (by decide)
  have hplus : c ≠ 0x2b := fun e => by rw [e] at hge; exact absurd hge (by decide)
  rw [sign, if_neg hminus, if_neg hplus]

/-- Every byte of a number is a digit or a letter. -/
theorem Numeral.alphanumeric {t : List UInt8} {n : ℕ} (h : Numeral t n) :
    ∀ c ∈ t, digitVal c < 36 := by
  intro c hc
  cases h with
  | decimal _ _ hd => exact (hd c hc).trans (by decide)
  | octal hd =>
      rcases List.mem_cons.mp hc with rfl | hc
      · decide
      · exact (hd c hc).trans (by decide)
  | hexadecimal hx _ hd =>
      rcases List.mem_cons.mp hc with rfl | hc
      · decide
      · rcases List.mem_cons.mp hc with rfl | hc
        · rcases hx with rfl | rfl <;> decide
        · exact (hd c hc).trans (by decide)

theorem Numeral.ne_nil {t : List UInt8} {n : ℕ} (h : Numeral t n) : t ≠ [] := by
  cases h with
  | decimal hne _ _ => exact hne
  | octal _ => exact List.cons_ne_nil _ _
  | hexadecimal _ _ _ => exact List.cons_ne_nil _ _

/-- A number starts with a decimal digit. -/
theorem Numeral.head_digit {t : List UInt8} {n : ℕ} (h : Numeral t n) :
    ∃ c s, t = c :: s ∧ digitVal c < 10 := by
  cases h with
  | decimal hne _ hd =>
      obtain ⟨c, s, rfl⟩ := List.exists_cons_of_ne_nil hne
      exact ⟨c, s, rfl, hd c List.mem_cons_self⟩
  | octal _ => exact ⟨_, _, rfl, by decide⟩
  | hexadecimal _ _ _ => exact ⟨_, _, rfl, by decide⟩

/-- The prefix of a number says in which base the rest is to be read. -/
theorem Numeral.prefixBase {t : List UInt8} {n : ℕ} (h : Numeral t n) :
    ∃ b ds, prefixBase t = (b, ds) ∧ ds ≠ [] ∧ (∀ c ∈ ds, digitVal c < b) ∧ value b ds = n := by
  cases h with
  | decimal hne hhead hd =>
      refine ⟨10, t, ?_, hne, hd, rfl⟩
      match t, hne, hhead with
      | [a], _, hhead | [a, _], _, hhead | a :: _ :: _ :: _, _, hhead =>
          have ha : a ≠ 0x30 := fun e => hhead (congrArg some e)
          exact if_neg ha
  | @octal ds hd =>
      refine ⟨8, 0x30 :: ds, ?_, List.cons_ne_nil _ _, ?_, rfl⟩
      · match ds, hd with
        | [], _ | [_], _ => rfl
        | x :: c :: ds, hd =>
            have hx : digitVal x < 8 := hd x List.mem_cons_self
            have hno : ¬ ((x = 0x78 ∨ x = 0x58) ∧ digitVal c < 16) := by
              rintro ⟨rfl | rfl, _⟩
              · exact absurd hx (by decide)
              · exact absurd hx (by decide)
            rw [CString.prefixBase, if_pos rfl, if_neg hno]
      · intro c hc
        rcases List.mem_cons.mp hc with rfl | hc
        · decide
        · exact hd c hc
  | @hexadecimal x ds hx hne hd =>
      match ds, hne, hd with
      | c :: ds, _, hd =>
          refine ⟨16, c :: ds, ?_, List.cons_ne_nil _ _, hd, rfl⟩
          rw [CString.prefixBase, if_pos rfl, if_pos ⟨hx, hd c List.mem_cons_self⟩]

/-- On a number `strtoul` returns its value. -/
theorem strtoul_numeral (einval : Bool) {t : List UInt8} {n : ℕ} (h : Numeral t n)
    (hn : n < 2 ^ 64) : strtoul einval t = (UInt64.ofNat n, false) := by
  obtain ⟨c, t, rfl⟩ := List.exists_cons_of_ne_nil h.ne_nil
  have hc : digitVal c < 36 := h.alphanumeric c List.mem_cons_self
  obtain ⟨b, ds, hb, hne, hds, hv⟩ := h.prefixBase
  have hspace : (c :: t).dropWhile isspace = c :: t :=
    List.dropWhile_cons_of_neg (by rw [isspace_digit hc]; exact Bool.false_ne_true)
  have htake : ds.takeWhile (digitVal · < b) = ds :=
    List.takeWhile_eq_self_iff.mpr (fun x hx => decide_eq_true (hds x hx))
  rw [strtoul, hspace, sign_digit hc]
  simp only [hb, htake, hv, if_neg hne, if_neg hn.not_ge, Bool.false_eq_true, if_false]

/-! ## Plain decimal -/

/-- What `%u` prints. -/
def decimal (n : ℕ) : List UInt8 := (Nat.toDigits 10 n).map fun c => UInt8.ofNat c.toNat

private theorem digitVal_digitChar {d : ℕ} (hd : d < 10) :
    digitVal (UInt8.ofNat d.digitChar.toNat) = d := by
  interval_cases d <;> rfl

theorem decimal_ne_nil (n : ℕ) : decimal n ≠ [] :=
  List.map_eq_nil_iff.not.mpr Nat.toDigits_ne_nil

theorem decimal_ge {n : ℕ} (hn : 10 ≤ n) :
    decimal n = decimal (n / 10) ++ [UInt8.ofNat (n % 10).digitChar.toNat] := by
  rw [decimal, Nat.toDigits_of_base_le (by decide) hn, List.map_append]
  rfl

theorem decimal_lt {n : ℕ} (hn : n < 10) : decimal n = [UInt8.ofNat n.digitChar.toNat] := by
  rw [decimal, Nat.toDigits_of_lt_base hn]
  rfl

/-- The digits of `n` are decimal, their value is `n`, and only that of zero starts with a
zero. The induction is on the number of digits. -/
theorem decimal_digits (n : ℕ) :
    (∀ c ∈ decimal n, digitVal c < 10) ∧ value 10 (decimal n) = n ∧
      (n ≠ 0 → (decimal n).head? ≠ some 0x30) := by
  induction n using Nat.base_induction 10 (by decide) with
  | single d hd =>
      rw [decimal_lt hd]
      have hv := digitVal_digitChar hd
      refine ⟨?_, ?_, ?_⟩
      · intro c hc
        rw [List.mem_singleton.mp hc, hv]
        exact hd
      · show 0 * 10 + _ = d
        rw [hv, Nat.zero_mul, Nat.zero_add]
      · intro hne hhead
        have h0 : UInt8.ofNat d.digitChar.toNat = 0x30 := Option.some.inj hhead
        rw [h0] at hv
        exact hne hv.symm
  | digit m d hd hm ih =>
      have hge : 10 ≤ 10 * m + d := by omega
      have hdiv : (10 * m + d) / 10 = m := by omega
      have hmod : (10 * m + d) % 10 = d := by omega
      obtain ⟨ihd, ihv, ihh⟩ := ih
      have hv := digitVal_digitChar hd
      rw [decimal_ge hge, hdiv, hmod]
      refine ⟨?_, ?_, ?_⟩
      · intro c hc
        rcases List.mem_append.mp hc with hc | hc
        · exact ihd c hc
        · rw [List.mem_singleton.mp hc, hv]
          exact hd
      · rw [value, List.foldl_append]
        show value 10 (decimal m) * 10 + _ = _
        rw [ihv, hv, Nat.mul_comm]
      · intro _
        rw [List.head?_append_of_ne_nil _ (decimal_ne_nil m)]
        exact ihh (by omega)

theorem decimal_numeral (n : ℕ) : Numeral (decimal n) n := by
  obtain ⟨hd, hv, hhead⟩ := decimal_digits n
  by_cases h0 : n = 0
  · subst h0
    exact Numeral.octal (t := []) (fun _ h => absurd h List.not_mem_nil)
  · have h := Numeral.decimal (decimal_ne_nil n) (hhead h0) hd
    rwa [hv] at h

end Strtoul

end XnuQemuTools.CString
