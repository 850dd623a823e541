/-
The Python that the scripts use.

A `bytes` object is a list of bytes, a slice `b[m:n]` is `(b.drop m).take (n - m)`,
and an exception is an `Except.error`. The scripts are read as Python 3. Only what
some script needs is here.

`int16` is `int(b, 16)` with all that it accepts: blanks around the number, a sign, a
prefix `0x`, and single underscores between the digits. On digits alone it is their
value (`int16_digits`).
-/
import Mathlib.Algebra.Ring.Int.Defs
import Mathlib.Algebra.Ring.Nat
import Mathlib.Data.List.DropRight
import Mathlib.Data.List.Lex
import Mathlib.Data.List.Sort
import Mathlib.Tactic.Common

set_option autoImplicit false

namespace XnuQemuTools.Python

/-- The exceptions the scripts can raise. -/
inductive PyError where
  | IndexError
  | StructError
  | AssertionError
  | ValueError
  deriving DecidableEq

/-- `bytes`. -/
abbrev Bytes : Type := List UInt8

/-- The slice `b[m:n]`. -/
def slice (b : Bytes) (m n : ℕ) : Bytes := (b.drop m).take (n - m)

/-- `struct.unpack(">L", b)[0]`. -/
def unpackBE (b : Bytes) : Except PyError ℕ :=
  match b with
  | [b₀, b₁, b₂, b₃] =>
      .ok (((b₀.toNat * 256 + b₁.toNat) * 256 + b₂.toNat) * 256 + b₃.toNat)
  | _ => .error .StructError

/-- `b[i]`, for an index that is not negative. -/
def item (b : Bytes) (i : ℕ) : Except PyError UInt8 :=
  match b[i]? with
  | some c => .ok c
  | none => .error .IndexError

/-- `b[i] = c` in an array of bytes. -/
def setItem (b : Bytes) (i : ℕ) (c : UInt8) : Except PyError Bytes :=
  if i < b.length then .ok (b.set i c) else .error .IndexError

/-! ## `struct` -/

/-- `struct.pack("<I", n)`. -/
def packLE (n : ℤ) : Except PyError Bytes :=
  if 0 ≤ n ∧ n < 2 ^ 32 then
    .ok [UInt8.ofNat n.toNat, UInt8.ofNat (n.toNat / 2 ^ 8), UInt8.ofNat (n.toNat / 2 ^ 16),
      UInt8.ofNat (n.toNat / 2 ^ 24)]
  else .error .StructError

/-- `struct.pack(">I", n)`. -/
def packBE (n : ℤ) : Except PyError Bytes :=
  if 0 ≤ n ∧ n < 2 ^ 32 then
    .ok [UInt8.ofNat (n.toNat / 2 ^ 24), UInt8.ofNat (n.toNat / 2 ^ 16),
      UInt8.ofNat (n.toNat / 2 ^ 8), UInt8.ofNat n.toNat]
  else .error .StructError

/-- `struct.pack("B", n)`. -/
def packB (n : ℤ) : Except PyError Bytes :=
  if 0 ≤ n ∧ n < 2 ^ 8 then .ok [UInt8.ofNat n.toNat] else .error .StructError

/-- `struct.unpack("<I", b)[0]`. -/
def unpackLE (b : Bytes) : Except PyError ℕ := unpackBE b.reverse

/-! ## Text -/

/-- The bytes that `strip` and `int` take for blanks. -/
def isSpace (c : UInt8) : Bool := c = 0x20 || (0x09 ≤ c && c ≤ 0x0d)

/-- `b.strip()`. -/
def strip (b : Bytes) : Bytes := (b.dropWhile isSpace).rdropWhile isSpace

/-- `b.splitlines()`, with the bytes of the current line so far. -/
def splitlinesFrom : Bytes → Bytes → List Bytes
  | line, [] => if line = [] then [] else [line]
  | line, 0x0d :: 0x0a :: b => line :: splitlinesFrom [] b
  | line, 0x0d :: b => line :: splitlinesFrom [] b
  | line, 0x0a :: b => line :: splitlinesFrom [] b
  | line, c :: b => splitlinesFrom (line ++ [c]) b

/-- `b.splitlines()`. -/
def splitlines (b : Bytes) : List Bytes := splitlinesFrom [] b

/-- What `bytes` objects are compared by. -/
def codes (b : Bytes) : List ℕ := b.map UInt8.toNat

/-- `sorted(bs)`. -/
def sorted (bs : List Bytes) : List Bytes := bs.insertionSort fun a b => codes a ≤ codes b

/-! ## `int(b, 16)` -/

/-- The value of a hexadecimal digit. -/
def hexDigit (c : UInt8) : Option ℕ :=
  if 0x30 ≤ c ∧ c ≤ 0x39 then some (c.toNat - 0x30)
  else if 0x41 ≤ c ∧ c ≤ 0x46 then some (c.toNat - 0x37)
  else if 0x61 ≤ c ∧ c ≤ 0x66 then some (c.toNat - 0x57)
  else none

/-- The number that goes on with the digits of `b`. An underscore must have a digit on
either side; `gap` says that there is none on the left. -/
def digits : Bool → ℕ → Bytes → Option ℕ
  | gap, n, [] => if gap then none else some n
  | gap, n, c :: b =>
      if c = 0x5f then
        if gap then none else digits true n b
      else
        match hexDigit c with
        | some d => digits false (n * 16 + d) b
        | none => none

/-- The sign, and what is behind it. -/
def splitSign : Bytes → Bool × Bytes
  | 0x2b :: b => (false, b)
  | 0x2d :: b => (true, b)
  | b => (false, b)

/-- What is behind a prefix `0x`, which an underscore may follow. -/
def dropPrefix : Bytes → Bytes
  | 0x30 :: x :: b =>
      if x = 0x78 ∨ x = 0x58 then
        match b with
        | 0x5f :: b => b
        | b => b
      else 0x30 :: x :: b
  | b => b

/-- `int(b, 16)`. -/
def int16 (b : Bytes) : Except PyError ℤ :=
  let (negative, b) := splitSign (strip b)
  match digits true 0 (dropPrefix b) with
  | some n => .ok (if negative then -n else n)
  | none => .error .ValueError

/-! ## Facts -/

theorem item_of_drop {b rest : Bytes} {i : ℕ} {c : UInt8} (h : b.drop i = c :: rest) :
    item b i = .ok c := by
  have hget : b[i]? = some c := by
    rw [← List.head?_drop, h]
    rfl
  rw [item, hget]

theorem setItem_of_lt {b : Bytes} {i : ℕ} {c : UInt8} (h : i < b.length) :
    setItem b i c = .ok (b.set i c) := if_pos h

theorem codes_injective : Function.Injective codes :=
  List.map_injective_iff.mpr fun _ _ => UInt8.toNat_inj.mp

theorem sorted_perm (bs : List Bytes) : (sorted bs).Perm bs := List.perm_insertionSort _ bs

theorem sorted_pairwise (bs : List Bytes) :
    (sorted bs).Pairwise fun a b => codes a ≤ codes b := by
  have htotal : Std.Total fun a b : Bytes => codes a ≤ codes b :=
    ⟨fun a b => le_total (codes a) (codes b)⟩
  have htrans : IsTrans Bytes fun a b => codes a ≤ codes b := ⟨fun _ _ _ h h' => h.trans h'⟩
  exact List.pairwise_insertionSort _ bs

/-- A number that fits in 32 bits is packed. -/
theorem packLE_of_lt {n : ℕ} (h : n < 2 ^ 32) :
    packLE n = .ok [UInt8.ofNat n, UInt8.ofNat (n / 2 ^ 8), UInt8.ofNat (n / 2 ^ 16),
      UInt8.ofNat (n / 2 ^ 24)] := by
  rw [packLE, if_pos ⟨by omega, by exact_mod_cast h⟩, Int.toNat_natCast]

theorem packBE_of_lt {n : ℕ} (h : n < 2 ^ 32) :
    packBE n = .ok [UInt8.ofNat (n / 2 ^ 24), UInt8.ofNat (n / 2 ^ 16), UInt8.ofNat (n / 2 ^ 8),
      UInt8.ofNat n] := by
  rw [packBE, if_pos ⟨by omega, by exact_mod_cast h⟩, Int.toNat_natCast]

theorem length_packBE {n : ℤ} {b : Bytes} (h : packBE n = .ok b) : b.length = 4 := by
  unfold packBE at h
  split at h
  · cases h
    rfl
  · cases h

theorem hexDigit_lt {c : UInt8} {d : ℕ} (h : hexDigit c = some d) : d < 16 := by
  unfold hexDigit at h
  split at h
  · rename_i hc
    have hle := UInt8.le_iff_toNat_le.mp hc.2
    cases h
    have : (0x39 : UInt8).toNat = 0x39 := rfl
    omega
  · split at h
    · rename_i hc
      have hle := UInt8.le_iff_toNat_le.mp hc.2
      cases h
      have : (0x46 : UInt8).toNat = 0x46 := rfl
      omega
    · split at h
      · rename_i hc
        have hle := UInt8.le_iff_toNat_le.mp hc.2
        cases h
        have : (0x66 : UInt8).toNat = 0x66 := rfl
        omega
      · cases h

/-- A digit is no blank, no sign, no `x` and no underscore. -/
theorem hexDigit_plain {c : UInt8} (h : (hexDigit c).isSome) :
    isSpace c = false ∧ c ≠ 0x2b ∧ c ≠ 0x2d ∧ c ≠ 0x78 ∧ c ≠ 0x58 ∧ c ≠ 0x5f := by
  have hall : ∀ n < 256, (hexDigit (UInt8.ofNat n)).isSome →
      isSpace (UInt8.ofNat n) = false ∧ UInt8.ofNat n ≠ 0x2b ∧ UInt8.ofNat n ≠ 0x2d
        ∧ UInt8.ofNat n ≠ 0x78 ∧ UInt8.ofNat n ≠ 0x58 ∧ UInt8.ofNat n ≠ 0x5f := by
    decide +kernel
  have hbyte := hall c.toNat c.toNat_lt
  rw [UInt8.ofNat_toNat] at hbyte
  exact hbyte h

/-- The value of a list of digits, `n` being the value of those before it. -/
def value : ℕ → List ℕ → ℕ
  | n, [] => n
  | n, d :: ds => value (n * 16 + d) ds

/-- `ds` are the values of the digits `b`. -/
def IsDigits (b : Bytes) (ds : List ℕ) : Prop := List.Forall₂ (fun c d => hexDigit c = some d) b ds

theorem IsDigits.plain {b : Bytes} {ds : List ℕ} (h : IsDigits b ds) :
    ∀ c ∈ b, isSpace c = false ∧ c ≠ 0x2b ∧ c ≠ 0x2d ∧ c ≠ 0x78 ∧ c ≠ 0x58 ∧ c ≠ 0x5f := by
  induction h with
  | nil => exact fun c hc => (nomatch hc)
  | cons hd _ ih =>
      intro c hc
      rcases List.mem_cons.mp hc with rfl | hin
      · exact hexDigit_plain (Option.isSome_iff_exists.mpr ⟨_, hd⟩)
      · exact ih c hin

theorem digits_value {b : Bytes} {ds : List ℕ} (h : IsDigits b ds) :
    ∀ n, digits false n b = some (value n ds) := by
  induction h with
  | nil => exact fun _ => rfl
  | cons hd _ ih =>
      intro n
      have hplain := hexDigit_plain (Option.isSome_iff_exists.mpr ⟨_, hd⟩)
      rw [digits, if_neg hplain.2.2.2.2.2, hd]
      exact ih _

theorem strip_of_plain {b : Bytes} (h : ∀ c ∈ b, isSpace c = false) : strip b = b := by
  have hleft : b.dropWhile isSpace = b := by
    refine List.dropWhile_eq_self_iff.mpr fun hl => ?_
    rw [h _ (List.getElem_mem hl)]
    decide
  rw [strip, hleft]
  refine List.rdropWhile_eq_self_iff.mpr fun hl => ?_
  rw [h _ (List.getLast_mem hl)]
  decide

theorem splitSign_of_plain {b : Bytes} (h : ∀ c ∈ b, c ≠ 0x2b ∧ c ≠ 0x2d) :
    splitSign b = (false, b) := by
  unfold splitSign
  split
  · exact absurd rfl (h 0x2b (List.mem_cons_self ..)).1
  · exact absurd rfl (h 0x2d (List.mem_cons_self ..)).2
  · rfl

theorem dropPrefix_of_plain {b : Bytes} (h : ∀ c ∈ b, c ≠ 0x78 ∧ c ≠ 0x58) : dropPrefix b = b := by
  unfold dropPrefix
  split
  · rename_i x rest
    have hx := h x (List.mem_cons_of_mem _ (List.mem_cons_self ..))
    exact if_neg fun hor => hor.elim hx.1 hx.2
  · rfl

/-- **On digits, `int16` is their value.** -/
theorem int16_digits {b : Bytes} {ds : List ℕ} (hne : b ≠ []) (h : IsDigits b ds) :
    int16 b = .ok (value 0 ds) := by
  have hplain := h.plain
  have hdigits : digits true 0 b = some (value 0 ds) := by
    cases h with
    | nil => exact absurd rfl hne
    | cons hd hrest =>
        have hunderscore := (hplain _ (List.mem_cons_self ..)).2.2.2.2.2
        rw [digits, if_neg hunderscore, hd]
        exact digits_value hrest _
  unfold int16
  rw [strip_of_plain fun c hc => (hplain c hc).1,
    splitSign_of_plain fun c hc => ⟨(hplain c hc).2.1, (hplain c hc).2.2.1⟩]
  simp only
  rw [dropPrefix_of_plain fun c hc => ⟨(hplain c hc).2.2.2.1, (hplain c hc).2.2.2.2.1⟩, hdigits]
  rfl

end XnuQemuTools.Python
