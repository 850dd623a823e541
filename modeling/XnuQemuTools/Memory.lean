/-
Byte memories and the one operation that moves data between them.

A `Mem` is a total map from addresses to bytes; how much of it is meaningful is
for its user to say. `copy dst d src s n` overwrites the `n` bytes of `dst` from
`d` by the `n` bytes of `src` from `s`. Reading a file into a buffer, writing a
buffer to a file and copying a buffer to or from a descriptor are all this
operation, so the three laws below are what a transfer through a bounce buffer
needs: a copy out of a fresh copy reads the original (`copy_through`), and
consecutive copies are one longer copy (`copy_append`).

`put m a bs` is for bytes that come from elsewhere, written one after another from `a` on.
-/
import Mathlib.Tactic.Common
import Mathlib.Algebra.Ring.Nat

set_option autoImplicit false

namespace XnuQemuTools.Memory

/-- A memory: a byte at every address. -/
abbrev Mem : Type := ℕ → UInt8

/-- `dst` with its `n` bytes from `d` replaced by the `n` bytes of `src` from `s`. -/
def copy (dst : Mem) (d : ℕ) (src : Mem) (s n : ℕ) : Mem :=
  fun a => if d ≤ a ∧ a < d + n then src (s + (a - d)) else dst a

theorem copy_inside {dst src : Mem} {d s n a : ℕ} (hd : d ≤ a) (hn : a < d + n) :
    copy dst d src s n a = src (s + (a - d)) := if_pos ⟨hd, hn⟩

theorem copy_outside {dst src : Mem} {d s n a : ℕ} (h : a < d ∨ d + n ≤ a) :
    copy dst d src s n a = dst a := if_neg (by omega)

@[simp] theorem copy_zero (dst : Mem) (d : ℕ) (src : Mem) (s : ℕ) : copy dst d src s 0 = dst := by
  funext a
  exact copy_outside (by omega)

/-- Copying out of a buffer that was just filled reads what it was filled with. -/
theorem copy_through (dst : Mem) (d : ℕ) (buf : Mem) (b : ℕ) (src : Mem) (s n : ℕ) :
    copy dst d (copy buf b src s n) b n = copy dst d src s n := by
  funext a
  by_cases ha : d ≤ a ∧ a < d + n
  · rw [copy_inside ha.1 ha.2, copy_inside ha.1 ha.2, copy_inside (by omega) (by omega)]
    congr 1
    omega
  · rw [copy_outside (by omega), copy_outside (by omega)]

/-- Two copies of adjacent ranges are one copy of their union. -/
theorem copy_append (dst : Mem) (d : ℕ) (src : Mem) (s m n : ℕ) :
    copy (copy dst d src s m) (d + m) src (s + m) n = copy dst d src s (m + n) := by
  funext a
  by_cases hn : d + m ≤ a ∧ a < d + m + n
  · rw [copy_inside hn.1 hn.2, copy_inside (by omega) (by omega)]
    congr 1
    omega
  · rw [copy_outside (by omega)]
    by_cases hm : d ≤ a ∧ a < d + m
    · rw [copy_inside hm.1 hm.2, copy_inside (by omega) (by omega)]
    · rw [copy_outside (by omega), copy_outside (by omega)]

/-! ## Writing bytes one after another -/

/-- `m` with the bytes `bs` from `a` on. -/
def put (m : Mem) (a : ℕ) (bs : List UInt8) : Mem :=
  fun b => if a ≤ b then bs[b - a]?.getD (m b) else m b

theorem put_inside (m : Mem) (a : ℕ) {bs : List UInt8} {i : ℕ} (hi : i < bs.length) :
    put m a bs (a + i) = bs[i] := by
  rw [put, if_pos (Nat.le_add_right a i), Nat.add_sub_cancel_left, List.getElem?_eq_getElem hi,
    Option.getD_some]

theorem put_outside {m : Mem} {a b : ℕ} {bs : List UInt8} (h : b < a ∨ a + bs.length ≤ b) :
    put m a bs b = m b := by
  unfold put
  split
  · rw [List.getElem?_eq_none (by omega), Option.getD_none]
  · rfl

@[simp] theorem put_nil (m : Mem) (a : ℕ) : put m a [] = m := by
  funext b
  exact put_outside (by rw [List.length_nil]; omega)

/-- One byte more is one more write behind them. -/
theorem put_concat (m : Mem) (a : ℕ) (bs : List UInt8) (c : UInt8) :
    put m a (bs ++ [c]) = Function.update (put m a bs) (a + bs.length) c := by
  have hlen : (bs ++ [c]).length = bs.length + 1 := List.length_append
  funext b
  by_cases hlast : b = a + bs.length
  · rw [hlast, Function.update_self, put_inside m a (by omega), List.getElem_concat_length rfl]
  · rw [Function.update_of_ne hlast]
    by_cases hin : a ≤ b ∧ b < a + bs.length
    · obtain ⟨i, rfl⟩ := Nat.exists_eq_add_of_le hin.1
      have hi : i < bs.length := by omega
      rw [put_inside m a hi, put_inside m a (by omega), List.getElem_append_left hi]
    · rw [put_outside (by omega), put_outside (by omega)]

end XnuQemuTools.Memory
