/-
Binary search.

The search is over a list with any rule for where to probe an interval, so what is
proved of it holds of every way to halve. It keeps to an interval of indices and is
right about that interval (`search_interval`): on a sorted list, the part it leaves is
all on the wrong side of the element it has looked at.
-/
import Mathlib.Order.Lattice
import Mathlib.Tactic.Common
import Mathlib.Algebra.Ring.Nat

set_option autoImplicit false

namespace XnuQemuTools.BinSearch

variable {α : Type} [LinearOrder α]

/-- Where to look in the interval from `lo` to `hi`. -/
structure Probe where
  index : ℕ → ℕ → ℕ
  inside : ∀ {lo hi : ℕ}, lo < hi → lo ≤ index lo hi ∧ index lo hi < hi

/-- In the middle. -/
def Probe.middle : Probe where
  index lo hi := (lo + hi) / 2
  inside := by omega

/-- Whether `key` is found between `lo` and `hi`. -/
def search (xs : List α) (p : Probe) (key : α) (lo hi : ℕ) : Bool :=
  if _h : lo < hi then
    match xs[p.index lo hi]? with
    | none => false
    | some x =>
        if x = key then true
        else if x < key then search xs p key (p.index lo hi + 1) hi
        else search xs p key lo (p.index lo hi)
  else false
termination_by hi - lo
decreasing_by
  · have := p.inside _h
    omega
  · have := p.inside _h
    omega

variable {xs : List α} {p : Probe} {key : α}

/-- Elements of a sorted list are in the order of their indices. -/
theorem le_of_index_le (hsorted : xs.Pairwise (· ≤ ·)) {i j : ℕ} {x y : α} (hi : xs[i]? = some x)
    (hj : xs[j]? = some y) (hij : i ≤ j) : x ≤ y := by
  obtain ⟨hi', rfl⟩ := List.getElem?_eq_some_iff.mp hi
  obtain ⟨hj', rfl⟩ := List.getElem?_eq_some_iff.mp hj
  rcases Nat.lt_or_eq_of_le hij with hlt | rfl
  · exact List.pairwise_iff_getElem.mp hsorted i j hi' hj' hlt
  · exact le_rfl

/-- **The search is right about its interval.** -/
theorem search_interval (hsorted : xs.Pairwise (· ≤ ·)) (lo hi : ℕ) (hhi : hi ≤ xs.length) :
    search xs p key lo hi = true ↔ ∃ i, lo ≤ i ∧ i < hi ∧ xs[i]? = some key := by
  induction hsize : hi - lo using Nat.strong_induction_on generalizing lo hi with
  | _ n ih =>
      rw [search]
      by_cases hlt : lo < hi
      · rw [dif_pos hlt]
        obtain ⟨hleft, hright⟩ := p.inside hlt
        have hprobe : xs[p.index lo hi]? = some xs[p.index lo hi] :=
          List.getElem?_eq_getElem (by omega)
        rw [hprobe]
        simp only
        by_cases hfound : xs[p.index lo hi] = key
        · rw [if_pos hfound]
          exact iff_of_true rfl ⟨p.index lo hi, hleft, hright, hfound ▸ hprobe⟩
        · rw [if_neg hfound]
          by_cases hless : xs[p.index lo hi] < key
          · -- `key` is not at the probe or before it
            rw [if_pos hless, ih _ (by omega) _ _ hhi rfl]
            constructor
            · rintro ⟨i, hge, hlt', hi⟩
              exact ⟨i, by omega, hlt', hi⟩
            · rintro ⟨i, hge, hlt', hi⟩
              refine ⟨i, ?_, hlt', hi⟩
              by_contra hbefore
              have hle := le_of_index_le hsorted hi hprobe (by omega)
              exact absurd hless (not_lt.mpr hle)
          · -- `key` is not at the probe or behind it
            rw [if_neg hless, ih _ (by omega) _ _ (by omega) rfl]
            constructor
            · rintro ⟨i, hge, hlt', hi⟩
              exact ⟨i, hge, by omega, hi⟩
            · rintro ⟨i, hge, hlt', hi⟩
              refine ⟨i, hge, ?_, hi⟩
              by_contra hbehind
              have hle := le_of_index_le hsorted hprobe hi (by omega)
              exact hless (lt_of_le_of_ne hle hfound)
      · rw [dif_neg hlt]
        refine iff_of_false (by decide) ?_
        rintro ⟨i, hge, hlt', -⟩
        omega

/-- On a sorted list, the search finds exactly its elements. -/
theorem search_iff (hsorted : xs.Pairwise (· ≤ ·)) :
    search xs p key 0 xs.length = true ↔ key ∈ xs := by
  rw [search_interval hsorted 0 xs.length (Nat.le_refl _), List.mem_iff_getElem?]
  constructor
  · rintro ⟨i, -, -, hi⟩
    exact ⟨i, hi⟩
  · rintro ⟨i, hi⟩
    exact ⟨i, Nat.zero_le i, (List.getElem?_eq_some_iff.mp hi).1, hi⟩

end XnuQemuTools.BinSearch
