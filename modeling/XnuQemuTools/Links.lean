/-
Walks along links that come back to where they stop.

`Walk next stop a l` says that from `a`, going from each element to its `next`, one meets
exactly the elements of `l` in this order and is then at `stop`. What makes a circular
list a list is that this determines `l` (`Walk.unique`), and so cannot meet an element
twice: the second time round it would have to go on as it did the first (`Walk.nodup`).
-/
import Mathlib.Tactic.Common
import Mathlib.Data.List.Basic

set_option autoImplicit false

namespace XnuQemuTools.Links

variable {α : Type}

/-- From `a` through `l` to `stop`. -/
def Walk (next : α → α) (stop : α) : α → List α → Prop
  | a, [] => a = stop
  | a, x :: l => a = x ∧ x ≠ stop ∧ Walk next stop (next x) l

variable {next : α → α} {stop : α}

theorem Walk.unique : ∀ {l l' : List α} {a : α}, Walk next stop a l → Walk next stop a l' → l = l'
  | [], [], _, _, _ => rfl
  | [], x :: l', a, h, ⟨hx, hstop, _⟩ => absurd (hx.symm.trans h) hstop
  | x :: l, [], a, ⟨hx, hstop, _⟩, h => absurd (hx.symm.trans h) hstop
  | x :: l, y :: l', a, ⟨hx, _, hl⟩, ⟨hy, _, hl'⟩ => by
      obtain rfl : x = y := hx.symm.trans hy
      rw [hl.unique hl']

/-- What is left of a walk when it has reached `x`. -/
theorem Walk.rest : ∀ {l l' : List α} {a x : α}, Walk next stop a (l ++ x :: l') →
    Walk next stop x (x :: l')
  | [], _, _, _, ⟨_, hstop, hl'⟩ => ⟨rfl, hstop, hl'⟩
  | _ :: _, _, _, _, ⟨_, _, hl⟩ => hl.rest

/-- **A walk that ends meets nothing twice.** -/
theorem Walk.nodup : ∀ {l : List α} {a : α}, Walk next stop a l → l.Nodup
  | [], _, _ => List.nodup_nil
  | x :: l, a, ⟨_, hstop, hl⟩ => by
      refine List.nodup_cons.mpr ⟨fun hmem => ?_, hl.nodup⟩
      obtain ⟨l₁, l₂, rfl⟩ := List.append_of_mem hmem
      -- from `x` the walk would be as long as what is left of it at the next `x`
      have hagain : x :: (l₁ ++ x :: l₂) = x :: l₂ :=
        Walk.unique (a := x) ⟨rfl, hstop, hl⟩ hl.rest
      have hlength := congrArg List.length hagain
      simp only [List.length_cons, List.length_append] at hlength
      omega

end XnuQemuTools.Links
