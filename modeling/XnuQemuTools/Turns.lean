/-
Threads that take turns come to an end.

Any number of threads have programs, and at each step one of them makes its next call.
What the others leave behind may decide how many calls a thread still makes, so there is
no bound to count down from. But a program is a finite tree, and each step replaces what
is left of one program by something it may have left after its next call (`Rest`). The
multiset of what is left of all programs gets smaller by that, in the order of
`Relation.CutExpand`, whatever the schedule is.

`X` is the state of a system and `progs` what its threads have left in it; `Moves` is a
step of such a system. `Moves.acc` is all that a user of this file needs.
-/
import XnuQemuTools.Calls
import Mathlib.Logic.Hydra
import Mathlib.Data.Finset.Basic

set_option autoImplicit false

namespace XnuQemuTools.Turns

open Calls Calls.Prog

variable {Op : Type} {Res : Op → Type} {α T X : Type}

/-- `p` is what `q` may have left after its next call. -/
inductive Rest : Prog Op Res α → Prog Op Res α → Prop where
  | next (op : Op) (k : Res op → Prog Op Res α) (r : Res op) : Rest (k r) (call op k)

theorem rest_wellFounded : WellFounded (Rest : Prog Op Res α → Prog Op Res α → Prop) := by
  refine ⟨fun p => ?_⟩
  induction p with
  | ret a => exact Acc.intro _ fun q hq => nomatch hq
  | call op k ih =>
      refine Acc.intro _ fun q hq => ?_
      cases hq with
      | next _ _ r => exact ih r

/-- What is left of the programs of the threads in `ts`. -/
def left (threads : T → Option (Prog Op Res α)) (ts : Finset T) : Multiset (Prog Op Res α) :=
  ts.val.filterMap threads

theorem left_congr {threads threads' : T → Option (Prog Op Res α)} {ts : Finset T}
    (h : ∀ t ∈ ts, threads' t = threads t) : left threads' ts = left threads ts := by
  unfold left
  rw [← Finset.coe_toList ts, Multiset.filterMap_coe, Multiset.filterMap_coe]
  exact congrArg _ (List.filterMap_congr fun t ht => h t (Finset.mem_toList.mp ht))

variable [DecidableEq T]

theorem left_of_mem {threads : T → Option (Prog Op Res α)} {ts : Finset T} {t : T}
    {p : Prog Op Res α} (hmem : t ∈ ts) (ht : threads t = some p) :
    left threads ts = p ::ₘ left threads (ts.erase t) := by
  have hts : ts.val = t ::ₘ (ts.erase t).val := by
    rw [← Finset.insert_val_of_notMem (Finset.notMem_erase t ts), Finset.insert_erase hmem]
  unfold left
  rw [hts, Multiset.filterMap_cons_some _ _ _ ht]

/-- One thread makes its next call; the others stay as they are. -/
def Moves (progs : X → T → Option (Prog Op Res α)) (x x' : X) : Prop :=
  ∃ t op k r, progs x t = some (call op k)
    ∧ progs x' = Function.update (progs x) t (some (k r))

variable {progs : X → T → Option (Prog Op Res α)} {x x' : X}

/-- **A step shrinks what is left.** -/
theorem Moves.cutExpand (h : Moves progs x x') {ts : Finset T}
    (hall : ∀ t p, progs x t = some p → t ∈ ts) :
    Relation.CutExpand Rest (left (progs x') ts) (left (progs x) ts) := by
  obtain ⟨t, op, k, r, ht, hprogs⟩ := h
  have hmem : t ∈ ts := hall t _ ht
  have hself : progs x' t = some (k r) := by rw [hprogs, Function.update_self]
  have hothers : left (progs x') (ts.erase t) = left (progs x) (ts.erase t) := by
    refine left_congr fun u hu => ?_
    rw [hprogs, Function.update_of_ne (Finset.ne_of_mem_erase hu)]
  refine ⟨{k r}, call op k, fun q hq => ?_, ?_⟩
  · rw [Multiset.mem_singleton.mp hq]
    exact Rest.next op k r
  · rw [left_of_mem hmem hself, left_of_mem hmem ht, hothers]
    simp only [← Multiset.singleton_add]
    ac_rfl

/-- A thread that is there after a step was there before. -/
theorem Moves.mem (h : Moves progs x x') {ts : Finset T}
    (hall : ∀ t p, progs x t = some p → t ∈ ts) : ∀ t p, progs x' t = some p → t ∈ ts := by
  obtain ⟨t, op, k, r, ht, hprogs⟩ := h
  intro u p hu
  by_cases hut : u = t
  · exact hut ▸ hall t _ ht
  · rw [hprogs, Function.update_of_ne hut] at hu
    exact hall u p hu

/-- **No endless run.** Finitely many threads make finitely many calls. -/
theorem Moves.acc {R : X → X → Prop} (hR : ∀ x x', R x x' → Moves progs x x') (ts : Finset T) :
    ∀ {x : X}, (∀ t p, progs x t = some p → t ∈ ts) → Acc (fun x₂ x₁ => R x₁ x₂) x := by
  intro x hall
  induction hm : left (progs x) ts using rest_wellFounded.cutExpand.induction generalizing x with
  | _ m ih =>
      refine Acc.intro _ fun x' hstep => ?_
      have hmoves := hR x x' hstep
      exact ih (left (progs x') ts) (hm ▸ hmoves.cutExpand hall) (hmoves.mem hall) rfl

theorem Moves.no_endless_run {R : X → X → Prop} (hR : ∀ x x', R x x' → Moves progs x x')
    (ts : Finset T) (hall : ∀ t p, progs x t = some p → t ∈ ts) :
    ¬ ∃ run : ℕ → X, run 0 = x ∧ ∀ n, R (run n) (run (n + 1)) :=
  fun h => not_acc_iff_exists_descending_chain.mpr h (Moves.acc hR ts hall)

end XnuQemuTools.Turns
