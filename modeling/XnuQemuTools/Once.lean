/-
A flag that lets one thread through.

`once` reads a flag, returns if it is set, and else sets it and goes on. Called by one
thread after the other it goes on once. Called by several at the same time it may not,
since all of them can read the flag before one of them sets it. `Reachable.once` is what
holds as long as this does not happen (`Unraced`): there is at most one thread that gets
further than the flag, and for this one it is as if it had been alone.
-/
import XnuQemuTools.Interleave

set_option autoImplicit false

namespace XnuQemuTools.Interleave

open Calls Calls.Prog

variable {Op : Type} {Res : Op → Type} {α σ T : Type}

/-- A piece of code that is to run once, behind its flag. -/
structure Guard (Op : Type) (Res : Op → Type) (α : Type) where
  read : Op
  isSet : Res read → Bool
  set : Op
  skip : α
  body : Prog Op Res α

/-- What lies behind the reading of the flag. -/
def Guard.pass (g : Guard Op Res α) : Prog Op Res α := Prog.call g.set fun _ => g.body

/-- The test. -/
def Guard.test (g : Guard Op Res α) (r : Res g.read) : Prog Op Res α :=
  if g.isSet r then ret g.skip else g.pass

def Guard.once (g : Guard Op Res α) : Prog Op Res α := Prog.call g.read g.test

theorem Guard.test_set {g : Guard Op Res α} {r : Res g.read} (h : g.isSet r = true) :
    g.test r = ret g.skip := if_pos h

theorem Guard.test_clear {g : Guard Op Res α} {r : Res g.read} (h : g.isSet r = false) :
    g.test r = g.pass := if_neg (by rw [h]; exact Bool.false_ne_true)

/-- What is known of the flag. `I` is what the body asks of its calls. -/
structure Guard.Lawful (g : Guard Op Res α) (env : Env Op Res σ) (I : Option Op → σ → Prop)
    (flag : σ → Bool) : Prop where
  read : ∀ s r s', env g.read s r s' → s' = s ∧ g.isSet r = flag s
  set : ∀ s r s', env g.set s r s' → flag s' = true
  keep : ∀ op s r s', I (some op) s → env op s r s' → flag s = true → flag s' = true
  allowed : ∀ s, I none s ∧ I (some g.read) s ∧ I (some g.set) s

variable [DecidableEq T]

/-- The call that a thread at the beginning makes, and where it is then. -/
theorem Guard.Lawful.of_once {g : Guard Op Res α} {env : Env Op Res σ} {I : Option Op → σ → Prop}
    {flag : σ → Bool} (hg : g.Lawful env I flag) {op : Op} {k : Res op → Prog Op Res α} {r : Res op}
    {s s' : σ} (hp : Prog.call op k = g.once) (hr : env op s r s') :
    op = g.read ∧ s' = s ∧ k r = if flag s then ret g.skip else g.pass := by
  obtain ⟨rfl, hk⟩ := Prog.call.inj hp
  obtain rfl := eq_of_heq hk
  obtain ⟨hsame, hflag⟩ := hg.read _ _ _ hr
  refine ⟨rfl, hsame, ?_⟩
  rw [← hflag]
  rfl

/-- The flag is not read between the test and the setting by another thread. -/
def Unraced (g : Guard Op Res α) (flag : σ → Bool) (c : Config Op Res α σ T) (_ : T) (op : Op) :
    Prop :=
  op = g.read → flag c.shared = false → ∀ u p, c.threads u = some p → p.next ≠ some g.set

/-- How far the threads are. -/
inductive Progress (g : Guard Op Res α) (env : Env Op Res σ) (I : Option Op → σ → Prop)
    (Q : α → σ → Prop) (flag : σ → Bool) (s₀ : σ) (c : Config Op Res α σ T) : Prop where
  | before (hshared : c.shared = s₀) (hthreads : ∀ t p, c.threads t = some p → p = g.once)
  | testing (t : T) (hshared : c.shared = s₀) (ht : c.threads t = some g.pass)
      (hothers : ∀ u p, u ≠ t → c.threads u = some p → p = g.once)
  | begun (t : T) (p : Prog Op Res α) (ht : c.threads t = some p) (hrun : Always env I Q p c.shared)
      (hset : flag c.shared = true)
      (hothers : ∀ u p, u ≠ t → c.threads u = some p → p = g.once ∨ p = ret g.skip)

variable {g : Guard Op Res α} {env : Env Op Res σ} {I : Option Op → σ → Prop} {Q : α → σ → Prop}
  {flag : σ → Bool} {s₀ : σ} {c c' : Config Op Res α σ T}

theorem Progress.start (h : Progress g env I Q flag s₀ c) {t : T} (hnew : c.threads t = none) :
    Progress g env I Q flag s₀ (c.put t g.once c.shared) := by
  -- the new thread is none of those that are somewhere
  have hne : ∀ {u p}, c.threads u = some p → u ≠ t := by
    rintro u p hu rfl
    rw [hnew] at hu
    cases hu
  have hput : ∀ {u p}, (c.put t g.once c.shared).threads u = some p →
      p = g.once ∨ c.threads u = some p := by
    intro u p hu
    by_cases heq : u = t
    · subst heq
      rw [Config.put_threads_self] at hu
      exact Or.inl (Option.some.inj hu).symm
    · rw [Config.put_threads_of_ne _ heq] at hu
      exact Or.inr hu
  cases h with
  | before hshared hthreads =>
      refine .before hshared fun u p hu => ?_
      rcases hput hu with rfl | hu
      · rfl
      · exact hthreads u p hu
  | testing t' hshared ht hothers =>
      refine .testing t' hshared ((c.put_threads_of_ne (hne ht) _ _).trans ht) fun u p hu hp => ?_
      rcases hput hp with rfl | hp
      · rfl
      · exact hothers u p hu hp
  | begun t' p' ht hrun hset hothers =>
      refine .begun t' p' ((c.put_threads_of_ne (hne ht) _ _).trans ht) hrun hset fun u p hu hp => ?_
      rcases hput hp with rfl | hp
      · exact Or.inl rfl
      · exact hothers u p hu hp

theorem Progress.call (hg : g.Lawful env I flag) (hclear : flag s₀ = false)
    (hbody : ∀ r s, env g.set s₀ r s → Always env I Q g.body s)
    (h : Progress g env I Q flag s₀ c) {t : T} {op : Op} {k : Res op → Prog Op Res α} {r : Res op}
    {s : σ} (ht : c.threads t = some (Prog.call op k)) (hok : Unraced g flag c t op)
    (hr : env op c.shared r s) : Progress g env I Q flag s₀ (c.put t (k r) s) := by
  have hrest : ∀ {u}, u ≠ t → (c.put t (k r) s).threads u = c.threads u :=
    fun hu => c.put_threads_of_ne hu _ _
  have hself : (c.put t (k r) s).threads t = some (k r) := c.put_threads_self ..
  cases h with
  | before hshared hthreads =>
      -- the first to read the flag
      obtain ⟨-, rfl, hk⟩ := hg.of_once (hthreads t _ ht) hr
      rw [hshared, hclear, if_neg Bool.false_ne_true] at hk
      refine .testing t hshared (hself.trans (congrArg some hk)) fun u p hu hp => ?_
      rw [hrest hu] at hp
      exact hthreads u p hp
  | testing t' hshared ht' hothers =>
      by_cases heq : t = t'
      · subst heq
        obtain ⟨rfl, hk⟩ := Prog.call.inj (Option.some.inj (ht.symm.trans ht'))
        obtain rfl := eq_of_heq hk
        refine .begun t g.body hself (hbody r s (hshared ▸ hr)) (hg.set _ _ _ hr) fun u p hu hp => ?_
        rw [hrest hu] at hp
        exact Or.inl (hothers u p hu hp)
      · -- another that reads the flag, which is the race
        obtain ⟨hop, -⟩ := hg.of_once (hothers t _ heq ht) hr
        exact absurd rfl (hok hop (hshared ▸ hclear) t' _ ht')
  | begun t' p' ht' hrun hset hothers =>
      by_cases heq : t = t'
      · subst heq
        obtain rfl := Option.some.inj (ht'.symm.trans ht)
        obtain ⟨hI, hnext⟩ := always_call.mp hrun
        refine .begun t (k r) hself (hnext r s hr) (hg.keep op _ r s hI hr hset) fun u p hu hp => ?_
        rw [hrest hu] at hp
        exact hothers u p hu hp
      · rcases hothers t _ heq ht with hp | hp
        · -- one that comes too late
          obtain ⟨-, rfl, hk⟩ := hg.of_once hp hr
          rw [hset, if_pos rfl] at hk
          refine .begun t' p' ((hrest (Ne.symm heq)).trans ht') hrun hset fun u p hu hp => ?_
          by_cases hut : u = t
          · subst hut
            rw [hself, hk] at hp
            exact Or.inr (Option.some.inj hp).symm
          · rw [hrest hut] at hp
            exact hothers u p hu hp
        · cases hp

/-- **At most one thread.** It makes its calls as it would alone, and the others make none but
the reading of the flag. -/
theorem Reachable.once (hg : g.Lawful env I flag) (hclear : flag s₀ = false)
    (hbody : ∀ r s, env g.set s₀ r s → Always env I Q g.body s)
    (hc : Reachable (fun _ : T => env) (· = g.once) (Unraced g flag) s₀ c) :
    Progress g env I Q flag s₀ c := by
  induction hc with
  | refl => exact .before rfl fun t p hp => nomatch hp
  | tail _ hstep ih =>
      cases hstep with
      | start hnew hp =>
          subst hp
          exact ih.start hnew
      | call ht hok hr => exact ih.call hg hclear hbody ht hok hr

/-- Every thread is at a call that `I` allows. -/
theorem Progress.allowed (hg : g.Lawful env I flag) (h : Progress g env I Q flag s₀ c) {t : T}
    {p : Prog Op Res α} (ht : c.threads t = some p) : I p.next c.shared := by
  obtain ⟨hnone, hread, hset⟩ := hg.allowed c.shared
  cases h with
  | before hshared hthreads =>
      rw [hthreads t p ht]
      exact hread
  | testing t' hshared ht' hothers =>
      by_cases heq : t = t'
      · subst heq
        obtain rfl := Option.some.inj (ht.symm.trans ht')
        exact hset
      · rw [hothers t p heq ht]
        exact hread
  | begun t' p' ht' hrun hflag hothers =>
      by_cases heq : t = t'
      · subst heq
        obtain rfl := Option.some.inj (ht.symm.trans ht')
        exact hrun.here
      · rcases hothers t p heq ht with rfl | rfl
        · exact hread
        · exact hnone

end XnuQemuTools.Interleave
