/-
That every request of a monitor comes to its end.

`Monitor` says what guarded programs have done once nobody is running any more.
This file says that it comes to that. Two facts are needed and neither depends on
a scheduler: as long as some thread has not returned, some thread can make its
next call (`Reachable.progress`), and the calls that the threads submitted so far
can still make do not go on for ever (`Reachable.no_endless_run`). So however the
calls are ordered, once nothing more is submitted every thread returns
(`Reachable.served`).

A step at which nothing is submitted is a step of the same system for clients
that submit nothing, `Step M Nobody`.
-/
import XnuQemuTools.Monitor
import XnuQemuTools.Turns

set_option autoImplicit false

namespace XnuQemuTools.Monitor

open Calls Calls.Prog Turns

section Progress

variable {Op : Type} {Res : Op → Type} {α D G S L T : Type}

/-- Clients that submit nothing. -/
def Nobody (_ : D) (_ : Prog Op Res α) (_ : L) : Prop := False

variable [DecidableEq D] [DecidableEq T]

/-! ## Steps at which nothing is submitted -/

section Steps

variable {M : System Op Res D G S L} {Submit : D → Prog Op Res α → L → Prop}
  {c c' : Config Op Res α D G L T}

/-- What clients could do at most, they may do. -/
theorem Step.mono {Submit' : D → Prog Op Res α → L → Prop}
    (hmono : ∀ d p l, Submit d p l → Submit' d p l) (h : Step M Submit c c') :
    Step M Submit' c c' := by
  cases h with
  | submit hnew hp => exact Step.submit hnew (hmono _ _ _ hp)
  | acquire ht hprog hkind hfree hact => exact Step.acquire ht hprog hkind hfree hact
  | work ht hprog hkind hact => exact Step.work ht hprog hkind hact
  | release ht hprog hkind hact => exact Step.release ht hprog hkind hact

/-- What the threads have left. -/
def Config.progs (c : Config Op Res α D G L T) (t : T) : Option (Prog Op Res α) :=
  (c.threads t).map Thread.prog

/-- Such a step is one call of one thread; the other threads stay as they are. -/
theorem Step.advances (h : Step M Nobody c c') :
    ∃ t th op k r l, c.threads t = some th ∧ th.prog = call op k
      ∧ c'.threads = Function.update c.threads t (some { th with prog := k r, loc := l }) := by
  cases h with
  | submit _ hp => exact hp.elim
  | acquire ht hprog _ _ _ => exact ⟨_, _, _, _, _, _, ht, hprog, rfl⟩
  | work ht hprog _ _ => exact ⟨_, _, _, _, _, _, ht, hprog, rfl⟩
  | release ht hprog _ _ => exact ⟨_, _, _, _, _, _, ht, hprog, rfl⟩

theorem Step.moves (h : Step M Nobody c c') : Moves Config.progs c c' := by
  obtain ⟨t, th, op, k, r, l, ht, hprog, hthreads⟩ := h.advances
  refine ⟨t, op, k, r, ?_, funext fun u => ?_⟩
  · rw [Config.progs, ht, Option.map_some, hprog]
  · unfold Config.progs
    rw [hthreads]
    by_cases hut : u = t
    · rw [hut, Function.update_self, Function.update_self]
      rfl
    · rw [Function.update_of_ne hut, Function.update_of_ne hut]

/-- The same threads, on the same devices, submitted with the same programs. -/
def SameThreads (c c' : Config Op Res α D G L T) : Prop :=
  ∀ t, (c'.threads t).map (fun th => (th.dev, th.start, th.init))
    = (c.threads t).map fun th => (th.dev, th.start, th.init)

theorem Step.sameThreads (h : Step M Nobody c c') : SameThreads c c' := by
  obtain ⟨t, th, op, k, r, l, ht, -, hthreads⟩ := h.advances
  intro u
  rw [hthreads]
  by_cases hut : u = t
  · rw [hut, Function.update_self, ht]
    rfl
  · rw [Function.update_of_ne hut]

theorem sameThreads_of_steps (h : Relation.ReflTransGen (Step M Nobody) c c') :
    SameThreads c c' := by
  induction h with
  | refl => exact fun _ => rfl
  | tail _ hstep ih => exact fun t => (hstep.sameThreads t).trans (ih t)

omit [DecidableEq D] [DecidableEq T] in
theorem SameThreads.eq_some (h : SameThreads c c') {t : T} {th : Thread Op Res α D L}
    (ht : c.threads t = some th) :
    ∃ th', c'.threads t = some th' ∧ th'.dev = th.dev ∧ th'.start = th.start
      ∧ th'.init = th.init := by
  have hsame := h t
  rw [ht] at hsame
  obtain ⟨th', hth', heq⟩ := Option.map_eq_some_iff.mp hsame
  obtain ⟨hdev, hrest⟩ := Prod.mk.inj heq
  obtain ⟨hstart, hinit⟩ := Prod.mk.inj hrest
  exact ⟨th', hth', hdev, hstart, hinit⟩

end Steps

/-! ## No endless run -/

section Runs

variable {M : System Op Res D G S L} {Submit : D → Prog Op Res α → L → Prop} {g₀ : G}
  {c c' : Config Op Res α D G L T}

/-- Only finitely many threads have been submitted. -/
theorem Reachable.finite (hc : Reachable M Submit g₀ c) :
    ∃ ts : Finset T, ∀ t th, c.threads t = some th → t ∈ ts := by
  -- a step submits one thread, or moves one that is there
  have hmove : ∀ (c : Config Op Res α D G L T) (ts : Finset T) (t : T) (x : Thread Op Res α D L),
      (∀ u thu, c.threads u = some thu → u ∈ ts) →
      ∀ u thu, Function.update c.threads t (some x) u = some thu → u ∈ insert t ts := by
    intro c ts t x hts u thu hu
    by_cases hut : u = t
    · rw [hut]
      exact Finset.mem_insert_self t ts
    · rw [Function.update_of_ne hut] at hu
      exact Finset.mem_insert_of_mem (hts u thu hu)
  induction hc with
  | refl => exact ⟨∅, fun t th h => nomatch h⟩
  | tail _ hstep ih =>
      obtain ⟨ts, hts⟩ := ih
      cases hstep with
      | submit _ _ => exact ⟨_, hmove _ ts _ _ hts⟩
      | acquire _ _ _ _ _ => exact ⟨_, hmove _ ts _ _ hts⟩
      | work _ _ _ _ => exact ⟨_, hmove _ ts _ _ hts⟩
      | release _ _ _ _ => exact ⟨_, hmove _ ts _ _ hts⟩

/-- The threads submitted so far make finitely many calls, however they take turns. -/
theorem Reachable.no_endless_run (hc : Reachable M Submit g₀ c) :
    ¬ ∃ run : ℕ → Config Op Res α D G L T,
      run 0 = c ∧ ∀ n, Step M Nobody (run n) (run (n + 1)) := by
  obtain ⟨ts, hts⟩ := hc.finite
  refine Moves.no_endless_run (fun _ _ hstep => hstep.moves) ts fun t p hp => ?_
  obtain ⟨th, ht, -⟩ := Option.map_eq_some_iff.mp hp
  exact hts t th ht

/-! ## Somebody can always go on -/

theorem Reachable.of_steps (hc : Reachable M Submit g₀ c)
    (h : Relation.ReflTransGen (Step M Nobody) c c') : Reachable M Submit g₀ c' :=
  hc.trans (Relation.ReflTransGen.mono (fun _ _ hstep => hstep.mono fun _ _ _ hp => hp.elim) _ _ h)

/-- Every submitted program, run alone from whatever its device holds, ends. -/
def Ends (M : System Op Res D G S L) (Submit : D → Prog Op Res α → L → Prop) : Prop :=
  ∀ d p l s, Submit d p l → (exec (M.serve d) p (s, l)).isSome

/-- The thread that holds a mutex can make its next call. -/
theorem Reachable.owner_steps (hsubmit : ∀ d p l, Submit d p l → Guarded M d p)
    (hends : Ends M Submit) (hc : Reachable M Submit g₀ c) {d : D} {t : T}
    (howner : c.owner d = some t) : ∃ c', Step M Nobody c c' := by
  have hinv := hc.inv hsubmit
  obtain ⟨th, op, k, ⟨r, g, l⟩, ht, hdev, hprog, hact⟩ := hinv.owner_answered howner
    fun th s hth hdev => hends d _ _ s (hdev ▸ hc.submitted t th hth)
  subst hdev
  cases hkind : M.kind op with
  | acquire =>
      obtain ⟨-, -, -, hnot⟩ := hinv.waiting_of_acquire ht hprog hkind
      obtain ⟨th', pre, s, -, -, -, hpre, -⟩ := (hinv.replay th.dev).busy t howner
      rw [hpre] at hnot
      exact absurd (List.mem_append_right pre (List.mem_singleton_self t)) hnot
  | work => exact ⟨_, Step.work ht hprog hkind hact⟩
  | release => exact ⟨_, Step.release ht hprog hkind hact⟩

/-- **No deadlock.** While some thread has not returned, some thread can make its
next call. -/
theorem Reachable.progress (hsubmit : ∀ d p l, Submit d p l → Guarded M d p)
    (hends : Ends M Submit) (hc : Reachable M Submit g₀ c) (hbusy : ¬ c.Idle) :
    ∃ c', Step M Nobody c c' := by
  unfold Config.Idle at hbusy
  push Not at hbusy
  obtain ⟨t, th, ht, hnot⟩ := hbusy
  rcases howner : c.owner th.dev with - | u
  · -- the mutex is free, so the thread stands before taking it
    cases (hc.inv hsubmit).phase t th ht with
    | waiting hguard hp hloc _ =>
        obtain ⟨op, k, hstart, hkind, hallowed, -⟩ := hguard
        have hsome := hends th.dev _ _ (M.view th.dev c.shared) (hc.submitted t th ht)
        rw [hstart] at hsome
        obtain ⟨y, hrun⟩ := Option.isSome_iff_exists.mp hsome
        obtain ⟨r, g, l, hact, -⟩ := act_of_exec hallowed hrun
        exact ⟨_, Step.acquire ht (hp.trans hstart) hkind howner (hloc ▸ hact)⟩
    | inside howner' =>
        rw [howner] at howner'
        cases howner'
    | done a hp _ => exact absurd hp (hnot a)
  · exact hc.owner_steps hsubmit hends howner

/-- **Every thread is served.** Where no more calls can be made, every thread that
was there has taken its device's mutex and returned. -/
theorem Reachable.served (hsubmit : ∀ d p l, Submit d p l → Guarded M d p)
    (hends : Ends M Submit) (hc : Reachable M Submit g₀ c)
    (hsteps : Relation.ReflTransGen (Step M Nobody) c c') (hlast : ∀ c'', ¬ Step M Nobody c' c'') :
    c'.Idle ∧ ∀ t th, c.threads t = some th → t ∈ c'.order th.dev := by
  have hc' := hc.of_steps hsteps
  have hidle : c'.Idle := by
    by_contra hbusy
    obtain ⟨c'', hstep⟩ := hc'.progress hsubmit hends hbusy
    exact hlast c'' hstep
  refine ⟨hidle, fun t th ht => ?_⟩
  obtain ⟨th', hth', hdev, -⟩ := (sameThreads_of_steps hsteps).eq_some ht
  exact ((hc'.serialisable hsubmit hidle th.dev).2.2 t).mpr ⟨th', hth', hdev⟩

end Runs

end Progress

end XnuQemuTools.Monitor
