/-
Threads over one shared state, with no discipline between them.

`Monitor` is about threads that already keep a mutex. Here nothing is assumed of
them: any thread may make its next call at any time, and a call is answered as
the shared state lets it be. What a call may see or do can depend on who makes it.

The rule is that of local assertions: `J t s p` says where thread `t` stands when
`p` is what it has left to run (`none` before it has started), and `G` what holds
of the shared state. If every thread keeps its own assertion and no thread spoils
another's, both hold wherever the threads can get (`Reachable.invariant`).

Runs can be restricted: `ok c t op` is asked of every call, with the whole
configuration in view, so a theorem can be about the runs in which some race does
not happen. `fun _ _ _ => True` is no restriction. `play` computes the run of a
given schedule.
-/
import XnuQemuTools.Calls
import Mathlib.Logic.Relation
import Mathlib.Logic.Function.Basic

set_option autoImplicit false

namespace XnuQemuTools.Interleave

open Calls Calls.Prog

variable {Op : Type} {Res : Op → Type} {α σ T : Type}

/-- The shared state, and what each thread has left to run. -/
structure Config (Op : Type) (Res : Op → Type) (α σ T : Type) where
  shared : σ
  threads : T → Option (Prog Op Res α)

/-- Nothing has started yet. -/
def Config.boot (s : σ) : Config Op Res α σ T := ⟨s, fun _ => none⟩

/-- Every thread that has started has returned. -/
def Config.Finished (c : Config Op Res α σ T) : Prop :=
  ∀ t p, c.threads t = some p → p.next = none

/-- The thread has returned, or has not started. -/
def returned : Option (Prog Op Res α) → Bool
  | some (Prog.call _ _) => false
  | _ => true

theorem Config.finished_of_returned {c : Config Op Res α σ T}
    (h : ∀ t, returned (c.threads t) = true) : c.Finished := by
  intro t p hp
  have hret := h t
  rw [hp] at hret
  cases p with
  | ret a => rfl
  | call op k => cases hret

/-- How the shared state may answer a call of thread `t`. -/
abbrev SharedEnv (Op : Type) (Res : Op → Type) (σ T : Type) : Type :=
  T → Env Op Res σ

variable [DecidableEq T]

/-- Thread `t` now has `p` to run, and the shared state is `s`. -/
def Config.put (c : Config Op Res α σ T) (t : T) (p : Prog Op Res α) (s : σ) :
    Config Op Res α σ T :=
  ⟨s, Function.update c.threads t (some p)⟩

@[simp] theorem Config.put_threads_self (c : Config Op Res α σ T) (t : T) (p : Prog Op Res α)
    (s : σ) : (c.put t p s).threads t = some p := Function.update_self ..

theorem Config.put_threads_of_ne (c : Config Op Res α σ T) {t u : T} (h : u ≠ t)
    (p : Prog Op Res α) (s : σ) : (c.put t p s).threads u = c.threads u :=
  Function.update_of_ne h ..

/-- One step: a thread starts, or makes its next call. -/
inductive Step (env : SharedEnv Op Res σ T) (Start : Prog Op Res α → Prop)
    (ok : Config Op Res α σ T → T → Op → Prop) :
    Config Op Res α σ T → Config Op Res α σ T → Prop where
  | start {c : Config Op Res α σ T} {t : T} {p : Prog Op Res α} (hnew : c.threads t = none)
      (hp : Start p) : Step env Start ok c (c.put t p c.shared)
  | call {c : Config Op Res α σ T} {t : T} {op : Op} {k : Res op → Prog Op Res α} {r : Res op}
      {s : σ} (ht : c.threads t = some (Prog.call op k)) (hok : ok c t op)
      (hr : env t op c.shared r s) : Step env Start ok c (c.put t (k r) s)

/-- Where runs from the shared state `s₀` can get. -/
def Reachable (env : SharedEnv Op Res σ T) (Start : Prog Op Res α → Prop)
    (ok : Config Op Res α σ T → T → Op → Prop) (s₀ : σ) (c : Config Op Res α σ T) : Prop :=
  Relation.ReflTransGen (Step env Start ok) (Config.boot s₀) c

/-! ## The invariant rule -/

/-- **Local assertions.** Each thread keeps its own (`own`), and leaves those of
the others alone (`others`). -/
theorem Reachable.invariant {env : SharedEnv Op Res σ T} {Start : Prog Op Res α → Prop}
    {ok : Config Op Res α σ T → T → Op → Prop} {s₀ : σ} {G : σ → Prop}
    {J : T → σ → Option (Prog Op Res α) → Prop} (hG : G s₀) (hJ : ∀ t, J t s₀ none)
    (start : ∀ t s p, G s → J t s none → Start p → J t s (some p))
    (own : ∀ (c : Config Op Res α σ T) t op k r s, G c.shared → J t c.shared (some (call op k)) →
      ok c t op → env t op c.shared r s → G s ∧ J t s (some (k r)))
    (others : ∀ (c : Config Op Res α σ T) t u op k r s, u ≠ t → G c.shared →
      J t c.shared (some (call op k)) → ok c t op → env t op c.shared r s →
      J u c.shared (c.threads u) → J u s (c.threads u))
    {c : Config Op Res α σ T} (hc : Reachable env Start ok s₀ c) :
    G c.shared ∧ ∀ t, J t c.shared (c.threads t) := by
  induction hc with
  | refl => exact ⟨hG, hJ⟩
  | @tail c _ hrun hstep ih =>
      obtain ⟨ihG, ihJ⟩ := ih
      cases hstep with
      | @start t p hnew hp =>
          refine ⟨ihG, fun u => ?_⟩
          by_cases hu : u = t
          · subst hu
            rw [Config.put_threads_self]
            exact start u _ p ihG (hnew ▸ ihJ u) hp
          · rw [Config.put_threads_of_ne _ hu]
            exact ihJ u
      | @call t op k r s ht hok hr =>
          have hself : J t c.shared (some (call op k)) := ht ▸ ihJ t
          obtain ⟨hG', hJ'⟩ := own c t op k r s ihG hself hok hr
          refine ⟨hG', fun u => ?_⟩
          by_cases hu : u = t
          · subst hu
            rw [Config.put_threads_self]
            exact hJ'
          · rw [Config.put_threads_of_ne _ hu]
            exact others c t u op k r s hu ihG hself hok hr (ihJ u)

/-! ## Assertions that need no place

Sometimes what a thread relies on of the others is the invariant of the shared state
and nothing more. Then the assertion about a thread is one about its program alone. -/

section Steady

variable {β : Type}

/-- Whatever the others have made of the shared state in between, as long as `G` holds
of it: `I` holds of each call of the program, and the call keeps `G`. -/
def Steady (env : Env Op Res σ) (G : σ → Prop) (I : Option Op → σ → Prop) : Prog Op Res α → Prop
  | ret _ => ∀ s, G s → I none s
  | Prog.call op k =>
      ∀ s, G s → I (some op) s ∧ ∀ r s', env op s r s' → G s' ∧ Steady env G I (k r)

variable {env : Env Op Res σ} {G : σ → Prop} {I : Option Op → σ → Prop}

theorem Steady.here {p : Prog Op Res α} {s : σ} (h : Steady env G I p) (hs : G s) : I p.next s := by
  cases p with
  | ret a => exact h s hs
  | call op k => exact (h s hs).1

theorem Steady.bind {f : α → Prog Op Res β} {p : Prog Op Res α} (h : Steady env G I p)
    (hf : ∀ a, Steady env G I (f a)) : Steady env G I (p >>= f) := by
  induction p with
  | ret a => exact hf a
  | call op k ih =>
      intro s hs
      obtain ⟨hI, hk⟩ := h s hs
      exact ⟨hI, fun r s' hr => ⟨(hk r s' hr).1, ih r (hk r s' hr).2⟩⟩

/-- **Invariants of the shared state.** Threads that keep it, one call at a time. -/
theorem Reachable.steady {Start : Prog Op Res α → Prop} {ok : Config Op Res α σ T → T → Op → Prop}
    {s₀ : σ} (hG : G s₀) (hstart : ∀ p, Start p → Steady env G I p) {c : Config Op Res α σ T}
    (hc : Reachable (fun _ => env) Start ok s₀ c) :
    G c.shared ∧ ∀ t p, c.threads t = some p → I p.next c.shared := by
  obtain ⟨hshared, hthreads⟩ :
      G c.shared ∧ ∀ t p, c.threads t = some p → Steady env G I p := by
    refine hc.invariant (G := G) (J := fun _ _ o => ∀ p, o = some p → Steady env G I p) hG
      (fun _ _ hp => nomatch hp) ?_ ?_ (fun _ _ _ _ _ _ _ _ _ _ _ _ hu => hu)
    · intro t s p _ _ hp q hq
      exact Option.some.inj hq ▸ hstart p hp
    · intro c t op k r s hs hself _ hr
      obtain ⟨-, hk⟩ := hself _ rfl c.shared hs
      obtain ⟨hs', hrest⟩ := hk r s hr
      exact ⟨hs', fun p hp => Option.some.inj hp ▸ hrest⟩
  exact ⟨hshared, fun t p hp => (hthreads t p hp).here hshared⟩

/-- The other way round: what holds of all interleavings holds of a thread by itself. -/
theorem always_of_reachable {Start : Prog Op Res α → Prop} {s₀ : σ}
    (h : ∀ c : Config Op Res α σ T, Reachable (fun _ => env) Start (fun _ _ _ => True) s₀ c →
      ∀ t p, c.threads t = some p → I p.next c.shared) (t : T) {p : Prog Op Res α} (hp : Start p) :
    Always env I (fun _ _ => True) p s₀ := by
  have hall : ∀ (p : Prog Op Res α) (c : Config Op Res α σ T),
      Reachable (fun _ => env) Start (fun _ _ _ => True) s₀ c → c.threads t = some p →
      Always env I (fun _ _ => True) p c.shared := by
    intro p
    induction p with
    | ret a => exact fun c hc ht => ⟨h c hc t _ ht, trivial⟩
    | call op k ih =>
        refine fun c hc ht => ⟨h c hc t _ ht, fun r s' hr => ?_⟩
        exact ih r (c.put t (k r) s') (hc.tail (Step.call ht trivial hr)) (c.put_threads_self ..)
  exact hall p _ (Relation.ReflTransGen.single (Step.start rfl hp)) (Config.put_threads_self ..)

end Steady

/-! ## Places

The assertion of a thread usually depends on how far it has got. An automaton over
the calls says how far that is: `goes pl op r pl'` when call `op`, made at place `pl`
and answered `r`, leads to `pl'`. -/

section Places

variable {P β : Type}

/-- From place `pl`, and for `sensible` answers, the program makes only calls the
automaton knows, and returns where `Q` holds. -/
def Obeys (goes : P → (op : Op) → Res op → P → Prop) (sensible : (op : Op) → Res op → Prop)
    (Q : α → P → Prop) : P → Prog Op Res α → Prop
  | pl, ret a => Q a pl
  | pl, Prog.call op k =>
      ∀ r, sensible op r → ∃ pl', goes pl op r pl' ∧ Obeys goes sensible Q pl' (k r)

variable {goes : P → (op : Op) → Res op → P → Prop} {sensible : (op : Op) → Res op → Prop}

theorem obeys_perform {Q : α → P → Prop} {pl : P} {op : Op} {k : Res op → Prog Op Res α} :
    Obeys goes sensible Q pl (perform op >>= k)
      ↔ ∀ r, sensible op r → ∃ pl', goes pl op r pl' ∧ Obeys goes sensible Q pl' (k r) :=
  Iff.rfl

/-- A program, then what follows it from wherever it may return. -/
theorem Obeys.bind {Q : α → P → Prop} {R : β → P → Prop} {f : α → Prog Op Res β} :
    ∀ {p : Prog Op Res α} {pl : P}, Obeys goes sensible Q pl p →
      (∀ a pl', Q a pl' → Obeys goes sensible R pl' (f a)) →
      Obeys goes sensible R pl (p >>= f) := by
  intro p
  induction p with
  | ret a => exact fun h hf => hf a _ h
  | call op k ih =>
      intro pl h hf r hr
      obtain ⟨pl', hgoes, hrest⟩ := h r hr
      exact ⟨pl', hgoes, ih r hrest hf⟩

/-- The place of a thread: `init` if it has not started, else one from which what it
has left obeys the automaton. -/
def IsAt (goes : P → (op : Op) → Res op → P → Prop) (sensible : (op : Op) → Res op → Prop)
    (init : P) (Q : α → P → Prop) (pl : P) : Option (Prog Op Res α) → Prop
  | none => pl = init
  | some p => Obeys goes sensible Q pl p

/-- **Local assertions by place.** `S t pl s` is asserted while thread `t` is at
`pl`. -/
theorem Reachable.places {env : SharedEnv Op Res σ T} {Start : Prog Op Res α → Prop}
    {ok : Config Op Res α σ T → T → Op → Prop} {s₀ : σ} {init : P} {Q : α → P → Prop}
    {G : σ → Prop} {S : T → P → σ → Prop} (hG : G s₀) (hinit : ∀ t, S t init s₀)
    (hstart : ∀ p, Start p → Obeys goes sensible Q init p)
    (hsensible : ∀ t op s r s', env t op s r s' → sensible op r)
    (own : ∀ (c : Config Op Res α σ T) t pl pl' op r s, G c.shared → S t pl c.shared →
      ok c t op → env t op c.shared r s → goes pl op r pl' → G s ∧ S t pl' s)
    (others : ∀ (c : Config Op Res α σ T) t u pl pl' plu op r s, u ≠ t → S t pl c.shared →
      ok c t op → env t op c.shared r s → goes pl op r pl' →
      IsAt goes sensible init Q plu (c.threads u) → S u plu c.shared → S u plu s)
    {c : Config Op Res α σ T} (hc : Reachable env Start ok s₀ c) :
    G c.shared ∧ ∀ t, ∃ pl, IsAt goes sensible init Q pl (c.threads t) ∧ S t pl c.shared := by
  refine hc.invariant (G := G)
    (J := fun t s o => ∃ pl, IsAt goes sensible init Q pl o ∧ S t pl s) hG
    (fun t => ⟨init, rfl, hinit t⟩) ?_ ?_ ?_
  · rintro t s p - ⟨pl, rfl, hpl⟩ hp
    exact ⟨pl, hstart p hp, hpl⟩
  · rintro c t op k r s hG ⟨pl, hat, hpl⟩ hok hr
    obtain ⟨pl', hgoes, hrest⟩ := hat r (hsensible t op c.shared r s hr)
    obtain ⟨hG', hpl'⟩ := own c t pl pl' op r s hG hpl hok hr hgoes
    exact ⟨hG', pl', hrest, hpl'⟩
  · rintro c t u op k r s hu - ⟨pl, hat, hpl⟩ hok hr ⟨plu, hatu, hplu⟩
    obtain ⟨pl', hgoes, -⟩ := hat r (hsensible t op c.shared r s hr)
    exact ⟨plu, hatu, others c t u pl pl' plu op r s hu hpl hok hr hgoes hatu hplu⟩

end Places

/-! ## Runs of a schedule

A move either starts a thread or lets one make its next call, answered by a
handler. -/

/-- One entry of a schedule. -/
inductive Move (Op : Type) (Res : Op → Type) (α T : Type) where
  | start (t : T) (p : Prog Op Res α)
  | call (t : T)

/-- The state after one move; `none` if the move cannot be made, or is not `ok`. -/
def Config.move (ok : Config Op Res α σ T → T → Op → Prop) [∀ c t op, Decidable (ok c t op)]
    (h : T → Handler Op Res σ) (c : Config Op Res α σ T) :
    Move Op Res α T → Option (Config Op Res α σ T)
  | .start t p =>
      match c.threads t with
      | none => some (c.put t p c.shared)
      | some _ => none
  | .call t =>
      match c.threads t with
      | some (Prog.call op k) =>
          if ok c t op then (h t op c.shared).map fun x => c.put t (k x.1) x.2 else none
      | _ => none

/-- The state after a schedule. -/
def Config.play (ok : Config Op Res α σ T → T → Op → Prop) [∀ c t op, Decidable (ok c t op)]
    (h : T → Handler Op Res σ) :
    List (Move Op Res α T) → Config Op Res α σ T → Option (Config Op Res α σ T)
  | [], c => some c
  | m :: ms, c => (c.move ok h m).bind (Config.play ok h ms)

/-- The programs a schedule starts. -/
def Move.Starts (Start : Prog Op Res α → Prop) : Move Op Res α T → Prop
  | .start _ p => Start p
  | .call _ => True

section Schedules

variable {env : SharedEnv Op Res σ T} {Start : Prog Op Res α → Prop}
  {ok : Config Op Res α σ T → T → Op → Prop} [∀ c t op, Decidable (ok c t op)]
  {h : T → Handler Op Res σ} (henv : ∀ t op s r s', h t op s = some (r, s') → env t op s r s')

include henv

theorem Config.step_of_move {c c' : Config Op Res α σ T} {m : Move Op Res α T}
    (hm : m.Starts Start) (hrun : c.move ok h m = some c') : Step env Start ok c c' := by
  cases m with
  | start t p =>
      rw [Config.move] at hrun
      rcases ht : c.threads t with - | q
      · rw [ht] at hrun
        obtain rfl := Option.some.inj hrun
        exact Step.start ht hm
      · rw [ht] at hrun
        cases hrun
  | call t =>
      rw [Config.move] at hrun
      rcases ht : c.threads t with - | q
      · rw [ht] at hrun
        cases hrun
      · rw [ht] at hrun
        cases q with
        | ret a => cases hrun
        | call op k =>
            obtain ⟨hok, hrun⟩ := Option.ite_none_right_eq_some.mp hrun
            obtain ⟨⟨r, s⟩, hop, rfl⟩ := Option.map_eq_some_iff.mp hrun
            exact Step.call ht hok (henv t op c.shared r s hop)

/-- What a schedule computes can be reached. -/
theorem Config.steps_of_play (ms : List (Move Op Res α T)) :
    ∀ {c c' : Config Op Res α σ T}, (∀ m ∈ ms, m.Starts Start) → c.play ok h ms = some c' →
      Relation.ReflTransGen (Step env Start ok) c c' := by
  induction ms with
  | nil =>
      intro c c' _ hrun
      obtain rfl := Option.some.inj hrun
      exact Relation.ReflTransGen.refl
  | cons m ms ih =>
      intro c c' hms hrun
      obtain ⟨hm, hrest⟩ := List.forall_mem_cons.mp hms
      obtain ⟨c₁, hone, hrun⟩ := Option.bind_eq_some_iff.mp hrun
      exact Relation.ReflTransGen.head (Config.step_of_move henv hm hone) (ih hrest hrun)

end Schedules

end XnuQemuTools.Interleave
