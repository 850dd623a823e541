/-
Programs as trees of calls.

Every function modelled in this development does its work by calling something
it does not define: the host behind `qemu_call`, a memory descriptor, a mutex,
a socket. `Prog Op Res α` is the code between two such calls and nothing else:
it either returns an `α` or makes a call `op : Op` and continues with whatever
`Res op` the call answers. A call that never comes back has an empty `Res op`.

Nothing here names a device or a socket. The file gives the three readings of a
program that the rest of the development needs, each with its composition law:

| reading | definition | law for `p >>= f` |
|---|---|---|
| any answers at all | `Follows`, `Issues`, `Returns` | `issues_bind` |
| answers computed from a state | `exec` | `exec_bind` |
| answers some environment may give | `Always` | `always_bind` |

The last one is the invariant rule: `Always env I Q p s` says that `I` holds at
every point of every run of `p` from `s`, so between any two calls, of the state
and of the call that comes next, and that `Q` holds of the result. `Reach.always`
lifts it from one program to code that jumps between labelled pieces, which is how
an endless loop is written.

`interpret` replaces the calls of a program by programs, which is how two levels of
one function are compared.
-/
import Mathlib.Tactic.Common
import Mathlib.Data.List.Basic

set_option autoImplicit false

namespace XnuQemuTools.Calls

/-- A program: return, or call and continue with the answer. -/
inductive Prog (Op : Type) (Res : Op → Type) (α : Type) : Type where
  | ret (a : α) : Prog Op Res α
  | call (op : Op) (k : Res op → Prog Op Res α) : Prog Op Res α

namespace Prog

variable {Op : Type} {Res : Op → Type} {α β γ σ : Type}

/-- Run `p`, then `f` on its result. -/
def bind : Prog Op Res α → (α → Prog Op Res β) → Prog Op Res β
  | ret a, f => f a
  | call op k, f => call op (fun r => (k r).bind f)

instance : Monad (Prog Op Res) where
  pure := ret
  bind := bind

@[simp] theorem pure_eq (a : α) : (pure a : Prog Op Res α) = ret a := rfl

@[simp] theorem ret_bind (a : α) (f : α → Prog Op Res β) : (ret a >>= f) = f a := rfl

@[simp] theorem call_bind (op : Op) (k : Res op → Prog Op Res α) (f : α → Prog Op Res β) :
    (call op k >>= f) = call op (fun r => k r >>= f) := rfl

theorem bind_ret (p : Prog Op Res α) : (p >>= ret) = p := by
  induction p with
  | ret a => rfl
  | call op k ih =>
      rw [call_bind]
      exact congrArg (call op) (funext ih)

theorem bind_bind (p : Prog Op Res α) (f : α → Prog Op Res β) (g : β → Prog Op Res γ) :
    (p >>= f >>= g) = p >>= fun a => f a >>= g := by
  induction p with
  | ret a => rfl
  | call op k ih => exact congrArg (call op) (funext ih)

instance : LawfulMonad (Prog Op Res) :=
  LawfulMonad.mk' _ bind_ret (fun _ _ => rfl) bind_bind

/-- The program that makes one call and returns its answer. -/
def perform (op : Op) : Prog Op Res (Res op) := call op ret

@[simp] theorem perform_bind (op : Op) (f : Res op → Prog Op Res β) :
    (perform op >>= f) = call op f := rfl

/-! ## Any answers

An event is a call with its answer. `Follows p tr q` only says that answering the
calls of `p` with the answers recorded in `tr` leaves `q` to run: it constrains
no answer, so a fact about all paths is a fact about every environment. -/

/-- Answering the calls of `p` as `tr` records leaves `q`. -/
inductive Follows : Prog Op Res α → List (Σ op, Res op) → Prog Op Res α → Prop where
  | refl (p : Prog Op Res α) : Follows p [] p
  | step {op : Op} {k : Res op → Prog Op Res α} {r : Res op} {tr : List (Σ op, Res op)}
      {q : Prog Op Res α} (h : Follows (k r) tr q) : Follows (call op k) (⟨op, r⟩ :: tr) q

/-- After the events `tr`, `p` calls `op`. -/
def Issues (p : Prog Op Res α) (tr : List (Σ op, Res op)) (op : Op) : Prop :=
  ∃ k, Follows p tr (call op k)

/-- After the events `tr`, `p` returns `a`. -/
def Returns (p : Prog Op Res α) (tr : List (Σ op, Res op)) (a : α) : Prop :=
  Follows p tr (ret a)

theorem issues_ret (a : α) (tr : List (Σ op, Res op)) (op : Op) :
    ¬ Issues (ret a : Prog Op Res α) tr op := by
  rintro ⟨k, h⟩
  cases h

theorem returns_ret (a b : α) (tr : List (Σ op, Res op)) :
    Returns (ret a : Prog Op Res α) tr b ↔ tr = [] ∧ a = b := by
  constructor
  · intro h
    cases h
    exact ⟨rfl, rfl⟩
  · rintro ⟨rfl, rfl⟩
    exact Follows.refl _

theorem issues_call_nil (op : Op) (k : Res op → Prog Op Res α) (op' : Op) :
    Issues (call op k) [] op' ↔ op = op' := by
  constructor
  · rintro ⟨k', h⟩
    cases h
    rfl
  · rintro rfl
    exact ⟨k, Follows.refl _⟩

theorem issues_call_cons (op : Op) (k : Res op → Prog Op Res α) (e : Σ op, Res op)
    (tr : List (Σ op, Res op)) (op' : Op) :
    Issues (call op k) (e :: tr) op' ↔ ∃ r, e = ⟨op, r⟩ ∧ Issues (k r) tr op' := by
  constructor
  · rintro ⟨k', h⟩
    cases h with
    | step h => exact ⟨_, rfl, k', h⟩
  · rintro ⟨r, rfl, k', h⟩
    exact ⟨k', h.step⟩

theorem returns_call (op : Op) (k : Res op → Prog Op Res α) (tr : List (Σ op, Res op)) (a : α) :
    Returns (call op k) tr a ↔ ∃ r tr', tr = ⟨op, r⟩ :: tr' ∧ Returns (k r) tr' a := by
  constructor
  · intro h
    cases h with
    | step h => exact ⟨_, _, rfl, h⟩
  · rintro ⟨r, tr', rfl, h⟩
    exact Follows.step h

/-- A call of `p >>= f` is a call of `p`, or comes after `p` has returned. -/
theorem issues_bind (p : Prog Op Res α) (f : α → Prog Op Res β) (tr : List (Σ op, Res op))
    (op : Op) :
    Issues (p >>= f) tr op
      ↔ Issues p tr op
        ∨ ∃ a tr₁ tr₂, tr = tr₁ ++ tr₂ ∧ Returns p tr₁ a ∧ Issues (f a) tr₂ op := by
  induction p generalizing tr with
  | ret a =>
      rw [ret_bind]
      constructor
      · intro h
        exact Or.inr ⟨a, [], tr, rfl, Follows.refl _, h⟩
      · rintro (h | ⟨a', tr₁, tr₂, rfl, h₁, h₂⟩)
        · exact absurd h (issues_ret _ _ _)
        · obtain ⟨rfl, rfl⟩ := (returns_ret _ _ _).mp h₁
          exact h₂
  | call op₀ k ih =>
      rw [call_bind]
      cases tr with
      | nil =>
          rw [issues_call_nil, issues_call_nil]
          constructor
          · exact Or.inl
          · rintro (h | ⟨a, tr₁, tr₂, h, h₁, h₂⟩)
            · exact h
            · obtain ⟨r, tr', rfl, -⟩ := (returns_call _ _ _ _).mp h₁
              cases h
      | cons e tr =>
          -- the first event answers the first call of `p` on both sides
          rw [issues_call_cons, issues_call_cons]
          constructor
          · rintro ⟨r, rfl, h⟩
            rcases (ih r tr).mp h with h' | ⟨a, tr₁, tr₂, rfl, h₁, h₂⟩
            · exact Or.inl ⟨r, rfl, h'⟩
            · exact Or.inr ⟨a, ⟨op₀, r⟩ :: tr₁, tr₂, rfl, Follows.step h₁, h₂⟩
          · rintro (⟨r, rfl, h⟩ | ⟨a, tr₁, tr₂, htr, h₁, h₂⟩)
            · exact ⟨r, rfl, (ih r tr).mpr (Or.inl h)⟩
            · obtain ⟨r, tr', rfl, h₁'⟩ := (returns_call _ _ _ _).mp h₁
              obtain ⟨rfl, rfl⟩ := List.cons_eq_cons.mp htr
              exact ⟨r, rfl, (ih r _).mpr (Or.inr ⟨a, tr', tr₂, rfl, h₁', h₂⟩)⟩

/-! ## Programs in the place of calls -/

section Interpret

variable {Op' : Type} {Res' : Op' → Type}

/-- `p` with the program `h op` in the place of each call `op`. -/
def interpret (h : (op : Op) → Prog Op' Res' (Res op)) : Prog Op Res α → Prog Op' Res' α
  | ret a => ret a
  | call op k => h op >>= fun r => interpret h (k r)

@[simp] theorem interpret_ret (h : (op : Op) → Prog Op' Res' (Res op)) (a : α) :
    interpret h (ret a) = ret a := rfl

theorem interpret_call (h : (op : Op) → Prog Op' Res' (Res op)) (op : Op)
    (k : Res op → Prog Op Res α) :
    interpret h (call op k) = h op >>= fun r => interpret h (k r) := rfl

theorem interpret_bind (h : (op : Op) → Prog Op' Res' (Res op)) (p : Prog Op Res α)
    (f : α → Prog Op Res β) :
    interpret h (p >>= f) = interpret h p >>= fun a => interpret h (f a) := by
  induction p with
  | ret a => rfl
  | call op k ih =>
      rw [call_bind, interpret_call, interpret_call, bind_bind]
      exact congrArg (h op >>= ·) (funext ih)

/-- Two replacements one after the other, where the second undoes the first. -/
theorem interpret_interpret {h : (op : Op) → Prog Op' Res' (Res op)}
    {g : (op : Op') → Prog Op Res (Res' op)} (hgh : ∀ op, interpret g (h op) = perform op)
    (p : Prog Op Res α) : interpret g (interpret h p) = p := by
  induction p with
  | ret a => rfl
  | call op k ih =>
      rw [interpret_call, interpret_bind, hgh, perform_bind]
      exact congrArg (call op) (funext ih)

end Interpret

/-! ## Answers computed from a state -/

/-- How a deterministic environment answers: from its state, or not at all. -/
abbrev Handler (Op : Type) (Res : Op → Type) (σ : Type) : Type :=
  (op : Op) → σ → Option (Res op × σ)

/-- Run `p` to its end against `h`; `none` if `h` leaves some call unanswered. -/
def exec (h : Handler Op Res σ) : Prog Op Res α → σ → Option (α × σ)
  | ret a, s => some (a, s)
  | call op k, s => (h op s).bind fun x => exec h (k x.1) x.2

@[simp] theorem exec_ret (h : Handler Op Res σ) (a : α) (s : σ) :
    exec h (ret a) s = some (a, s) := rfl

theorem exec_call (h : Handler Op Res σ) (op : Op) (k : Res op → Prog Op Res α) (s : σ) :
    exec h (call op k) s = (h op s).bind fun x => exec h (k x.1) x.2 := rfl

/-- The call with its answer in hand: how a concrete run is stepped. -/
theorem exec_call_some {h : Handler Op Res σ} {op : Op} {k : Res op → Prog Op Res α} {s s' : σ}
    {r : Res op} (hop : h op s = some (r, s')) : exec h (call op k) s = exec h (k r) s' := by
  rw [exec_call, hop, Option.bind_some]

theorem exec_bind (h : Handler Op Res σ) (p : Prog Op Res α) (f : α → Prog Op Res β) (s : σ) :
    exec h (p >>= f) s = (exec h p s).bind fun x => exec h (f x.1) x.2 := by
  induction p generalizing s with
  | ret a => rfl
  | call op k ih =>
      rw [call_bind, exec_call, exec_call, Option.bind_assoc]
      congr 1
      funext x
      exact ih x.1 x.2

theorem exec_bind_some {h : Handler Op Res σ} {p : Prog Op Res α} {f : α → Prog Op Res β}
    {s s' : σ} {a : α} (hp : exec h p s = some (a, s')) :
    exec h (p >>= f) s = exec h (f a) s' := by
  rw [exec_bind, hp, Option.bind_some]

/-! ## Answers some environment may give -/

/-- What a nondeterministic environment may answer, and the state it leaves. -/
abbrev Env (Op : Type) (Res : Op → Type) (σ : Type) : Type :=
  (op : Op) → σ → Res op → σ → Prop

/-- The call a program is about to make; `none` if it has returned. -/
def next : Prog Op Res α → Option Op
  | ret _ => none
  | call op _ => some op

/-- `I` holds of the next call and the state at every point of every run of `p`
from `s` against `env`, and `Q` of what it returns. -/
def Always (env : Env Op Res σ) (I : Option Op → σ → Prop) (Q : α → σ → Prop) :
    Prog Op Res α → σ → Prop
  | ret a, s => I none s ∧ Q a s
  | call op k, s => I (some op) s ∧ ∀ r s', env op s r s' → Always env I Q (k r) s'

variable {env : Env Op Res σ} {I : Option Op → σ → Prop}

theorem always_ret {Q : α → σ → Prop} {a : α} {s : σ} :
    Always env I Q (ret a) s ↔ I none s ∧ Q a s := Iff.rfl

theorem always_call {Q : α → σ → Prop} {op : Op} {k : Res op → Prog Op Res α} {s : σ} :
    Always env I Q (call op k) s
      ↔ I (some op) s ∧ ∀ r s', env op s r s' → Always env I Q (k r) s' :=
  Iff.rfl

/-- The invariant at the point where the program stands. -/
theorem Always.here {Q : α → σ → Prop} {p : Prog Op Res α} {s : σ} (h : Always env I Q p s) :
    I p.next s := by
  cases p with
  | ret a => exact h.1
  | call op k => exact h.1

theorem always_bind {Q : β → σ → Prop} (p : Prog Op Res α) (f : α → Prog Op Res β) (s : σ)
    (h : Always env I (fun a t => Always env I Q (f a) t) p s) :
    Always env I Q (p >>= f) s := by
  induction p generalizing s with
  | ret a => exact h.2
  | call op k ih =>
      obtain ⟨hI, hk⟩ := h
      exact ⟨hI, fun r s' hr => ih r s' (hk r s' hr)⟩

/-- The other way round, where `I` asks nothing of a return. -/
theorem Always.of_bind {Q : β → σ → Prop} (hnone : ∀ s, I none s) {p : Prog Op Res α}
    {f : α → Prog Op Res β} {s : σ} (h : Always env I Q (p >>= f) s) :
    Always env I (fun a t => Always env I Q (f a) t) p s := by
  induction p generalizing s with
  | ret a => exact ⟨hnone s, h⟩
  | call op k ih => exact ⟨h.1, fun r s' hr => ih r (h.2 r s' hr)⟩

theorem Always.mono {J : Option Op → σ → Prop} {Q R : α → σ → Prop}
    (hIJ : ∀ o s, I o s → J o s) (hQR : ∀ a s, I none s → Q a s → R a s) {p : Prog Op Res α}
    {s : σ} (h : Always env I Q p s) : Always env J R p s := by
  induction p generalizing s with
  | ret a => exact ⟨hIJ none s h.1, hQR a s h.1 h.2⟩
  | call op k ih => exact ⟨hIJ (some op) s h.1, fun r s' hr => ih r (h.2 r s' hr)⟩

/-- Two things that hold of all runs hold together. -/
theorem Always.and {J : Option Op → σ → Prop} {Q R : α → σ → Prop} {p : Prog Op Res α} {s : σ}
    (h : Always env I Q p s) (h' : Always env J R p s) :
    Always env (fun o t => I o t ∧ J o t) (fun a t => Q a t ∧ R a t) p s := by
  induction p generalizing s with
  | ret a => exact ⟨⟨h.1, h'.1⟩, h.2, h'.2⟩
  | call op k ih => exact ⟨⟨h.1, h'.1⟩, fun r s' hr => ih r (h.2 r s' hr) (h'.2 r s' hr)⟩

/-- What holds against an environment holds against one that answers less. -/
theorem Always.restrict {env' : Env Op Res σ} {Q : α → σ → Prop}
    (henv : ∀ op s r s', env' op s r s' → env op s r s') {p : Prog Op Res α} {s : σ}
    (h : Always env I Q p s) : Always env' I Q p s := by
  induction p generalizing s with
  | ret a => exact h
  | call op k ih => exact ⟨h.1, fun r s' hr => ih r (h.2 r s' (henv op s r s' hr))⟩

/-- The result of a run against a handler that answers only as the environment may. -/
theorem Always.exec {h : Handler Op Res σ} {Q : α → σ → Prop}
    (henv : ∀ op s r s', h op s = some (r, s') → env op s r s') {p : Prog Op Res α} {s s' : σ}
    {a : α} (hall : Always env I Q p s) (hrun : Prog.exec h p s = some (a, s')) : Q a s' := by
  induction p generalizing s with
  | ret b =>
      obtain ⟨rfl, rfl⟩ := Prod.mk.inj (Option.some.inj hrun)
      exact hall.2
  | call op k ih =>
      obtain ⟨⟨r, t⟩, hop, hrest⟩ := Option.bind_eq_some_iff.mp hrun
      exact ih r (hall.2 r t (henv op s r t hop)) hrest

end Prog

/-! ## Labelled pieces of code

A loop without a bound is a piece of code that returns the label of the piece to
run next. `code l = none` marks the labels at which the whole program has ended. -/

section Labels

open Prog

variable {Op : Type} {Res : Op → Type} {Lab σ : Type}

/-- The points (rest of the current piece, state) that runs of `code` from label
`l₀` and state `s₀` go through. -/
inductive Reach (code : Lab → Option (Prog Op Res Lab)) (env : Env Op Res σ) (l₀ : Lab) (s₀ : σ) :
    Prog Op Res Lab → σ → Prop where
  | start : Reach code env l₀ s₀ (ret l₀) s₀
  | call {op : Op} {k : Res op → Prog Op Res Lab} {s s' : σ} {r : Res op}
      (h : Reach code env l₀ s₀ (call op k) s) (hr : env op s r s') : Reach code env l₀ s₀ (k r) s'
  | jump {l : Lab} {p : Prog Op Res Lab} {s : σ} (h : Reach code env l₀ s₀ (ret l) s)
      (hl : code l = some p) : Reach code env l₀ s₀ p s

/-- **The invariant rule for labelled code.** If each piece, started where its
label's assertion `J` holds, keeps `I` throughout and establishes `J` of the
label it jumps to, then every point of every run keeps `I`, and `J` holds
wherever a label has been reached. -/
theorem Reach.always {code : Lab → Option (Prog Op Res Lab)} {env : Env Op Res σ} {l₀ : Lab}
    {s₀ : σ} {I : Option Op → σ → Prop} {J : Lab → σ → Prop} (h₀ : I none s₀ ∧ J l₀ s₀)
    (hcode : ∀ l p s, code l = some p → J l s → Always env I J p s)
    {p : Prog Op Res Lab} {s : σ} (h : Reach code env l₀ s₀ p s) : Always env I J p s := by
  induction h with
  | start => exact h₀
  | call _ hr ih => exact ih.2 _ _ hr
  | jump _ hl ih => exact hcode _ _ _ hl ih.2

/-! ## Concrete runs

A handler that answers only as the environment may gives runs that can be
computed. -/

theorem Reach.exec {code : Lab → Option (Prog Op Res Lab)} {env : Env Op Res σ} {l₀ : Lab} {s₀ : σ}
    {h : Handler Op Res σ} (henv : ∀ op s r s', h op s = some (r, s') → env op s r s')
    (p : Prog Op Res Lab) :
    ∀ {s s' : σ} {l : Lab}, Reach code env l₀ s₀ p s → exec h p s = some (l, s') →
      Reach code env l₀ s₀ (ret l) s' := by
  induction p with
  | ret a =>
      intro s s' l hp hrun
      obtain ⟨rfl, rfl⟩ := Prod.mk.inj (Option.some.inj hrun)
      exact hp
  | call op k ih =>
      intro s s' l hp hrun
      obtain ⟨⟨r, t⟩, hop, hrest⟩ := Option.bind_eq_some_iff.mp hrun
      exact ih r (hp.call (henv op s r t hop)) hrest

/-- Run `n` pieces of labelled code, or fewer if it ends. -/
def drive (code : Lab → Option (Prog Op Res Lab)) (h : Handler Op Res σ) :
    ℕ → Lab → σ → Option (Lab × σ)
  | 0, l, s => some (l, s)
  | n + 1, l, s =>
      match code l with
      | none => some (l, s)
      | some p => (exec h p s).bind fun x => drive code h n x.1 x.2

theorem Reach.drive {code : Lab → Option (Prog Op Res Lab)} {env : Env Op Res σ} {l₀ : Lab}
    {s₀ : σ} {h : Handler Op Res σ} (henv : ∀ op s r s', h op s = some (r, s') → env op s r s')
    (n : ℕ) :
    ∀ {l l' : Lab} {s s' : σ}, Reach code env l₀ s₀ (ret l) s →
      drive code h n l s = some (l', s') → Reach code env l₀ s₀ (ret l') s' := by
  induction n with
  | zero =>
      intro l l' s s' hl hrun
      obtain ⟨rfl, rfl⟩ := Prod.mk.inj (Option.some.inj hrun)
      exact hl
  | succ n ih =>
      intro l l' s s' hl hrun
      rw [Calls.drive] at hrun
      rcases hcode : code l with - | p
      · rw [hcode] at hrun
        obtain ⟨rfl, rfl⟩ := Prod.mk.inj (Option.some.inj hrun)
        exact hl
      · rw [hcode] at hrun
        obtain ⟨⟨l₁, s₁⟩, hp, hrest⟩ := Option.bind_eq_some_iff.mp hrun
        exact ih (Reach.exec henv p (hl.jump hcode) hp) hrest

end Labels

end XnuQemuTools.Calls
