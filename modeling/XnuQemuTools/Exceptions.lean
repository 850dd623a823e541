/-
Programs whose calls may raise.

A scripted debugger is such a program: every command may come back with an exception
instead of a value, and an exception ends everything up to the next handler. A
program that returns an `α` or raises an `ε` is a `Raising Op Val ε α`; a call of it is
answered by a value of `Val op` or an exception.

`Ends h p s r s'` is one run against a handler, with its composition laws. `Yields h I p Q`
says that `p` cannot go wrong as long as the state satisfies `I`, and what it returns; it
composes along `>>=` like a triple, so that a constructor made of many reads is
verified by naming what its reads give. `Raises h I p` is that `p` must go wrong.
-/
import XnuQemuTools.Calls

set_option autoImplicit false

namespace XnuQemuTools.Exceptions

open Calls Calls.Prog

/-- A program that returns an `α` or raises an `ε`, and whose calls do the same. -/
abbrev Raising (Op : Type) (Val : Op → Type) (ε α : Type) : Type :=
  ExceptT ε (Prog Op fun op => Except ε (Val op)) α

variable {Op : Type} {Val : Op → Type} {ε α β σ : Type}

/-- The program that makes one call, and raises what it raises. -/
def request (op : Op) : Raising Op Val ε (Val op) := ExceptT.mk (perform op)

/-! ## One run -/

/-- Against `h`, from `s`, the program ends with `r` in state `s'`. -/
def Ends (h : Handler Op (fun op => Except ε (Val op)) σ) (p : Raising Op Val ε α) (s : σ)
    (r : Except ε α) (s' : σ) : Prop :=
  exec h p.run s = some (r, s')

variable {h : Handler Op (fun op => Except ε (Val op)) σ} {s s' s'' : σ}

theorem ends_pure (a : α) : Ends h (pure a : Raising Op Val ε α) s (.ok a) s := rfl

theorem ends_request {op : Op} {r : Except ε (Val op)} (hop : h op s = some (r, s')) :
    Ends h (request op) s r s' := exec_call_some hop

/-- A program has at most one outcome. -/
theorem Ends.unique {p : Raising Op Val ε α} {r r' : Except ε α} (hp : Ends h p s r s')
    (hp' : Ends h p s r' s'') : r = r' ∧ s' = s'' :=
  Prod.mk.inj (Option.some.inj (hp.symm.trans hp'))

theorem Ends.bind {p : Raising Op Val ε α} {f : α → Raising Op Val ε β} {a : α} {r : Except ε β}
    (hp : Ends h p s (.ok a) s') (hf : Ends h (f a) s' r s'') : Ends h (p >>= f) s r s'' :=
  (exec_bind_some hp).trans hf

/-- What returns in two parts returns in each. -/
theorem ends_bind_ok {p : Raising Op Val ε α} {f : α → Raising Op Val ε β} {b : β} :
    Ends h (p >>= f) s (.ok b) s''
      ↔ ∃ a s', Ends h p s (.ok a) s' ∧ Ends h (f a) s' (.ok b) s'' := by
  constructor
  · intro hpf
    have hrun : ((exec h p.run s).bind fun x => exec h (ExceptT.bindCont f x.1) x.2)
        = some (.ok b, s'') := (exec_bind h p.run (ExceptT.bindCont f) s).symm.trans hpf
    obtain ⟨⟨r, s'⟩, hp, hf⟩ := Option.bind_eq_some_iff.mp hrun
    cases r with
    | ok a => exact ⟨a, s', hp, hf⟩
    | error e => cases hf
  · rintro ⟨a, s', hp, hf⟩
    exact hp.bind hf

theorem ends_pure_ok {a b : α} :
    Ends h (pure a : Raising Op Val ε α) s (.ok b) s' ↔ b = a ∧ s' = s := by
  constructor
  · intro hab
    cases hab
    exact ⟨rfl, rfl⟩
  · rintro ⟨rfl, rfl⟩
    exact ends_pure _

theorem not_ends_throw {e : ε} {a : α} :
    ¬ Ends h (throw e : Raising Op Val ε α) s (.ok a) s' := by
  intro hea
  cases hea

theorem ends_request_iff {op : Op} {r : Except ε (Val op)} :
    Ends h (request op) s r s' ↔ h op s = some (r, s') := by
  have hcall : exec h (perform op) s = h op s := by
    rw [perform, exec_call]
    exact Option.bind_fun_some (h op s)
  exact hcall ▸ Iff.rfl

theorem Ends.catch_ok {p : Raising Op Val ε α} {f : ε → Raising Op Val ε α} {a : α}
    (hp : Ends h p s (.ok a) s') : Ends h (tryCatch p f) s (.ok a) s' :=
  exec_bind_some hp

/-! ## Programs that cannot raise -/

/-- From every state that satisfies `I` the program returns, with a value in `Q`, and
leaves `I`. -/
def Yields (h : Handler Op (fun op => Except ε (Val op)) σ) (I : σ → Prop)
    (p : Raising Op Val ε α) (Q : α → Prop) : Prop :=
  ∀ s, I s → ∃ a s', Ends h p s (.ok a) s' ∧ I s' ∧ Q a

variable {I : σ → Prop}

theorem yields_pure {a : α} {Q : α → Prop} (ha : Q a) :
    Yields h I (pure a : Raising Op Val ε α) Q :=
  fun s hs => ⟨a, s, ends_pure a, hs, ha⟩

theorem yields_request {op : Op} {Q : Val op → Prop}
    (hop : ∀ s, I s → ∃ v s', h op s = some (.ok v, s') ∧ I s' ∧ Q v) :
    Yields h I (request op) Q := by
  intro s hs
  obtain ⟨v, s', hv, hs', hQ⟩ := hop s hs
  exact ⟨v, s', ends_request hv, hs', hQ⟩

theorem Yields.bind {p : Raising Op Val ε α} {f : α → Raising Op Val ε β} {P : α → Prop}
    {Q : β → Prop} (hp : Yields h I p P) (hf : ∀ a, P a → Yields h I (f a) Q) :
    Yields h I (p >>= f) Q := by
  intro s hs
  obtain ⟨a, s', hpa, hs', ha⟩ := hp s hs
  obtain ⟨b, s'', hfb, hs'', hb⟩ := hf a ha s' hs'
  exact ⟨b, s'', hpa.bind hfb, hs'', hb⟩

theorem Yields.mono {p : Raising Op Val ε α} {P Q : α → Prop} (hp : Yields h I p P)
    (hPQ : ∀ a, P a → Q a) : Yields h I p Q := by
  intro s hs
  obtain ⟨a, s', hpa, hs', ha⟩ := hp s hs
  exact ⟨a, s', hpa, hs', hPQ a ha⟩

theorem Yields.catch {p : Raising Op Val ε α} {f : ε → Raising Op Val ε α} {Q : α → Prop}
    (hp : Yields h I p Q) : Yields h I (tryCatch p f) Q := by
  intro s hs
  obtain ⟨a, s', hpa, hs', ha⟩ := hp s hs
  exact ⟨a, s', hpa.catch_ok, hs', ha⟩

/-- From every state that satisfies `I` the program raises. -/
def Raises (h : Handler Op (fun op => Except ε (Val op)) σ) (I : σ → Prop)
    (p : Raising Op Val ε α) : Prop :=
  ∀ s, I s → ∃ e s', Ends h p s (.error e) s'

theorem raises_throw {e : ε} : Raises h I (throw e : Raising Op Val ε α) :=
  fun s _ => ⟨e, s, rfl⟩

theorem Raises.bind {p : Raising Op Val ε α} {f : α → Raising Op Val ε β} (hp : Raises h I p) :
    Raises h I (p >>= f) := by
  intro s hs
  obtain ⟨e, s', he⟩ := hp s hs
  exact ⟨e, s', exec_bind_some he⟩

theorem Yields.bind_raises {p : Raising Op Val ε α} {f : α → Raising Op Val ε β} {P : α → Prop}
    (hp : Yields h I p P) (hf : ∀ a, P a → Raises h I (f a)) : Raises h I (p >>= f) := by
  intro s hs
  obtain ⟨a, s', hpa, hs', ha⟩ := hp s hs
  obtain ⟨e, s'', he⟩ := hf a ha s' hs'
  exact ⟨e, s'', hpa.bind he⟩

/-- A program that raises does not return. -/
theorem Raises.not_ok {p : Raising Op Val ε α} (hp : Raises h I p) (hs : I s) {a : α} :
    ¬ Ends h p s (.ok a) s' := by
  intro hok
  obtain ⟨e, s'', he⟩ := hp s hs
  cases (hok.unique he).1

/-- Element by element. -/
theorem yields_mapM {γ : Type} {f : γ → Raising Op Val ε α}
    (hf : ∀ c, Yields h I (f c) fun _ => True) (l : List γ) :
    Yields h I (l.mapM f) fun _ => True := by
  induction l with
  | nil => exact yields_pure trivial
  | cons c l ih =>
      rw [List.mapM_cons]
      exact (hf c).bind fun a _ => ih.bind fun as _ => yields_pure trivial

/-! ## Any answers the environment may give -/

section Always

variable {env : Env Op (fun op => Except ε (Val op)) σ}
  {J : Option Op → σ → Prop} {Q : Except ε β → σ → Prop}

/-- What the first part returns goes on, what it raises is the end. -/
theorem always_run_bind {p : Raising Op Val ε α} {f : α → Raising Op Val ε β} {s : σ}
    (h : Always env J (fun r t => match r with
      | .ok a => Always env J Q (f a).run t
      | .error e => Q (.error e) t) p.run s) :
    Always env J Q (p >>= f).run s := by
  refine always_bind p.run _ s (h.mono (fun _ _ hJ => hJ) fun r t hJ hr => ?_)
  cases r with
  | ok a => exact hr
  | error e => exact ⟨hJ, hr⟩

theorem always_run_catch {R : Except ε α → σ → Prop} {p : Raising Op Val ε α}
    {f : ε → Raising Op Val ε α} {s : σ}
    (h : Always env J (fun r t => match r with
      | .ok a => R (.ok a) t
      | .error e => Always env J R (f e).run t) p.run s) :
    Always env J R (tryCatch p f : Raising Op Val ε α).run s := by
  refine always_bind p.run _ s (h.mono (fun _ _ hJ => hJ) fun r t hJ hr => ?_)
  cases r with
  | ok a => exact ⟨hJ, hr⟩
  | error e => exact hr

theorem always_run_request {op : Op} {R : Except ε (Val op) → σ → Prop} {s : σ}
    (h : ∀ r t, env op s r t → R r t) :
    Always env (fun _ _ => True) R (request op : Raising Op Val ε (Val op)).run s :=
  ⟨trivial, fun r t hr => ⟨trivial, h r t hr⟩⟩

end Always

end XnuQemuTools.Exceptions
