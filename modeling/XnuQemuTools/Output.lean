/-
Programs that write, and programs that only do some of what they could.

A program of `Exceptions` is run here against a handler whose state is the list of what has
been written so far. `Writes h p r out` says that `p` ends with `r` and adds `out` to that
list, whatever stands there already; outputs are concatenated along `>>=`, and what was
written before an exception stays.

A loop over an iterator writes while it fetches an element and while it works on it.
`GoesTo h next last it items` lists the elements that are fetched, each with what fetching it
writes, until the iterator ends with `last`: it stops (`Goes`), or it raises. The output of
the loop up to there is given by `Goes.forEach` and `GoesTo.forEach_error`.

`Only S p` says that all calls of `p` are in `S` on every path, for any answers. It needs
no handler, and `only_iff_issues` relates it to the events of `Calls`.
-/
import XnuQemuTools.Exceptions

set_option autoImplicit false

namespace XnuQemuTools.Output

open Calls Calls.Prog Exceptions

variable {Op : Type} {Val : Op → Type} {ε α β τ : Type}

/-! ## What one run writes -/

section Writes

variable {h : Handler Op (fun op => Except ε (Val op)) (List τ)}

/-- `p` ends with `r` and writes `out`, after whatever has been written before. -/
def Writes (h : Handler Op (fun op => Except ε (Val op)) (List τ)) (p : Raising Op Val ε α)
    (r : Except ε α) (out : List τ) : Prop :=
  ∀ before, Ends h p before r (before ++ out)

theorem writes_pure (a : α) : Writes h (pure a : Raising Op Val ε α) (.ok a) [] := by
  intro before
  rw [List.append_nil]
  exact ends_pure a

theorem writes_throw (e : ε) : Writes h (throw e : Raising Op Val ε α) (.error e) [] := by
  intro before
  rw [List.append_nil]
  rfl

theorem writes_request {op : Op} {r : Except ε (Val op)} {out : List τ}
    (hop : ∀ before, h op before = some (r, before ++ out)) : Writes h (request op) r out :=
  fun before => ends_request (hop before)

theorem Writes.bind {p : Raising Op Val ε α} {f : α → Raising Op Val ε β} {a : α}
    {r : Except ε β} {out out' : List τ} (hp : Writes h p (.ok a) out)
    (hf : Writes h (f a) r out') : Writes h (p >>= f) r (out ++ out') := by
  intro before
  have hrest := hf (before ++ out)
  rw [List.append_assoc] at hrest
  exact (hp before).bind hrest

/-- The first part writes nothing. -/
theorem Writes.bind_silent {p : Raising Op Val ε α} {f : α → Raising Op Val ε β} {a : α}
    {r : Except ε β} {out : List τ} (hp : Writes h p (.ok a) []) (hf : Writes h (f a) r out) :
    Writes h (p >>= f) r out :=
  hp.bind hf

theorem Writes.bind_error {p : Raising Op Val ε α} {f : α → Raising Op Val ε β} {e : ε}
    {out : List τ} (hp : Writes h p (.error e) out) : Writes h (p >>= f) (.error e) out :=
  fun before => exec_bind_some (hp before)

theorem Writes.catch_ok {p : Raising Op Val ε α} {f : ε → Raising Op Val ε α} {a : α}
    {out : List τ} (hp : Writes h p (.ok a) out) : Writes h (tryCatch p f) (.ok a) out :=
  fun before => (hp before).catch_ok

theorem Writes.catch_error {p : Raising Op Val ε α} {f : ε → Raising Op Val ε α} {e : ε}
    {r : Except ε α} {out out' : List τ} (hp : Writes h p (.error e) out)
    (hf : Writes h (f e) r out') : Writes h (tryCatch p f) r (out ++ out') := by
  intro before
  have hrest := hf (before ++ out)
  rw [List.append_assoc] at hrest
  exact (exec_bind_some (hp before)).trans hrest

/-- A program writes one output. -/
theorem Writes.unique {p : Raising Op Val ε α} {r r' : Except ε α} {out out' : List τ}
    (hp : Writes h p r out) (hp' : Writes h p r' out') : r = r' ∧ out = out' := by
  obtain ⟨hr, hout⟩ := (hp []).unique (hp' [])
  exact ⟨hr, hout⟩

/-! ## Loops -/

/-- Work on the elements of a list, one after the other. -/
theorem writes_foldlM {γ : Type} {body : β → γ → Raising Op Val ε β} {f : β → γ → β}
    {shown : γ → List τ} (l : List γ)
    (hbody : ∀ b, ∀ c ∈ l, Writes h (body b c) (.ok (f b c)) (shown c)) (b : β) :
    Writes h (l.foldlM body b) (.ok (l.foldl f b)) (l.flatMap shown) := by
  induction l generalizing b with
  | nil => exact writes_pure b
  | cons c l ih =>
      rw [List.foldlM_cons, List.foldl_cons, List.flatMap_cons]
      refine (hbody b c (List.mem_cons_self ..)).bind ?_
      exact ih (fun b d hd => hbody b d (List.mem_cons_of_mem c hd)) _

/-- The work on one element raises, and that is the end. -/
theorem writes_foldlM_error {γ : Type} {body : β → γ → Raising Op Val ε β} {f : β → γ → β}
    {shown : γ → List τ} {done rest : List γ} {c : γ} {e : ε} {last : List τ}
    (hbody : ∀ b, ∀ d ∈ done, Writes h (body b d) (.ok (f b d)) (shown d))
    (hraise : ∀ b, Writes h (body b c) (.error e) last) (b : β) :
    Writes h ((done ++ c :: rest).foldlM body b) (.error e) (done.flatMap shown ++ last) := by
  rw [List.foldlM_append]
  refine (writes_foldlM done hbody b).bind ?_
  rw [List.foldlM_cons]
  exact (hraise _).bind_error

section ForEach

variable {It A : Type}

/-- `for a in it: b = body b a`; `none` if `fuel` is too little for it to end. -/
def forEach (next : It → Raising Op Val ε (Option (A × It))) (body : β → A → Raising Op Val ε β) :
    ℕ → It → β → Raising Op Val ε (Option β)
  | 0, _, _ => return none
  | fuel + 1, it, b => do
      match ← next it with
      | none => return some b
      | some (a, it) =>
          let b ← body b a
          forEach next body fuel it b

/-- The elements that `it` yields until `next` ends with `last`, each with what fetching it
writes. -/
inductive GoesTo (h : Handler Op (fun op => Except ε (Val op)) (List τ))
    (next : It → Raising Op Val ε (Option (A × It))) (last : Except ε (Option (A × It))) :
    It → List (A × List τ) → Prop where
  | stop {it : It} (hnext : Writes h (next it) last []) : GoesTo h next last it []
  | step {it it' : It} {a : A} {out : List τ} {items : List (A × List τ)}
      (hnext : Writes h (next it) (.ok (some (a, it'))) out)
      (hrest : GoesTo h next last it' items) : GoesTo h next last it ((a, out) :: items)

/-- The elements that `it` yields before it stops. -/
abbrev Goes (h : Handler Op (fun op => Except ε (Val op)) (List τ))
    (next : It → Raising Op Val ε (Option (A × It))) : It → List (A × List τ) → Prop :=
  GoesTo h next (.ok none)

section Loop

variable {γ : Type} {next : It → Raising Op Val ε (Option (A × It))}
  {body : β → A → Raising Op Val ε β} {get : γ → A} {fetch shown : γ → List τ}
  {step : β → γ → β} {l : List γ} {it : It} {fuel : ℕ}

/-- A loop whose iterator comes to `last`, where it ends with `r`. -/
theorem GoesTo.forEach {last : Except ε (Option (A × It))} {r : β → Except ε (Option β)}
    (hlast : ∀ (it : It) (b : β) (fuel : ℕ), Writes h (next it) last [] →
      Writes h (forEach next body (fuel + 1) it b) (r b) [])
    (hgoes : GoesTo h next last it (l.map fun c => (get c, fetch c)))
    (hbody : ∀ b, ∀ c ∈ l, Writes h (body b (get c)) (.ok (step b c)) (shown c))
    (hfuel : l.length < fuel) (b : β) :
    Writes h (forEach next body fuel it b) (r (l.foldl step b))
      (l.flatMap fun c => fetch c ++ shown c) := by
  induction l generalizing it fuel b with
  | nil =>
      obtain ⟨fuel, rfl⟩ := Nat.exists_eq_succ_of_ne_zero (Nat.ne_of_gt hfuel)
      cases hgoes with
      | stop hnext => exact hlast it b fuel hnext
  | cons c l ih =>
      obtain ⟨fuel, rfl⟩ := Nat.exists_eq_succ_of_ne_zero (Nat.ne_of_gt (Nat.zero_lt_of_lt hfuel))
      cases hgoes with
      | step hnext hrest =>
          rw [List.foldl_cons, List.flatMap_cons, List.append_assoc]
          refine hnext.bind ((hbody b c (List.mem_cons_self ..)).bind ?_)
          exact ih hrest (fun b d hd => hbody b d (List.mem_cons_of_mem c hd))
            (Nat.lt_of_succ_lt_succ hfuel) _

/-- **The output of a loop**: for each element, what fetching it and working on it writes. -/
theorem Goes.forEach (hgoes : Goes h next it (l.map fun c => (get c, fetch c)))
    (hbody : ∀ b, ∀ c ∈ l, Writes h (body b (get c)) (.ok (step b c)) (shown c))
    (hfuel : l.length < fuel) (b : β) :
    Writes h (forEach next body fuel it b) (.ok (some (l.foldl step b)))
      (l.flatMap fun c => fetch c ++ shown c) :=
  GoesTo.forEach (r := fun b => .ok (some b))
    (fun _ b _ hnext => hnext.bind (writes_pure (some b))) hgoes hbody hfuel b

/-- And if the iterator raises. -/
theorem GoesTo.forEach_error {e : ε}
    (hgoes : GoesTo h next (.error e) it (l.map fun c => (get c, fetch c)))
    (hbody : ∀ b, ∀ c ∈ l, Writes h (body b (get c)) (.ok (step b c)) (shown c))
    (hfuel : l.length < fuel) (b : β) :
    Writes h (Output.forEach next body fuel it b) (.error e)
      (l.flatMap fun c => fetch c ++ shown c) :=
  GoesTo.forEach (r := fun _ => .error e) (fun _ _ _ hnext => hnext.bind_error) hgoes hbody hfuel b

end Loop

end ForEach

end Writes

/-! ## Calls of one kind -/

section Only

variable {Res : Op → Type}

/-- Every call of `p` is one of `S`, whatever has been answered before it. -/
def Only (S : Op → Prop) : Prog Op Res α → Prop
  | .ret _ => True
  | .call op k => S op ∧ ∀ r, Only S (k r)

/-- In terms of the events of a run. -/
theorem only_iff_issues {S : Op → Prop} (p : Prog Op Res α) :
    Only S p ↔ ∀ tr op, Issues p tr op → S op := by
  induction p with
  | ret a => exact iff_of_true trivial fun tr op h => absurd h (issues_ret a tr op)
  | call op₀ k ih =>
      constructor
      · rintro ⟨hop, hk⟩ tr op hissues
        cases tr with
        | nil => exact (issues_call_nil op₀ k op).mp hissues ▸ hop
        | cons e tr =>
            obtain ⟨r, -, hrest⟩ := (issues_call_cons op₀ k e tr op).mp hissues
            exact (ih r).mp (hk r) tr op hrest
      · intro hall
        refine ⟨hall [] op₀ ((issues_call_nil op₀ k op₀).mpr rfl), fun r => (ih r).mpr ?_⟩
        intro tr op hissues
        exact hall (⟨op₀, r⟩ :: tr) op ((issues_call_cons op₀ k _ tr op).mpr ⟨r, rfl, hissues⟩)

theorem only_bind {S : Op → Prop} {p : Prog Op Res α} {f : α → Prog Op Res β} (hp : Only S p)
    (hf : ∀ a, Only S (f a)) : Only S (p >>= f) := by
  induction p with
  | ret a => exact hf a
  | call op k ih => exact ⟨hp.1, fun r => ih r (hp.2 r)⟩

theorem Only.mono {S T : Op → Prop} (hST : ∀ op, S op → T op) {p : Prog Op Res α}
    (hp : Only S p) : Only T p := by
  induction p with
  | ret a => trivial
  | call op k ih => exact ⟨hST op hp.1, fun r => ih r (hp.2 r)⟩

/-- What calls of one kind keep, the program keeps. -/
theorem Only.always {σ : Type} {env : Env Op Res σ} {S : Op → Prop} {J : σ → Prop}
    (hkeep : ∀ op s r s', S op → env op s r s' → J s → J s') {p : Prog Op Res α} (hp : Only S p)
    {s : σ} (hs : J s) : Always env (fun _ _ => True) (fun _ s' => J s') p s := by
  induction p generalizing s with
  | ret a => exact ⟨trivial, hs⟩
  | call op k ih =>
      exact ⟨trivial, fun r s' hr => ih r (hp.2 r) (hkeep op s r s' hp.1 hr hs)⟩

end Only

/-! ## Calls of one kind, and exceptions -/

section OnlyRun

variable {S : Op → Prop}

theorem only_run_pure (a : α) : Only S (pure a : Raising Op Val ε α).run := trivial

theorem only_run_throw (e : ε) : Only S (throw e : Raising Op Val ε α).run := trivial

theorem only_run_request {op : Op} (hop : S op) :
    Only S (request op : Raising Op Val ε (Val op)).run :=
  ⟨hop, fun _ => trivial⟩

theorem only_run_bind {p : Raising Op Val ε α} {f : α → Raising Op Val ε β} (hp : Only S p.run)
    (hf : ∀ a, Only S (f a).run) : Only S (p >>= f).run := by
  refine only_bind hp fun r => ?_
  cases r with
  | ok a => exact hf a
  | error e => trivial

theorem only_run_catch {p : Raising Op Val ε α} {f : ε → Raising Op Val ε α} (hp : Only S p.run)
    (hf : ∀ e, Only S (f e).run) : Only S (tryCatch p f : Raising Op Val ε α).run := by
  refine only_bind hp fun r => ?_
  cases r with
  | ok a => trivial
  | error e => exact hf e

theorem only_run_mapM {γ : Type} {f : γ → Raising Op Val ε α} (hf : ∀ c, Only S (f c).run)
    (l : List γ) : Only S (l.mapM f).run := by
  induction l with
  | nil => exact only_run_pure []
  | cons c l ih =>
      rw [List.mapM_cons]
      exact only_run_bind (hf c) fun _ => only_run_bind ih fun _ => only_run_pure _

theorem only_run_foldlM {γ : Type} {f : β → γ → Raising Op Val ε β}
    (hf : ∀ b c, Only S (f b c).run) (l : List γ) (b : β) : Only S (l.foldlM f b).run := by
  induction l generalizing b with
  | nil => exact only_run_pure b
  | cons c l ih =>
      rw [List.foldlM_cons]
      exact only_run_bind (hf b c) fun b => ih b

theorem only_run_forEach {It A : Type} {next : It → Raising Op Val ε (Option (A × It))}
    {body : β → A → Raising Op Val ε β} (hnext : ∀ it, Only S (next it).run)
    (hbody : ∀ b a, Only S (body b a).run) (fuel : ℕ) :
    ∀ it b, Only S (forEach next body fuel it b).run := by
  induction fuel with
  | zero => exact fun _ _ => only_run_pure none
  | succ fuel ih =>
      intro it b
      refine only_run_bind (hnext it) fun r => ?_
      match r with
      | none => exact only_run_pure (some b)
      | some (a, it) => exact only_run_bind (hbody b a) fun b => ih it b

end OnlyRun

end XnuQemuTools.Output
