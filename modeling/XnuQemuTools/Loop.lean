/-
`while True:` with `break` and exceptions.

The body of the loop takes a state and either goes on with the next state, leaves
the loop with a value, or raises. `whileTrue` runs it with a bound on the number of
iterations, and gives `none` when the bound is reached. Two facts make the bound
harmless: a result does not depend on it (`whileTrue_mono`), and a measure that
every iteration decreases provides one (`whileTrue_total`). `Reaches` is the runs
themselves, for what has to hold in the middle of one.
-/
import Mathlib.Tactic.Common
import Mathlib.Algebra.Ring.Nat

set_option autoImplicit false

namespace XnuQemuTools.Loop

variable {σ β ε : Type}

/-- How an iteration ends: at the loop head again, or with `break`. -/
inductive Step (σ β : Type) where
  | next (s : σ)
  | stop (b : β)

/-- At most `fuel` iterations of `while True: body`. -/
def whileTrue (body : σ → Except ε (Step σ β)) : ℕ → σ → Option (Except ε β)
  | 0, _ => none
  | fuel + 1, s =>
      match body s with
      | .error e => some (.error e)
      | .ok (.stop b) => some (.ok b)
      | .ok (.next s') => whileTrue body fuel s'

variable {body : σ → Except ε (Step σ β)}

theorem whileTrue_next {fuel : ℕ} {s s' : σ} (h : body s = .ok (.next s')) :
    whileTrue body (fuel + 1) s = whileTrue body fuel s' := by
  rw [whileTrue, h]

theorem whileTrue_stop {fuel : ℕ} {s : σ} {b : β} (h : body s = .ok (.stop b)) :
    whileTrue body (fuel + 1) s = some (.ok b) := by
  rw [whileTrue, h]

section Map

variable {τ γ : Type}

def Step.map (f : σ → τ) (g : β → γ) : Step σ β → Step τ γ
  | .next s => .next (f s)
  | .stop b => .stop (g b)

/-- A loop on the images of the states, whose body does to them what `body` does to the
states, does the same. -/
theorem whileTrue_map {body' : τ → Except ε (Step τ γ)} (f : σ → τ) (g : β → γ)
    (hbody : ∀ s, body' (f s) = (body s).map (Step.map f g)) (fuel : ℕ) :
    ∀ s, whileTrue body' fuel (f s) = (whileTrue body fuel s).map (Except.map g) := by
  induction fuel with
  | zero => exact fun _ => rfl
  | succ fuel ih =>
      intro s
      rw [whileTrue, whileTrue, hbody]
      rcases body s with e | ⟨s' | b⟩
      · rfl
      · exact ih s'
      · rfl

end Map

/-- A result does not depend on the bound. -/
theorem whileTrue_mono {fuel fuel' : ℕ} (hle : fuel ≤ fuel') :
    ∀ {s : σ} {result : Except ε β}, whileTrue body fuel s = some result →
      whileTrue body fuel' s = some result := by
  induction fuel generalizing fuel' with
  | zero =>
      intro s result h
      cases h
  | succ fuel ih =>
      intro s result h
      obtain ⟨n, rfl⟩ : ∃ n, fuel' = n + 1 := ⟨fuel' - 1, by omega⟩
      rw [whileTrue] at h ⊢
      rcases hbody : body s with e | ⟨s' | b⟩
      · rw [hbody] at h
        exact h
      · rw [hbody] at h
        exact ih (by omega) h
      · rw [hbody] at h
        exact h

/-- A measure that every iteration decreases bounds the number of iterations. -/
theorem whileTrue_total (measure : σ → ℕ)
    (hdecreases : ∀ s s', body s = .ok (.next s') → measure s' < measure s) (fuel : ℕ) :
    ∀ s, measure s < fuel → ∃ result, whileTrue body fuel s = some result := by
  induction fuel with
  | zero => exact fun s h => absurd h (Nat.not_lt_zero _)
  | succ fuel ih =>
      intro s h
      rw [whileTrue]
      rcases hbody : body s with e | ⟨s' | b⟩
      · exact ⟨_, rfl⟩
      · have hless := hdecreases s s' hbody
        exact ih s' (by omega)
      · exact ⟨_, rfl⟩

/-- From `s`, the loop comes back to its head with `s'`. -/
inductive Reaches (body : σ → Except ε (Step σ β)) (s : σ) : σ → Prop where
  | here : Reaches body s s
  | next {s' s'' : σ} (h : Reaches body s s') (hbody : body s' = .ok (.next s'')) :
      Reaches body s s''

/-- What holds at first and is kept by every iteration holds at the loop head. -/
theorem Reaches.invariant {P : σ → Prop} (hkeeps : ∀ s s', P s → body s = .ok (.next s') → P s')
    {s s' : σ} (h : Reaches body s s') (hs : P s) : P s' := by
  induction h with
  | here => exact hs
  | next _ hbody ih => exact hkeeps _ _ ih hbody

end XnuQemuTools.Loop
