/-
What `xnu-switch` does to the breakpoints.

`switch_to_thread` disables all breakpoints, watches the current thread with one of its
own, and at the end deletes that and enables all breakpoints. Nothing remembers which
were enabled before, and nothing is done if a command in between raises. So a session
comes out as it went in in few cases only, which `switch_restores_iff` lists.

`Breakpoints` keeps the flags of the user's breakpoints and the ones the script has
made. Two fields are history: whether the breakpoints have been disabled, and the
command that raised. A command that raises has no effect, and none raises before the
breakpoints are disabled.
-/
import XnuQemuTools.SwitchThread

set_option autoImplicit false

namespace XnuQemuTools.SwitchThread

open Calls Calls.Prog Exceptions Gdb

variable {B : Type}

/-- The debugger's breakpoints. -/
structure Breakpoints (B : Type) where
  flags : B → Bool
  internal : List ℕ
  disabled : Bool
  raised : Option GdbOp

/-- Before the command. -/
def Breakpoints.start (flags : B → Bool) : Breakpoints B := ⟨flags, [], false, none⟩

/-- What a command that came back as `r` has done to them. -/
def Breakpoints.after (s : Breakpoints B) : (op : GdbOp) → Except Exn (GdbVal op) → Breakpoints B
  | op, .error _ => { s with raised := some op }
  | .disable_br, .ok _ => { s with flags := fun _ => false, disabled := true }
  | .enable_br, .ok _ => { s with flags := fun _ => true }
  | .Breakpoint _, .ok bp => { s with internal := bp :: s.internal }
  | .delete bp, .ok _ => { s with internal := s.internal.erase bp }
  | _, .ok _ => s

/-- Any command may raise once the breakpoints have been disabled. -/
def bpEnv : Env GdbOp (fun op => Except Exn (GdbVal op)) (Breakpoints B) :=
  fun op s r s' => (s.disabled = false → ∃ v, r = .ok v) ∧ s' = s.after op r

/-- The user's breakpoints have their flags, and no other breakpoint is left. -/
def Restored (flags : B → Bool) (s : Breakpoints B) : Prop :=
  s.flags = flags ∧ s.internal = []

/-- Either nothing raised and all breakpoints were enabled; or they were all disabled, and
what raised is the creation of the watchpoint or the enabling of all. -/
def Lucky (flags : B → Bool) : Option GdbOp → Prop
  | none => ∀ b, flags b = true
  | some (.Breakpoint _) => ∀ b, flags b = false
  | some .enable_br => ∀ b, flags b = false
  | some _ => False

/-! ## While the watchpoint is there -/

/-- Watchpoint `bp` is there, and nothing has raised. -/
def Watching (bp : ℕ) (s : Breakpoints B) : Prop :=
  s = ⟨fun _ => false, [bp], true, none⟩

/-- A command that is neither the creation of a breakpoint nor the enabling of all has
raised, and the watchpoint is still there. -/
def Left (s : Breakpoints B) : Prop :=
  s.internal ≠ [] ∧ ∀ flags : B → Bool, ¬ Lucky flags s.raised

theorem Left.restored_iff {s : Breakpoints B} (h : Left s) (flags : B → Bool) :
    Restored flags s ↔ Lucky flags s.raised :=
  iff_of_false (fun hr => h.1 hr.2) (h.2 flags)

/-- Commands that leave all breakpoints alone. -/
def Harmless : GdbOp → Prop
  | .Breakpoint _ | .delete _ | .enable_br | .disable_br => False
  | _ => True

/-- Run while the watchpoint is there, `p` leaves it; it is also there if `p` raises. -/
def Watches {α : Type} (bp : ℕ) (p : Script α) : Prop :=
  ∀ s : Breakpoints B, Watching bp s → Always bpEnv (fun _ _ => True)
    (fun r s' => match r with | .ok _ => Watching bp s' | .error _ => Left s') p.run s

section Watches

variable {α β : Type} {bp : ℕ}

theorem watches_pure (a : α) : Watches (B := B) bp (pure a : Script α) := fun _ hs => ⟨trivial, hs⟩

theorem Watches.bind {p : Script α} {f : α → Script β} (hp : Watches (B := B) bp p)
    (hf : ∀ a, Watches (B := B) bp (f a)) : Watches (B := B) bp (p >>= f) := by
  intro s hs
  refine always_run_bind ((hp s hs).mono (fun _ _ h => h) fun r s' _ hr => ?_)
  cases r with
  | ok a => exact hf a s' hr
  | error e => exact hr

/-- An exception that is raised again. -/
theorem Watches.rethrow {p : Script α} (hp : Watches (B := B) bp p) (f : Exn → Exn) :
    Watches (B := B) bp (tryCatch p fun e => throw (f e)) := by
  intro s hs
  refine always_run_catch ((hp s hs).mono (fun _ _ h => h) fun r s' _ hr => ?_)
  cases r with
  | ok a => exact hr
  | error e => exact ⟨trivial, hr⟩

theorem watches_request (op : GdbOp) (hop : Harmless op) :
    Watches (B := B) bp (request op : Script (GdbVal op)) := by
  rintro s rfl
  refine always_run_request fun r s' ⟨_, hs'⟩ => ?_
  subst hs'
  cases r with
  | ok v => cases op <;> first | rfl | exact hop.elim
  | error e =>
      refine ⟨List.cons_ne_nil _ _, fun flags hlucky => ?_⟩
      cases op <;> first | exact hlucky.elim | exact hop.elim

theorem get_current_thread_ptr_watches : Watches (B := B) bp get_current_thread_ptr :=
  ((watches_request (.print CURRENT_THREAD) trivial).rethrow _).rethrow _

/-- The loop, by induction on the retries that are left. -/
theorem switch_loop_watches (thread : PyValue) (n : ℕ) : ∀ tmp_tries : ℤ, tmp_tries.toNat = n →
    Watches (B := B) bp (switch_loop thread tmp_tries) := by
  induction n with
  | zero =>
      intro tmp_tries hn
      rw [switch_loop]
      refine get_current_thread_ptr_watches.bind fun current => ?_
      rw [dif_neg (by omega)]
      exact watches_pure _
  | succ n ih =>
      intro tmp_tries hn
      rw [switch_loop]
      refine get_current_thread_ptr_watches.bind fun current => ?_
      split
      · refine (watches_request .continue trivial).bind fun _ => ?_
        exact ih _ (by omega)
      · exact watches_pure _

theorem let_run_watches (thread : PyValue) (tries : ℤ) :
    Watches (B := B) bp (let_run thread tries) := by
  cases thread with
  | none => exact (watches_request .continue trivial).bind fun _ => watches_pure tries
  | _ => exact switch_loop_watches _ _ tries rfl

theorem report_watches (thread : PyValue) (tries tmp_tries old_thread : ℤ) :
    Watches (B := B) bp (report thread tries tmp_tries old_thread) := by
  unfold report
  split
  · exact watches_request _ trivial
  · exact get_current_thread_ptr_watches.bind fun _ => watches_request _ trivial

end Watches

/-! ## The whole command -/

/-- A part that leaves the watchpoint, then the rest of the command. -/
theorem Watches.then {α : Type} {bp : ℕ} {p : Script α} {f : α → Script Unit} {flags : B → Bool}
    (hp : Watches (B := B) bp p) {s : Breakpoints B} (hs : Watching bp s)
    (hf : ∀ a s, Watching bp s → Always bpEnv (fun _ _ => True)
      (fun _ s' => Restored flags s' ↔ Lucky flags s'.raised) (f a).run s) :
    Always bpEnv (fun _ _ => True) (fun _ s' => Restored flags s' ↔ Lucky flags s'.raised)
      (p >>= f).run s := by
  refine always_run_bind ((hp s hs).mono (fun _ _ h => h) fun r s' _ hr => ?_)
  cases r with
  | ok a => exact hf a s' hr
  | error e => exact hr.restored_iff flags

/-- Deleting the watchpoint and enabling all. -/
theorem restore_part (flags : B → Bool) {bp : ℕ} {s : Breakpoints B} (hs : Watching bp s) :
    Always bpEnv (fun _ _ => True) (fun _ s' => Restored flags s' ↔ Lucky flags s'.raised)
      (do delete_bp bp; enable_all_bp : Script Unit).run s := by
  subst hs
  refine always_run_bind (always_run_request fun r s' ⟨_, hs'⟩ => ?_)
  subst hs'
  cases r with
  | error e => exact iff_of_false (fun h => List.cons_ne_nil _ _ h.2) id
  | ok v =>
      refine always_run_request fun r s' ⟨_, hs'⟩ => ?_
      subst hs'
      have hgone : [bp].erase bp = [] := List.erase_cons_head ..
      cases r with
      | error e =>
          constructor
          · rintro ⟨hflags, -⟩ b
            exact (congrFun hflags b).symm
          · intro hlucky
            exact ⟨funext fun b => (hlucky b).symm, hgone⟩
      | ok v =>
          constructor
          · rintro ⟨hflags, -⟩ b
            exact (congrFun hflags b).symm
          · intro hlucky
            exact ⟨funext fun b => (hlucky b).symm, hgone⟩

/-- **What `xnu-switch` restores.** However the kernel runs and wherever a command raises,
the breakpoints are as they were exactly in the `Lucky` cases. -/
theorem switch_restores_iff (flags : B → Bool) (thread : PyValue) (tries : ℤ) :
    Always bpEnv (fun _ _ => True) (fun _ s => Restored flags s ↔ Lucky flags s.raised)
      (switch_to_thread thread tries).run (Breakpoints.start flags) := by
  have hold : ∀ s : Breakpoints B, s = Breakpoints.start flags →
      Always bpEnv (fun _ _ => True) (fun r s' => (∃ a, r = .ok a) ∧ s' = Breakpoints.start flags)
        get_current_thread_ptr.run s := by
    rintro s rfl
    refine always_run_catch (always_run_catch (always_run_request fun r s' ⟨hr, hs'⟩ => ?_))
    obtain ⟨v, rfl⟩ := hr rfl
    exact ⟨⟨v, rfl⟩, hs'⟩
  refine always_run_bind ((hold _ rfl).mono (fun _ _ h => h) fun r s _ ⟨⟨old_thread, hr⟩, hs⟩ => ?_)
  subst hr hs
  refine always_run_bind (always_run_request fun r s ⟨hr, hs⟩ => ?_)
  obtain ⟨v, rfl⟩ := hr rfl
  subst hs
  simp only [conf_curr_thread_watchpoint, bind_assoc, pure_bind]
  refine always_run_bind (always_run_request fun r s ⟨_, hs⟩ => ?_)
  subst hs
  cases r with
  | error e =>
      constructor
      · rintro ⟨hflags, -⟩ b
        exact (congrFun hflags b).symm
      · intro hlucky
        exact ⟨funext fun b => (hlucky b).symm, rfl⟩
  | ok bp =>
      refine (watches_request (.set_enabled bp true) trivial).then rfl fun _ s hs => ?_
      refine (watches_request (.set_silent bp true) trivial).then hs fun _ s hs => ?_
      refine (let_run_watches thread tries).then hs fun tmp_tries s hs => ?_
      refine (report_watches thread tries tmp_tries old_thread).then hs fun _ s hs => ?_
      exact restore_part flags hs

/-! ## Two runs -/

/-- Zero for whatever is asked. -/
def zero : (op : GdbOp) → GdbVal op
  | .x_g _ => (0 : ℤ)
  | .x_w _ => (0 : ℤ)
  | .x_s _ => ""
  | .print _ => (0 : ℤ)
  | .Breakpoint _ => (0 : ℕ)
  | .continue => ()
  | .set_enabled _ _ => ()
  | .set_silent _ _ => ()
  | .delete _ => ()
  | .enable_br => ()
  | .disable_br => ()
  | .write _ => ()

/-- A session in which, once the breakpoints are disabled, the commands `fails` raise. -/
def failing (fails : GdbOp → Bool) : Session (Breakpoints B) :=
  fun op s =>
    let r := if s.disabled && fails op then .error (.error "Remote connection closed")
      else .ok (zero op)
    some (r, s.after op r)

theorem failing_env (fails : GdbOp → Bool) (op : GdbOp) (s : Breakpoints B)
    (r : Except Exn (GdbVal op)) (s' : Breakpoints B) (h : failing fails op s = some (r, s')) :
    bpEnv op s r s' := by
  obtain ⟨rfl, rfl⟩ := Prod.mk.inj (Option.some.inj h)
  refine ⟨fun hdisabled => ⟨zero op, ?_⟩, rfl⟩
  rw [hdisabled]
  rfl

/-- Some session runs the script from `s` to `r` and `s'`. -/
def Possible {α : Type} (p : Script α) (s : Breakpoints B) (r : Except Exn α)
    (s' : Breakpoints B) : Prop :=
  ∃ h : Session (Breakpoints B),
    (∀ op t a t', h op t = some (a, t') → bpEnv op t a t') ∧ Ends h p s r s'

/-- Without an exception, a breakpoint that was disabled is enabled afterwards; and if the
kernel cannot be let run, all breakpoints stay disabled and the watchpoint is left. -/
theorem switch_leaves :
    (∃ s, Possible (switch_to_thread .none 0) (Breakpoints.start fun b : Bool => b) (.ok ()) s
      ∧ s.flags false = true ∧ ¬ Restored (fun b => b) s)
    ∧ ∃ s e, Possible (switch_to_thread .none 0) (Breakpoints.start fun _ : Bool => true)
        (.error e) s
      ∧ s.flags false = false ∧ s.internal = [0] ∧ ¬ Restored (fun _ => true) s := by
  refine ⟨⟨_, ⟨_, failing_env fun _ => false, rfl⟩, rfl, fun h => ?_⟩,
    _, _, ⟨_, failing_env (· == .continue), rfl⟩, rfl, rfl, fun h => ?_⟩
  · exact Bool.noConfusion (congrFun h.1 false)
  · exact Bool.noConfusion (congrFun h.1 false)

end XnuQemuTools.SwitchThread
