/-
The debugger as the scripts in `gdb/xnu` use it (`utils.py`, `sys_info.py`).

Everything a script learns or does goes through a command of gdb, and any command may
raise. The wrappers of `utils.py` turn whatever was raised into a `GdbError` with the
traceback as its text; of a traceback only the message at its end is kept here.

Python's integers are `ℤ`. A command that prints a value is answered with the value:
printing it and reading the print back with `int(_, 0)` give it unchanged, which
`GdbText` shows.
-/
import XnuQemuTools.Exceptions
import Mathlib.Algebra.Ring.Int.Defs

set_option autoImplicit false

namespace XnuQemuTools.Gdb

open Calls Calls.Prog Exceptions

/-- What a script can raise; `error` is gdb's own. -/
inductive Exn where
  | GdbError (message : String)
  | error (message : String)
  | AttributeError
  | IndexError
  | TypeError
  | ValueError
  deriving DecidableEq

/-- The commands. A breakpoint is named by what its creation answered. -/
inductive GdbOp where
  | x_g (addr : ℤ)
  | x_w (addr : ℤ)
  | x_s (addr : ℤ)
  | print (var : String)
  | continue
  | Breakpoint (spec : String)
  | set_enabled (bp : ℕ) (value : Bool)
  | set_silent (bp : ℕ) (value : Bool)
  | delete (bp : ℕ)
  | enable_br
  | disable_br
  | write (text : String)
  deriving DecidableEq

/-- What each of them answers when it does not raise. -/
abbrev GdbVal : GdbOp → Type
  | .x_g _ => ℤ
  | .x_w _ => ℤ
  | .x_s _ => String
  | .print _ => ℤ
  | .Breakpoint _ => ℕ
  | _ => Unit

/-- A script, or a part of one. -/
abbrev Script (α : Type) : Type := Raising GdbOp GdbVal Exn α

/-- How a command is answered in a given session. -/
abbrev Session (σ : Type) : Type := Handler GdbOp (fun op => Except Exn (GdbVal op)) σ

/-! ## `constants.py` -/

def GLOBAL_THREADS_PTR : ℤ := 0xfffffff00760f9e0
def GLOBAL_TASKS_PTR : ℤ := 0xfffffff00760f9c0
def NULL_PTR : ℤ := 0
def CURRENT_THREAD : String := "$TPIDR_EL1"

/-! ## `utils.py` -/

/-- `traceback.format_exc()`. -/
def format_exc : Exn → String
  | .GdbError message => message
  | .error message => message
  | .AttributeError => "AttributeError"
  | .IndexError => "IndexError"
  | .TypeError => "TypeError"
  | .ValueError => "ValueError"

/-- `try: … except Exception: raise gdb.GdbError(traceback.format_exc())`. -/
def reraise {α : Type} (p : Script α) : Script α :=
  tryCatch p fun e => throw (.GdbError (format_exc e))

def get_8_byte_at (addr : ℤ) : Script ℤ := reraise (request (GdbOp.x_g addr))
def get_4_byte_at (addr : ℤ) : Script ℤ := reraise (request (GdbOp.x_w addr))
def get_string_at (value : ℤ) : Script String := reraise (request (GdbOp.x_s value))
def print_val (var : String) : Script ℤ := reraise (request (GdbOp.print var))

def gdb_continue : Script Unit := request GdbOp.continue

/-- A watchpoint on the current thread, enabled and silent. -/
def conf_curr_thread_watchpoint : Script ℕ := do
  let bp ← request (GdbOp.Breakpoint CURRENT_THREAD)
  request (GdbOp.set_enabled bp true)
  request (GdbOp.set_silent bp true)
  return bp

def delete_bp (bp : ℕ) : Script Unit := request (GdbOp.delete bp)
def enable_all_bp : Script Unit := request GdbOp.enable_br
def disable_all_bp : Script Unit := request GdbOp.disable_br

/-- `gdb.write`. -/
def write (text : String) : Script Unit := request (GdbOp.write text)

/-- `hex`. -/
def hex (n : ℤ) : String :=
  (if n < 0 then "-0x" else "0x") ++ String.ofList (Nat.toDigits 16 n.natAbs)

/-! ## `sys_info.py` -/

/-- `get_current_thread_ptr`. -/
def get_current_thread_ptr : Script ℤ :=
  tryCatch (print_val CURRENT_THREAD) fun _ =>
    throw (.GdbError "Error occured, maybe in user land?")

/-- `is_in_kernel_space`. -/
def is_in_kernel_space : Script Bool :=
  tryCatch (do let _ ← get_8_byte_at GLOBAL_TASKS_PTR; return true) fun _ => return false

end XnuQemuTools.Gdb
