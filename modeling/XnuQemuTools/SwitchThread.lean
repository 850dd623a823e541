/-
`xnu-switch`, which lets the kernel run until a given thread is scheduled
(`gdb/xnu/tasks.py`).

`invoke` parses the two arguments, the thread's address and the number of retries, with
`int(_, 0)`, and asks whether the thread exists. Then it hands `switch_to_thread` the
number of retries and, for the thread, the text of the argument. The loop compares the
current thread, a number, with that text, and the two are never equal. So it never stops
early, and what is reported at its end, which only looks at the retries that are left, is
always that the thread was not scheduled (`switch_to_str_ends`). `switch_stops_iff`
compares this with what the command is for.

How gdb splits the arguments and what `int(_, 0)` accepts are parameters.
-/
import XnuQemuTools.KernelLists
import Mathlib.Data.Nat.Find

set_option autoImplicit false

namespace XnuQemuTools.SwitchThread

open Calls Calls.Prog Exceptions Gdb KernelLists Links

/-! ## The command -/

/-- What `switch_to_thread` can be given for a thread. -/
inductive PyValue where
  | none
  | int (n : ℤ)
  | str (s : String)
  deriving DecidableEq

/-- `n != v`. Numbers differ from `None` and from every text. -/
def PyValue.differs (v : PyValue) (n : ℤ) : Bool :=
  match v with
  | .int m => n != m
  | _ => true

/-- `while get_current_thread_ptr() != thread and tmp_tries > 0`; what is left of
`tmp_tries`. -/
def switch_loop (thread : PyValue) (tmp_tries : ℤ) : Script ℤ := do
  let current ← get_current_thread_ptr
  if h : thread.differs current = true ∧ tmp_tries > 0 then
    gdb_continue
    switch_loop thread (tmp_tries - 1)
  else return tmp_tries
termination_by tmp_tries.toNat
decreasing_by omega

/-- The `if` that lets the kernel run: once, or until the thread comes; `tmp_tries` after
it. -/
def let_run (thread : PyValue) (tries : ℤ) : Script ℤ :=
  match thread with
  | .none => do
      gdb_continue
      return tries
  | thread => switch_loop thread tries

/-- The report that the thread did not come. -/
def not_scheduled (tries old_thread : ℤ) : String :=
  "The thread was not scheduled in last " ++ toString tries
    ++ " context switches, we are still on " ++ hex old_thread ++ "\n"

/-- The report of the current thread. -/
def current_thread (current old_thread : ℤ) : String :=
  "Current thread is: " ++ hex current ++ " old: " ++ hex old_thread ++ "\n"

/-- The `if` that chooses between the two reports. -/
def report (thread : PyValue) (tries tmp_tries old_thread : ℤ) : Script Unit := do
  if tmp_tries = 0 ∧ thread ≠ .none then write (not_scheduled tries old_thread)
  else
    let current ← get_current_thread_ptr
    write (current_thread current old_thread)

/-- `switch_to_thread`. -/
def switch_to_thread (thread : PyValue) (tries : ℤ) : Script Unit := do
  let old_thread ← get_current_thread_ptr
  disable_all_bp
  let bp ← conf_curr_thread_watchpoint
  let tmp_tries ← let_run thread tries
  report thread tries tmp_tries old_thread
  delete_bp bp
  enable_all_bp

section Invoke

variable (string_to_argv : String → List String) (int0 : String → Option ℤ)

/-- `int(s, 0)`. -/
def int_ (s : String) : Script ℤ :=
  match int0 s with
  | some n => return n
  | none => throw .ValueError

/-- The message before a search. -/
def waiting (thread : String) (retries : ℤ) : String :=
  "Waiting for " ++ thread ++ " to be scheduled for " ++ toString retries
    ++ " retries, this may take a while...\n"

/-- The message in user space. -/
def in_user_space : String :=
  "\nYou are currently in user space, this functionality is not available here.\n\n"

/-- How the command is used. -/
def usage : String := "USAGE: xnu-switch $\x7bTHREAD_PTR\x7d $\x7bNUM_OF_RETRIES\x7d\n"

/-- The `try` block of `invoke`; `none` if `fuel` is too little for the list of threads. -/
def invoke_argv (argv : List String) (fuel : ℕ) : Script (Option Unit) := do
  match argv with
  | [] =>
      switch_to_thread .none 0
      return some ()
  | [thread, retries] =>
      let address ← int_ int0 thread
      match ← is_thread_exist address fuel with
      | some true =>
          let shown ← int_ int0 retries
          write (waiting thread shown)
          let tries ← int_ int0 retries
          switch_to_thread (.str thread) tries
          return some ()
      | some false =>
          write usage
          return some ()
      | none => return none
  | _ =>
      write usage
      return some ()

/-- `invoke`. -/
def invoke (arg : String) (fuel : ℕ) : Script (Option Unit) := do
  if ← is_in_kernel_space then reraise (invoke_argv int0 (string_to_argv arg) fuel)
  else
    write in_user_space
    return some ()

end Invoke

/-! ## A session in which the kernel runs

The current thread changes only while the kernel runs, so after each `continue`. -/

/-- A kernel at rest, and which thread is the current one after each continue. -/
structure Schedule where
  memory : KernelMemory
  current : ℕ → ℤ

/-- How often the kernel has been let run, and what is on the terminal. -/
structure Progress where
  continues : ℕ
  output : List String
  deriving DecidableEq

/-- A session in which nothing raises. -/
def Schedule.session (sch : Schedule) : Session Progress
  | .x_g addr, s => some (.ok (sch.memory.x_g addr), s)
  | .x_w addr, s => some (.ok (sch.memory.x_w addr), s)
  | .x_s addr, s => some (.ok (sch.memory.x_s addr), s)
  | .print var, s =>
      some (.ok (if var = CURRENT_THREAD then sch.current s.continues else sch.memory.print var), s)
  | .continue, s => some (.ok (), { s with continues := s.continues + 1 })
  | .Breakpoint _, s => some (.ok 0, s)
  | .write text, s => some (.ok (), { s with output := s.output ++ [text] })
  | .set_enabled _ _, s => some (.ok (), s)
  | .set_silent _ _, s => some (.ok (), s)
  | .delete _, s => some (.ok (), s)
  | .enable_br, s => some (.ok (), s)
  | .disable_br, s => some (.ok (), s)

variable {sch : Schedule}

/-- Reading the kernel does not let it run. -/
theorem Schedule.reads (sch : Schedule) (n : ℕ) :
    Reads sch.session (fun s => s.continues = n) sch.memory.x_g where
  x_g _ s hs := ⟨s, rfl, hs⟩
  x_w addr s hs := ⟨sch.memory.x_w addr, s, rfl, hs⟩
  x_s addr s hs := ⟨sch.memory.x_s addr, s, rfl, hs⟩
  print _ s hs := ⟨_, s, rfl, hs⟩
  write text s hs := ⟨{ s with output := s.output ++ [text] }, rfl, hs⟩

theorem get_current_thread_ptr_ends (s : Progress) :
    Ends sch.session get_current_thread_ptr s (.ok (sch.current s.continues)) s :=
  Ends.catch_ok (Ends.catch_ok (ends_request rfl))

theorem gdb_continue_ends (s : Progress) :
    Ends sch.session gdb_continue s (.ok ()) { s with continues := s.continues + 1 } :=
  ends_request rfl

theorem write_ends (text : String) (s : Progress) :
    Ends sch.session (write text) s (.ok ()) { s with output := s.output ++ [text] } :=
  ends_request rfl

/-- Waiting for a text goes on to the last retry. -/
theorem switch_loop_str_ends (thread : String) (n : ℕ) : ∀ s : Progress,
    Ends sch.session (switch_loop (.str thread) n) s (.ok 0)
      { s with continues := s.continues + n } := by
  induction n with
  | zero =>
      intro s
      rw [switch_loop]
      refine (get_current_thread_ptr_ends s).bind ?_
      rw [dif_neg (by omega)]
      exact ends_pure _
  | succ n ih =>
      intro s
      rw [switch_loop]
      refine (get_current_thread_ptr_ends s).bind ?_
      rw [dif_pos ⟨rfl, by omega⟩]
      refine (gdb_continue_ends s).bind ?_
      have hleft : ((n + 1 : ℕ) : ℤ) - 1 = n := by omega
      have hsum : s.continues + 1 + n = s.continues + (n + 1) := by omega
      rw [hleft, ← hsum]
      exact ih { s with continues := s.continues + 1 }

/-- **What waiting for a text comes to.** Every retry is used up, and the report is that
the thread was not scheduled. -/
theorem switch_to_str_ends (sch : Schedule) (thread : String) (n : ℕ) (s : Progress) :
    Ends sch.session (switch_to_thread (.str thread) n) s (.ok ())
      { continues := s.continues + n
        output := s.output ++ [not_scheduled n (sch.current s.continues)] } := by
  refine (get_current_thread_ptr_ends s).bind ?_
  refine Ends.bind (ends_request rfl) ?_
  have hwatchpoint : Ends sch.session conf_curr_thread_watchpoint s (.ok 0) s :=
    Ends.bind (ends_request rfl) (Ends.bind (ends_request rfl)
      (Ends.bind (ends_request rfl) (ends_pure 0)))
  refine hwatchpoint.bind ?_
  refine (switch_loop_str_ends thread n s).bind ?_
  have hreport : Ends sch.session (report (.str thread) n 0 (sch.current s.continues))
      { s with continues := s.continues + n } (.ok ())
      { continues := s.continues + n
        output := s.output ++ [not_scheduled n (sch.current s.continues)] } := by
    rw [report, if_pos ⟨rfl, fun h => nomatch h⟩]
    exact write_ends _ _
  refine hreport.bind ?_
  exact Ends.bind (ends_request rfl) (ends_request rfl)

theorem is_in_kernel_space_ends (s : Progress) :
    Ends sch.session is_in_kernel_space s (.ok true) s :=
  Ends.catch_ok (Ends.bind (a := sch.memory.x_g GLOBAL_TASKS_PTR) (Ends.catch_ok (ends_request rfl))
    (ends_pure true))

theorem head_append {a : String} {c : Char} (h : a.toList.head? = some c) (b : String) :
    (a ++ b).toList.head? = some c := by
  rw [String.toList_append, List.head?_append, h]
  rfl

/-- The two reports are different texts. -/
theorem not_scheduled_ne (tries old_thread current old : ℤ) :
    not_scheduled tries old_thread ≠ current_thread current old := by
  have hnot : (not_scheduled tries old_thread).toList.head? = some 'T' :=
    head_append (head_append (head_append (head_append (by decide) _) _) _) _
  have hcurrent : (current_thread current old).toList.head? = some 'C' :=
    head_append (head_append (head_append (head_append (by decide) _) _) _) _
  intro h
  rw [h, hcurrent] at hnot
  cases hnot

/-- The whole command, for a thread on the list. -/
theorem invoke_ends (sch : Schedule) (string_to_argv : String → List String)
    (int0 : String → Option ℤ) (arg : String) {text retries : String} (thread : ℤ) (tries : ℕ)
    (hargv : string_to_argv arg = [text, retries]) (hthread : int0 text = some thread)
    (htries : int0 retries = some tries) {addresses : List ℤ}
    (hwalk : Walk (fun a => sch.memory.x_g (a + ThreadOffsets.GLOBAL_THREADS)) GLOBAL_THREADS_PTR
      (sch.memory.x_g GLOBAL_THREADS_PTR) addresses)
    (hnull : NULL_PTR ∉ addresses) (hmem : thread ∈ addresses) (fuel : ℕ)
    (hfuel : addresses.length < fuel) :
    ∃ output, Ends sch.session (invoke string_to_argv int0 arg fuel) ⟨0, []⟩ (.ok (some ()))
      ⟨tries, output ++ [not_scheduled tries (sch.current 0)]⟩ := by
  obtain ⟨found, ⟨_, output⟩, hexist, rfl, hfound⟩ := thread_exists_yields (sch.reads 0) thread
    hwalk hnull hfuel ⟨0, []⟩ rfl
  rw [decide_eq_true hmem] at hfound
  subst hfound
  have hint : ∀ (t : String) (n : ℤ) (s : Progress), int0 t = some n →
      Ends sch.session (int_ int0 t) s (.ok n) s := by
    intro t n s ht
    rw [int_, ht]
    exact ends_pure n
  refine ⟨output ++ [waiting text tries], (is_in_kernel_space_ends _).bind (Ends.catch_ok ?_)⟩
  rw [hargv]
  refine (hint text thread _ hthread).bind (hexist.bind ?_)
  refine (hint retries tries _ htries).bind ((write_ends _ _).bind ?_)
  refine (hint retries tries _ htries).bind ?_
  have hswitch := switch_to_str_ends sch text tries ⟨0, output ++ [waiting text tries]⟩
  rw [Nat.zero_add] at hswitch
  exact hswitch.bind (ends_pure (some ()))

/-! ## What the command is for -/

/-- The thread is first seen to be the current one after `k` continues. -/
structure FirstSeen (current : ℕ → ℤ) (thread : ℤ) (tries k : ℕ) : Prop where
  le : k ≤ tries
  seen : current k = thread
  first : ∀ j < k, current j ≠ thread

/-- The kernel has been let run until the thread was the current one, or for all the
retries, and the report says which. -/
structure Stopped (sch : Schedule) (thread : ℤ) (tries : ℕ) (s : Progress) : Prop where
  found : ∀ k, FirstSeen sch.current thread tries k →
    s.continues = k
    ∧ s.output.getLast? = some (current_thread (sch.current k) (sch.current 0))
  missed : (∀ j ≤ tries, sch.current j ≠ thread) →
    s.continues = tries ∧ s.output.getLast? = some (not_scheduled tries (sch.current 0))

/-- **When `xnu-switch` does what it is for.** For a thread on the list and any number of
retries, exactly if the thread is never the current one. -/
theorem switch_stops_iff (sch : Schedule) (string_to_argv : String → List String)
    (int0 : String → Option ℤ) (arg : String) {text retries : String} (thread : ℤ) (tries : ℕ)
    (hargv : string_to_argv arg = [text, retries]) (hthread : int0 text = some thread)
    (htries : int0 retries = some tries) {addresses : List ℤ}
    (hwalk : Walk (fun a => sch.memory.x_g (a + ThreadOffsets.GLOBAL_THREADS)) GLOBAL_THREADS_PTR
      (sch.memory.x_g GLOBAL_THREADS_PTR) addresses)
    (hnull : NULL_PTR ∉ addresses) (hmem : thread ∈ addresses) (fuel : ℕ)
    (hfuel : addresses.length < fuel) :
    ∃ s, Ends sch.session (invoke string_to_argv int0 arg fuel) ⟨0, []⟩ (.ok (some ())) s
      ∧ (Stopped sch thread tries s ↔ ∀ j ≤ tries, sch.current j ≠ thread) := by
  obtain ⟨output, hends⟩ := invoke_ends sch string_to_argv int0 arg thread tries hargv hthread
    htries hwalk hnull hmem fuel hfuel
  refine ⟨_, hends, ?_, ?_⟩
  · -- the first time it is seen would have been reported
    intro hstopped j hj hseen
    have hex : ∃ k, sch.current k = thread := ⟨j, hseen⟩
    have hfirst : FirstSeen sch.current thread tries (Nat.find hex) :=
      ⟨Nat.le_trans (Nat.find_min' hex hseen) hj, Nat.find_spec hex, fun i hi => Nat.find_min hex hi⟩
    have hreport := (hstopped.found _ hfirst).2
    rw [List.getLast?_append_of_ne_nil _ (List.cons_ne_nil _ _)] at hreport
    exact not_scheduled_ne _ _ _ _ (Option.some.inj hreport)
  · intro hnever
    refine ⟨fun k hk => absurd hk.seen (hnever k hk.le), fun _ => ⟨rfl, ?_⟩⟩
    exact List.getLast?_append_of_ne_nil _ (List.cons_ne_nil _ _)

/-- The arguments `0x1000 3`. -/
def argv (_ : String) : List String := ["0x1000", "3"]

/-- Their values. -/
def values (s : String) : Option ℤ :=
  if s = "0x1000" then some 0x1000 else if s = "3" then some 3 else none

/-- Threads 0x1000 and 0x2000; the second is the current one until the first
`continue`, and from then on `next` is. -/
def thenComes (next : ℤ) : Schedule where
  memory := twoOnEachList
  current n := if n = 0 then 0x2000 else next

theorem thenComes_walk (next : ℤ) :
    Walk (fun a => (thenComes next).memory.x_g (a + ThreadOffsets.GLOBAL_THREADS))
      GLOBAL_THREADS_PTR ((thenComes next).memory.x_g GLOBAL_THREADS_PTR) [0x1000, 0x2000] :=
  ⟨rfl, by decide, rfl, by decide, rfl⟩

/-- Thread 0x1000 never comes, and that is what is reported. -/
theorem switch_stops_never : ∃ s, Ends (thenComes 0x2000).session
    (invoke argv values "0x1000 3" 3) ⟨0, []⟩ (.ok (some ())) s
    ∧ Stopped (thenComes 0x2000) 0x1000 3 s := by
  obtain ⟨s, hends, hiff⟩ := switch_stops_iff (thenComes 0x2000) argv values "0x1000 3" 0x1000 3 rfl
    (by decide) (by decide) (thenComes_walk 0x2000) (by decide) (by decide) 3 (by decide)
  refine ⟨s, hends, hiff.mpr fun j _ => ?_⟩
  show (if j = 0 then (0x2000 : ℤ) else 0x2000) ≠ 0x1000
  rw [ite_self]
  decide

/-- Thread 0x1000 comes at once. The kernel is let run twice more, and it is reported not
to have come. -/
theorem switch_misses : ∃ s, Ends (thenComes 0x1000).session
    (invoke argv values "0x1000 3" 3) ⟨0, []⟩ (.ok (some ())) s
    ∧ FirstSeen (thenComes 0x1000).current 0x1000 3 1 ∧ s.continues = 3
    ∧ s.output.getLast? = some (not_scheduled 3 0x2000)
    ∧ ¬ Stopped (thenComes 0x1000) 0x1000 3 s := by
  obtain ⟨output, hends⟩ := invoke_ends (thenComes 0x1000) argv values "0x1000 3" 0x1000 3 rfl
    (by decide) (by decide) (thenComes_walk 0x1000) (by decide) (by decide) 3 (by decide)
  have hfirst : FirstSeen (thenComes 0x1000).current 0x1000 3 1 :=
    ⟨by decide, by decide, by decide⟩
  refine ⟨_, hends, hfirst, rfl, List.getLast?_append_of_ne_nil _ (List.cons_ne_nil _ _), ?_⟩
  intro hstopped
  exact absurd (hstopped.found 1 hfirst).1 (show (3 : ℕ) ≠ 1 by decide)

end XnuQemuTools.SwitchThread
