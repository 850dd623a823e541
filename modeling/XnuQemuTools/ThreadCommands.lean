/-
`xnu-threads` and `xnu-tasks` (`gdb/xnu/tasks.py`).

The commands print a table with one line for each thread or task. Before the first line they
go through the lists to find how wide the columns have to be, so `xnu-threads` goes
through the list of all threads three times: for the longest name of a continuation, for
the longest name of a next pc, and, if all threads are asked for, to print them. Each time
every thread is built anew, and a thread whose next pc cannot be found says so again
(`Thread.warning`). `threads_printed` and `tasks_printed` give the whole output, text by text,
for any kernel whose lists are lists.

A cell is as wide as its column only if its text is not longer than the width that was
found. The widths are taken from `print_ptr_as_string(ptr)`, sixteen digits, while a line
has the name of `hex(ptr)`, which leaves zeros in front away. `columns_fit` says for which
pointers that is no difference.

How gdb splits the arguments and what `int(_, 0)` accepts are parameters, as for `xnu-switch`.
-/
import XnuQemuTools.KernelImage
import XnuQemuTools.KernelPrinters
import XnuQemuTools.SwitchThread

set_option autoImplicit false

namespace XnuQemuTools.ThreadCommands

open Calls Calls.Prog Exceptions Gdb Links KernelLists KernelObjects KernelPrinters KernelImage Output
open SwitchThread (int_ in_user_space)

/-! ## Widths -/

/-- `if len(name) > max_length: max_length = len(name)`. -/
def longer (max_length : ℕ) (name : String) : ℕ :=
  if name.length > max_length then name.length else max_length

/-- The iterator that a `for` over `iter(ThreadsIterator(is_global, task))` uses; `iter` is
called on it by name and once more by the loop. -/
def start_threads (is_global : Bool) (task : Option ℤ) : Script ThreadsIterator := do
  let it ← ThreadsIterator.init is_global task
  let it ← it.iter
  it.iter

/-- `get_max_length_proc_name`. -/
def get_max_length_proc_name (fuel : ℕ) : Script (Option ℕ) := do
  let it ← TasksIterator.init
  forEach TasksIterator.next (fun max_length task => do
    let task ← attr task
    match task.bsdinfo_object with
    | some bsdinfo => return longer max_length bsdinfo.bsd_name
    | none => return max_length) fuel it 0

section Threads

variable (symbols : Symbols)

/-- The longest name of a pointer that threads have. -/
def get_max_length_name (ptr : Thread → ℤ) (fuel : ℕ) : Script (Option ℕ) := do
  let it ← start_threads true none
  forEach ThreadsIterator.next (fun max_length thread => do
    let thread ← attr thread
    return longer max_length (symbols.get_symbol_internal (print_ptr_as_string (ptr thread))))
    fuel it 0

def get_max_length_cont_name : ℕ → Script (Option ℕ) := get_max_length_name symbols Thread.continuation
def get_max_length_pc_name : ℕ → Script (Option ℕ) := get_max_length_name symbols Thread.next_pc

/-- `get_thead_info_title`. -/
def get_thead_info_title (max_length_proc max_length_cont max_length_pc : ℕ) : String :=
  "U/K| PID | " ++ center "NAME" max_length_proc ++ " | TID |     THREAD_PTR     | "
    ++ center "CONTINUATION" max_length_cont ++ " | " ++ center "NEXT_PC*" max_length_pc ++ " |"

/-! ## Commands -/

/-- `is_valid_ptr`. -/
def is_valid_ptr (ptr : ℤ) : Script Bool :=
  tryCatch (do let _ ← get_8_byte_at ptr; return true) fun _ =>
    throw (.GdbError ("Wrong pointer! " ++ hex ptr))

/-- `user_only is False or is_user_thread(thread)`. -/
def is_listed (user_only : Bool) (thread : Option Thread) : Script Bool := do
  if user_only then return is_user_thread (← attr thread) else return true

/-- The loop body of `print_all_threads`; `counter` is the number of lines. -/
def print_thread (user_only : Bool) (max_length_proc max_length_cont max_length_pc : ℕ)
    (counter : ℕ) (thread : Option Thread) : Script ℕ := do
  if ← is_listed user_only thread then
    let text ← Thread.print_thead_info_short symbols max_length_proc max_length_cont max_length_pc
      thread
    write (text ++ "\n")
    return counter + 1
  else return counter

/-- `PrintThreadList.print_all_threads`; `none` if `fuel` is too little for the lists. -/
def print_all_threads (user_only is_global : Bool) (task : Option ℤ) (fuel : ℕ) :
    Script (Option Unit) := do
  let some max_length_proc ← get_max_length_proc_name fuel | return none
  let some max_length_cont ← get_max_length_cont_name symbols fuel | return none
  let some max_length_pc ← get_max_length_pc_name symbols fuel | return none
  write (get_thead_info_title max_length_proc max_length_cont max_length_pc ++ "\n")
  let it ← start_threads is_global task
  let some counter ← forEach ThreadsIterator.next
    (print_thread symbols user_only max_length_proc max_length_cont max_length_pc) fuel it 0
    | return none
  write ("TOTAL " ++ toString counter ++ "\n")
  return some ()

/-- `invoke` of a command that looks at the kernel only: its `try` block `body` behind
`is_in_kernel_space`. -/
def in_kernel (body : Script (Option Unit)) : Script (Option Unit) := do
  if ← is_in_kernel_space then reraise body
  else
    write in_user_space
    return some ()

/-- The notice that a task is not on the list of tasks. -/
def no_such_task (task : String) : String :=
  "\nRequested task " ++ task ++ " do not exist in the tasks list of the system!\n\n\n"

def threads_usage : String := "\nUsage: xnu-threads $\x7bTASK_PTR\x7d\n"

section Invoke

variable (string_to_argv : String → List String) (int0 : String → Option ℤ)

/-- The threads of the task that an argument names. -/
def print_requested_task (arg : String) (fuel : ℕ) : Script (Option Unit) := do
  let requested_task ← int_ int0 arg
  if ← is_valid_ptr requested_task then
    let some exist ← is_task_exist requested_task fuel | return none
    if !exist then write (no_such_task arg)
    print_all_threads symbols false false (some requested_task) fuel
  else return some ()

/-- The `try` block of `PrintThreadList.invoke`. -/
def xnu_threads_argv (argv : List String) (fuel : ℕ) : Script (Option Unit) :=
  match argv with
  | [] => print_all_threads symbols false true none fuel
  | [arg] =>
      if arg = "user" then print_all_threads symbols true true none fuel
      else if arg = "current" then do
        let task ← get_current_task_ptr
        print_all_threads symbols false false (some task) fuel
      else
        tryCatch (print_requested_task symbols int0 arg fuel) fun _ => do
          write threads_usage
          return some ()
  | _ => do
      write threads_usage
      return some ()

/-- `PrintThreadList.invoke`. -/
def xnu_threads (arg : String) (fuel : ℕ) : Script (Option Unit) :=
  in_kernel (xnu_threads_argv symbols int0 (string_to_argv arg) fuel)

end Invoke

end Threads

/-- The loop body of `xnu-tasks`. -/
def print_task (max_length_proc : ℕ) (_ : Unit) (task : Option Task) : Script Unit := do
  let text ← Task.print_task_info_short max_length_proc task
  write (text ++ "\n")

/-- The `try` block of `PrintTaskList.invoke`. -/
def print_all_tasks (fuel : ℕ) : Script (Option Unit) := do
  let some max_length_proc ← get_max_length_proc_name fuel | return none
  let it ← TasksIterator.init
  forEach TasksIterator.next (print_task max_length_proc) fuel it ()

/-- `PrintTaskList.invoke`. -/
def xnu_tasks (_arg : String) (fuel : ℕ) : Script (Option Unit) := in_kernel (print_all_tasks fuel)

/-! ## What the memory says -/

/-- The length of the longest of some names. -/
def maxLength (names : List String) : ℕ := names.foldl longer 0

theorem longer_eq (max_length : ℕ) (name : String) :
    longer max_length name = max max_length name.length := by
  unfold longer
  split <;> omega

theorem le_foldl_longer (names : List String) (n : ℕ) : n ≤ names.foldl longer n := by
  induction names generalizing n with
  | nil => exact le_rfl
  | cons name names ih =>
      rw [List.foldl_cons, longer_eq]
      exact (le_max_left ..).trans (ih _)

/-- No name is longer. -/
theorem length_le_maxLength {names : List String} {name : String} (hname : name ∈ names) :
    name.length ≤ maxLength names := by
  obtain ⟨before, after, rfl⟩ := List.append_of_mem hname
  rw [maxLength, List.foldl_append, List.foldl_cons, longer_eq]
  exact (le_max_right ..).trans (le_foldl_longer after _)

section Memory

variable (m : KernelMemory)

/-- The names of the processes of some tasks. -/
def procNames (tasks : List ℤ) : List String :=
  tasks.filterMap fun a => (Task.at m a).bsdinfo_object.map BsdInfo.bsd_name

/-- The names of a pointer that some threads have. -/
def ptrNames (symbols : Symbols) (ptr : Thread → ℤ) (threads : List ℤ) : List String :=
  threads.map fun a => symbols.get_symbol_internal (print_ptr_as_string (ptr (Thread.at m a)))

/-- The line of the thread at an address. -/
def threadLine (symbols : Symbols) (max_length_proc max_length_cont max_length_pc : ℕ)
    (address : ℤ) : String :=
  let self := Thread.at m address
  (if address = m.print CURRENT_THREAD then "*" else " ")
    ++ (if self.ucontext_data != NULL_PTR then "U |" else "K |")
    ++ Thread.processColumns self max_length_proc
    ++ " " ++ toString self.tid ++ " | " ++ hex address ++ " |"
    ++ symbolColumn symbols self.continuation max_length_cont
    ++ symbolColumn symbols self.next_pc max_length_pc

/-- The line of the task at an address. -/
def taskLine (max_length_proc : ℕ) (address : ℤ) : String :=
  (if address = m.x_g (m.print CURRENT_THREAD + ThreadOffsets.TASK) then "*" else " ")
    ++ (match (Task.at m address).bsdinfo_object with
      | some bsdinfo =>
          " [" ++ center (toString bsdinfo.bsd_pid) 2 ++ "] | "
            ++ ljust bsdinfo.bsd_name max_length_proc ++ " |"
      | none => " [" ++ center "X" 2 ++ "] | " ++ ljust "N/A" max_length_proc ++ " |")
    ++ "  " ++ hex address ++ " "

/-- Whether a thread has a line. -/
def listed (user_only : Bool) (address : ℤ) : Bool :=
  !user_only || is_user_thread (Thread.at m address)

/-- The texts of a table of the threads `shown`, where `tasks` and `threads` are all there
are. -/
def threadTable (symbols : Symbols) (tasks threads : List ℤ) (user_only : Bool)
    (shown : List ℤ) : List String :=
  let max_length_proc := maxLength (procNames m tasks)
  let max_length_cont := maxLength (ptrNames m symbols Thread.continuation threads)
  let max_length_pc := maxLength (ptrNames m symbols Thread.next_pc threads)
  threads.flatMap (Thread.warning m) ++ threads.flatMap (Thread.warning m)
    ++ [get_thead_info_title max_length_proc max_length_cont max_length_pc ++ "\n"]
    ++ (shown.flatMap fun a => Thread.warning m a
      ++ if listed m user_only a then
          [threadLine m symbols max_length_proc max_length_cont max_length_pc a ++ "\n"]
        else [])
    ++ ["TOTAL " ++ toString (shown.filter (listed m user_only)).length ++ "\n"]

/-- The memory holds the list of all tasks and the list of all threads. -/
structure Holds (tasks threads : List ℤ) : Prop where
  tasks_walk : Walk (fun a => m.x_g (a + TaskOffsets.TASK_NEXT)) GLOBAL_TASKS_PTR
    (m.x_g GLOBAL_TASKS_PTR) tasks
  threads_walk : Walk (fun a => m.x_g (a + ThreadOffsets.GLOBAL_THREADS)) GLOBAL_THREADS_PTR
    (m.x_g GLOBAL_THREADS_PTR) threads
  task_ne_null : NULL_PTR ∉ tasks
  thread_ne_null : NULL_PTR ∉ threads

/-- The memory holds the list of the threads of a task. -/
structure HoldsTask (task : ℤ) (threads : List ℤ) : Prop where
  ne_null : task ≠ NULL_PTR
  walk : Walk (fun a => m.x_g (a + ThreadOffsets.TASK_THREADS))
    (task + TaskOffsets.THREAD_LST_FROM_TASK) (m.x_g (task + TaskOffsets.THREAD_LST_FROM_TASK))
    threads
  thread_ne_null : NULL_PTR ∉ threads

end Memory

/-! ## What is printed -/

section Printed

variable {m : KernelMemory} {symbols : Symbols} {tasks threads shown : List ℤ} {fuel : ℕ}

theorem start_global_writes :
    Writes m.session (start_threads true none)
      (.ok ⟨.GLOBAL, NULL_PTR, some (m.x_g GLOBAL_THREADS_PTR), some GLOBAL_THREADS_PTR⟩) [] :=
  (writes_pure _).bind_silent ((global_iter_writes _ _).bind_silent (global_iter_writes _ _))

theorem start_task_writes {task : ℤ} (htask : task ≠ NULL_PTR) :
    Writes m.session (start_threads false (some task))
      (.ok ⟨.TASK, task, some (m.x_g (task + TaskOffsets.THREAD_LST_FROM_TASK)),
        some (task + TaskOffsets.THREAD_LST_FROM_TASK)⟩) [] := by
  have hinit : ThreadsIterator.init false (some task) = pure ⟨.TASK, task, none, none⟩ :=
    if_pos htask
  rw [start_threads, hinit, pure_bind]
  exact (task_iter_writes htask _ _).bind_silent (task_iter_writes htask _ _)

/-- The longest name of a process. -/
theorem get_max_length_proc_name_writes
    (hwalk : Walk (fun a => m.x_g (a + TaskOffsets.TASK_NEXT)) GLOBAL_TASKS_PTR
      (m.x_g GLOBAL_TASKS_PTR) tasks) (hnull : NULL_PTR ∉ tasks) (hfuel : tasks.length < fuel) :
    Writes m.session (get_max_length_proc_name fuel) (.ok (some (maxLength (procNames m tasks))))
      [] := by
  have hout : (tasks.flatMap fun _ => ([] : List String) ++ []) = [] :=
    List.flatMap_eq_nil_iff.mpr fun _ _ => rfl
  refine tasksIterator_init_writes.bind_silent ?_
  rw [maxLength, procNames, List.foldl_filterMap, ← hout]
  refine (tasks_goes hwalk hnull).forEach (fun n a _ => ?_) hfuel 0
  refine (attr_writes _).bind_silent ?_
  cases (Task.at m a).bsdinfo_object <;> exact writes_pure _

/-- The longest name of a pointer; the threads are built on the way. -/
theorem get_max_length_name_writes (hm : Holds m tasks threads) (hfuel : threads.length < fuel)
    (ptr : Thread → ℤ) :
    Writes m.session (get_max_length_name symbols ptr fuel)
      (.ok (some (maxLength (ptrNames m symbols ptr threads)))) (threads.flatMap (Thread.warning m)) := by
  have hout : (threads.flatMap fun a => Thread.warning m a ++ []) = threads.flatMap (Thread.warning m) :=
    List.flatMap_congr fun a _ => List.append_nil _
  refine start_global_writes.bind_silent ?_
  rw [maxLength, ptrNames, List.foldl_map, ← hout]
  refine (threads_goes rfl rfl hm.threads_walk hm.thread_ne_null).forEach (fun n a _ => ?_) hfuel 0
  exact (attr_writes _).bind_silent (writes_pure _)

theorem print_thead_info_short_writes (max_length_proc max_length_cont max_length_pc : ℕ)
    (address : ℤ) :
    Writes m.session
      (Thread.print_thead_info_short symbols max_length_proc max_length_cont max_length_pc
        (some (Thread.at m address)))
      (.ok (threadLine m symbols max_length_proc max_length_cont max_length_pc address)) [] :=
  get_current_thread_ptr_writes.bind_silent (writes_pure _)

theorem is_listed_writes (user_only : Bool) (address : ℤ) :
    Writes m.session (is_listed user_only (some (Thread.at m address)))
      (.ok (listed m user_only address)) [] := by
  cases user_only with
  | false => exact writes_pure true
  | true => exact (attr_writes _).bind_silent (writes_pure _)

/-- One line, or none. -/
theorem print_thread_writes (user_only : Bool) (max_length_proc max_length_cont max_length_pc : ℕ)
    (counter : ℕ) (address : ℤ) :
    Writes m.session
      (print_thread symbols user_only max_length_proc max_length_cont max_length_pc counter
        (some (Thread.at m address)))
      (.ok (if listed m user_only address then counter + 1 else counter))
      (if listed m user_only address then
        [threadLine m symbols max_length_proc max_length_cont max_length_pc address ++ "\n"]
      else []) := by
  refine (is_listed_writes user_only address).bind_silent ?_
  split
  · refine (print_thead_info_short_writes _ _ _ _).bind_silent ?_
    exact (write_writes _).bind (writes_pure _)
  · exact writes_pure counter

/-- Counting the lines. -/
theorem foldl_count (p : ℤ → Bool) (l : List ℤ) (n : ℕ) :
    l.foldl (fun counter a => if p a then counter + 1 else counter) n
      = n + (l.filter p).length := by
  induction l generalizing n with
  | nil => rfl
  | cons a l ih =>
      rw [List.foldl_cons, ih, List.filter_cons]
      split
      · rw [List.length_cons]
        omega
      · rfl

/-- **The table** of the threads that an iterator goes through. -/
theorem print_all_threads_writes (hm : Holds m tasks threads) {user_only is_global : Bool}
    {task : Option ℤ} {it : ThreadsIterator} {stop ptr : ℤ}
    (hstart : Writes m.session (start_threads is_global task) (.ok it) [])
    (hptr : it.next_thread_ptr = some ptr) (hstop : it.stop_contition = some stop)
    (hwalk : Walk (fun a => m.x_g (a + it.type.offset)) stop ptr shown)
    (hnull : NULL_PTR ∉ shown) (htasks : tasks.length < fuel) (hthreads : threads.length < fuel)
    (hshown : shown.length < fuel) :
    Writes m.session (print_all_threads symbols user_only is_global task fuel) (.ok (some ()))
      (threadTable m symbols tasks threads user_only shown) := by
  unfold threadTable
  simp only [List.append_assoc]
  refine (get_max_length_proc_name_writes hm.tasks_walk hm.task_ne_null htasks).bind_silent ?_
  refine (get_max_length_name_writes hm hthreads _).bind ?_
  refine (get_max_length_name_writes hm hthreads _).bind ?_
  refine (write_writes _).bind (hstart.bind_silent ?_)
  refine ((threads_goes hptr hstop hwalk hnull).forEach
    (fun counter a _ => print_thread_writes user_only _ _ _ counter a) hshown 0).bind ?_
  rw [foldl_count, Nat.zero_add]
  exact (write_writes _).bind (writes_pure _)

/-- The table of all threads. -/
theorem print_global_writes (hm : Holds m tasks threads) (user_only : Bool)
    (htasks : tasks.length < fuel) (hthreads : threads.length < fuel) :
    Writes m.session (print_all_threads symbols user_only true none fuel) (.ok (some ()))
      (threadTable m symbols tasks threads user_only threads) :=
  print_all_threads_writes hm start_global_writes rfl rfl hm.threads_walk hm.thread_ne_null htasks
    hthreads hthreads

/-- The table of the threads of a task. -/
theorem print_of_task_writes (hm : Holds m tasks threads) {task : ℤ} (ht : HoldsTask m task shown)
    (htasks : tasks.length < fuel) (hthreads : threads.length < fuel)
    (hshown : shown.length < fuel) :
    Writes m.session (print_all_threads symbols false false (some task) fuel) (.ok (some ()))
      (threadTable m symbols tasks threads false shown) :=
  print_all_threads_writes hm (start_task_writes ht.ne_null) rfl rfl ht.walk ht.thread_ne_null
    htasks hthreads hshown

theorem is_valid_ptr_writes (ptr : ℤ) : Writes m.session (is_valid_ptr ptr) (.ok true) [] := by
  refine Writes.catch_ok ?_
  exact (get_8_byte_at_writes ptr).bind_silent (writes_pure true)

theorem is_in_kernel_space_writes : Writes m.session is_in_kernel_space (.ok true) [] := by
  refine Writes.catch_ok ?_
  exact (get_8_byte_at_writes GLOBAL_TASKS_PTR).bind_silent (writes_pure true)

section InKernel

variable {h : Session (List String)}

/-- What a `try` block raises is raised as gdb's error. -/
theorem reraise_writes {α : Type} {p : Script α} {r : Except Exn α} {out : List String}
    (hp : Writes h p r out) :
    Writes h (reraise p) (r.mapError fun e => .GdbError (format_exc e)) out := by
  cases r with
  | ok a => exact hp.catch_ok
  | error e =>
      rw [← List.append_nil out]
      exact hp.catch_error (writes_throw _)

theorem in_kernel_ends (hkernel : Writes h is_in_kernel_space (.ok true) [])
    {body : Script (Option Unit)} {r : Except Exn (Option Unit)} {out : List String}
    (hbody : Writes h body r out) :
    Writes h (in_kernel body) (r.mapError fun e => .GdbError (format_exc e)) out :=
  hkernel.bind_silent (reraise_writes hbody)

theorem int_writes {int0 : String → Option ℤ} {text : String} {n : ℤ} (htext : int0 text = some n) :
    Writes h (int_ int0 text) (.ok n) [] := by
  rw [int_, htext]
  exact writes_pure n

end InKernel

theorem in_kernel_writes {body : Script (Option Unit)} {r : Option Unit} {out : List String}
    (hbody : Writes m.session body (.ok r) out) : Writes m.session (in_kernel body) (.ok r) out :=
  in_kernel_ends is_in_kernel_space_writes hbody

theorem get_current_task_ptr_writes :
    Writes m.session get_current_task_ptr
      (.ok (m.x_g (m.print CURRENT_THREAD + ThreadOffsets.TASK))) [] := by
  refine Writes.catch_ok ?_
  exact (print_val_writes CURRENT_THREAD).bind_silent (get_8_byte_at_writes _)

variable {int0 : String → Option ℤ}

theorem print_requested_task_writes (hm : Holds m tasks threads) {task : ℤ}
    (ht : HoldsTask m task shown) (htasks : tasks.length < fuel) (hthreads : threads.length < fuel)
    (hshown : shown.length < fuel) {text : String} (htext : int0 text = some task) :
    Writes m.session (print_requested_task symbols int0 text fuel) (.ok (some ()))
      ((if task ∈ tasks then [] else [no_such_task text])
        ++ threadTable m symbols tasks threads false shown) := by
  refine (int_writes htext).bind_silent ((is_valid_ptr_writes task).bind_silent ?_)
  refine (is_task_exist_writes hm.tasks_walk hm.task_ne_null htasks task).bind_silent ?_
  by_cases hmem : task ∈ tasks
  · simp only [hmem, decide_true, if_true]
    exact print_of_task_writes hm ht htasks hthreads hshown
  · simp only [hmem, decide_false, if_false]
    exact (write_writes _).bind (print_of_task_writes hm ht htasks hthreads hshown)

/-- **The output of `xnu-threads`.** On a kernel at rest whose lists are lists, the command
writes a table of all threads, of the user threads among them, of those of the current task
or of those of the task it is given, which need not be on the list of tasks; each in the
order of its list, and nothing but the table and what the search for each next pc says. -/
theorem threads_printed (string_to_argv : String → List String) (arg : String)
    (hm : Holds m tasks threads) (htasks : tasks.length < fuel) (hthreads : threads.length < fuel) :
    (string_to_argv arg = [] →
      Writes m.session (xnu_threads symbols string_to_argv int0 arg fuel) (.ok (some ()))
        (threadTable m symbols tasks threads false threads))
    ∧ (string_to_argv arg = ["user"] →
      Writes m.session (xnu_threads symbols string_to_argv int0 arg fuel) (.ok (some ()))
        (threadTable m symbols tasks threads true threads))
    ∧ ∀ task shown, HoldsTask m task shown → shown.length < fuel →
      (string_to_argv arg = ["current"] → m.x_g (m.print CURRENT_THREAD + ThreadOffsets.TASK) = task →
        Writes m.session (xnu_threads symbols string_to_argv int0 arg fuel) (.ok (some ()))
          (threadTable m symbols tasks threads false shown))
      ∧ ∀ text, text ≠ "user" → text ≠ "current" → string_to_argv arg = [text] →
        int0 text = some task →
        Writes m.session (xnu_threads symbols string_to_argv int0 arg fuel) (.ok (some ()))
          ((if task ∈ tasks then [] else [no_such_task text])
            ++ threadTable m symbols tasks threads false shown) := by
  unfold xnu_threads
  refine ⟨fun harg => ?_, fun harg => ?_, fun task shown ht hshown => ⟨fun harg hcurrent => ?_,
    fun text huser hcurrent harg htext => ?_⟩⟩ <;> rw [harg] <;> refine in_kernel_writes ?_
  · exact print_global_writes hm false htasks hthreads
  · exact print_global_writes hm true htasks hthreads
  · subst hcurrent
    exact get_current_task_ptr_writes.bind_silent
      (print_of_task_writes hm ht htasks hthreads hshown)
  · rw [xnu_threads_argv, if_neg huser, if_neg hcurrent]
    exact (print_requested_task_writes hm ht htasks hthreads hshown htext).catch_ok

/-- Two threads, and two tasks. -/
theorem twoOnEachList_holds : Holds twoOnEachList [0x1000, 0x2000] [0x1000, 0x2000] where
  tasks_walk := ⟨by decide, by decide, by decide, by decide, rfl⟩
  threads_walk := ⟨by decide, by decide, by decide, by decide, rfl⟩
  task_ne_null := by decide
  thread_ne_null := by decide

/-- Their table. -/
theorem threads_printed_two :
    Writes twoOnEachList.session (xnu_threads noSymbols (fun _ => []) (fun _ => none) "" 3)
      (.ok (some ()))
      (threadTable twoOnEachList noSymbols [0x1000, 0x2000] [0x1000, 0x2000] false
        [0x1000, 0x2000]) :=
  (threads_printed (fun _ => []) "" twoOnEachList_holds (by decide) (by decide)).1 rfl

/-- The line of a task. -/
theorem print_task_writes (max_length_proc : ℕ) (b : Unit) (address : ℤ) :
    Writes m.session (print_task max_length_proc b (some (Task.at m address))) (.ok b)
      [taskLine m max_length_proc address ++ "\n"] := by
  have htext : Writes m.session
      (Task.print_task_info_short max_length_proc (some (Task.at m address)))
      (.ok (taskLine m max_length_proc address)) [] :=
    get_current_task_ptr_writes.bind_silent (writes_pure _)
  exact htext.bind_silent (write_writes _)

/-- **The output of `xnu-tasks`**: one line for each task, in the order of the list. -/
theorem tasks_printed (arg : String)
    (hwalk : Walk (fun a => m.x_g (a + TaskOffsets.TASK_NEXT)) GLOBAL_TASKS_PTR
      (m.x_g GLOBAL_TASKS_PTR) tasks) (hnull : NULL_PTR ∉ tasks) (htasks : tasks.length < fuel) :
    Writes m.session (xnu_tasks arg fuel) (.ok (some ()))
      (tasks.map fun a => taskLine m (maxLength (procNames m tasks)) a ++ "\n") := by
  have hlines : tasks.map (fun a => taskLine m (maxLength (procNames m tasks)) a ++ "\n")
      = tasks.flatMap fun a => [] ++ [taskLine m (maxLength (procNames m tasks)) a ++ "\n"] :=
    List.map_eq_flatMap
  rw [hlines]
  refine in_kernel_writes ((get_max_length_proc_name_writes hwalk hnull htasks).bind_silent ?_)
  refine tasksIterator_init_writes.bind_silent ?_
  exact (tasks_goes hwalk hnull).forEach
    (fun b a _ => print_task_writes (maxLength (procNames m tasks)) b a) htasks ()

/-- The lines of the two tasks. -/
theorem tasks_printed_two :
    Writes twoOnEachList.session (xnu_tasks "" 3) (.ok (some ()))
      ([0x1000, 0x2000].map fun a =>
        taskLine twoOnEachList (maxLength (procNames twoOnEachList [0x1000, 0x2000])) a ++ "\n") :=
  tasks_printed "" twoOnEachList_holds.tasks_walk twoOnEachList_holds.task_ne_null (by decide)

end Printed

/-! ## Cells and columns -/

theorem length_spaces (n : ℕ) : (spaces n).length = n := by
  induction n with
  | zero => rfl
  | succ n ih =>
      have hcons : spaces (n + 1) = " " ++ spaces n := by
        simp only [spaces, List.replicate_succ, String.join_cons]
      rw [hcons, String.length_append, ih, Nat.add_comm]
      rfl

theorem length_ljust (text : String) (width : ℕ) :
    (ljust text width).length = max text.length width := by
  rw [ljust, String.length_append, length_spaces]
  omega

theorem length_center (text : String) (width : ℕ) :
    (center text width).length = max text.length width := by
  simp only [center, String.length_append, length_spaces]
  omega

/-- The text in a cell for a pointer. -/
def cellText (symbols : Symbols) (ptr : ℤ) : String :=
  if ptr = NULL_PTR then "N/A" else symbols.get_symbol_internal (hex ptr)

/-- A cell, with the blank before it and the bar behind. -/
theorem length_symbolColumn (symbols : Symbols) (ptr : ℤ) (width : ℕ) :
    (symbolColumn symbols ptr width).length = max (cellText symbols ptr).length width + 3 := by
  have hcell : ∀ text : String, (" " ++ center text width ++ " |").length
      = max text.length width + 3 := by
    intro text
    rw [String.length_append, String.length_append, length_center]
    have hblank : (" " : String).length = 1 := rfl
    have hbar : (" |" : String).length = 2 := rfl
    omega
  unfold symbolColumn cellText
  split <;> exact hcell _

theorem hex_pos {n : ℤ} (hn : 0 < n) : hex n = "0x" ++ String.ofList (Nat.toDigits 16 n.natAbs) := by
  rw [hex, if_neg (by omega)]

theorem print_ptr_as_string_pos {n : ℤ} (hn : 0 < n) :
    print_ptr_as_string n = "0x" ++ (String.join (List.replicate
        (16 - (String.ofList (Nat.toDigits 16 n.natAbs)).length) "0")
      ++ String.ofList (Nat.toDigits 16 n.natAbs)) := by
  rw [print_ptr_as_string, if_neg (by omega), format_016x]
  have hsign : ¬ n < 0 := by omega
  simp only [if_neg hsign, String.length_empty, Nat.sub_zero, String.empty_append]

/-- Sixteen digits are written the same way by both. -/
theorem print_ptr_as_string_eq_hex {n : ℤ} (hlow : 16 ^ 15 ≤ n) (hhigh : n < 16 ^ 16) :
    print_ptr_as_string n = hex n := by
  have hpos : 0 < n := by omega
  have hle : (Nat.toDigits 16 n.natAbs).length ≤ 16 :=
    (Nat.length_toDigits_le_iff (by decide) (by decide)).mpr (by omega)
  have hge : ¬ (Nat.toDigits 16 n.natAbs).length ≤ 15 := by
    rw [Nat.length_toDigits_le_iff (by decide) (by decide)]
    omega
  have hzeros : 16 - (String.ofList (Nat.toDigits 16 n.natAbs)).length = 0 := by
    rw [String.length_ofList]
    omega
  rw [print_ptr_as_string_pos hpos, hex_pos hpos, hzeros, List.replicate_zero, String.join_nil,
    String.empty_append]

/-- And zeros in front make it only longer. -/
theorem length_hex_le {n : ℤ} (hn : 0 < n) : (hex n).length ≤ (print_ptr_as_string n).length := by
  rw [print_ptr_as_string_pos hn, hex_pos hn, String.length_append, String.length_append,
    String.length_append]
  omega

/-- A pointer for which it does not matter that the width is taken from `print_ptr_as_string`
and the line from `hex`: one of sixteen digits, one without a name, or the null pointer if
the name of its text is not shorter than `N/A`. -/
def Spelled (symbols : Symbols) (ptr : ℤ) : Prop :=
  (ptr = NULL_PTR ∧ 3 ≤ (symbols.get_symbol_internal NULL_PTR_STR).length)
    ∨ (16 ^ 15 ≤ ptr ∧ ptr < 16 ^ 16)
    ∨ (0 < ptr ∧ symbols.get_symbol_internal (hex ptr) = hex ptr
      ∧ symbols.get_symbol_internal (print_ptr_as_string ptr) = print_ptr_as_string ptr)

theorem Spelled.length_le {symbols : Symbols} {ptr : ℤ} (h : Spelled symbols ptr) :
    (cellText symbols ptr).length
      ≤ (symbols.get_symbol_internal (print_ptr_as_string ptr)).length := by
  rcases h with ⟨rfl, hnull⟩ | ⟨hlow, hhigh⟩ | ⟨hpos, hhex, hprint⟩
  · have hna : cellText symbols NULL_PTR = "N/A" := if_pos rfl
    have hzero : print_ptr_as_string NULL_PTR = NULL_PTR_STR := if_pos rfl
    rw [hna, hzero]
    exact hnull
  · have hne : ptr ≠ NULL_PTR := by
      rw [NULL_PTR]
      omega
    rw [cellText, if_neg hne, print_ptr_as_string_eq_hex hlow hhigh]
  · have hne : ptr ≠ NULL_PTR := by
      rw [NULL_PTR]
      omega
    rw [cellText, if_neg hne, hhex, hprint]
    exact length_hex_le hpos

section Fit

variable {m : KernelMemory} {symbols : Symbols} {tasks threads : List ℤ}

/-- The process columns of a thread whose task is one of `tasks` and has a name. -/
theorem length_bsd_name_le {task : ℤ} (htask : task ∈ tasks) {bsdinfo : BsdInfo}
    (hbsd : (Task.at m task).bsdinfo_object = some bsdinfo) :
    bsdinfo.bsd_name.length ≤ maxLength (procNames m tasks) := by
  refine length_le_maxLength (List.mem_filterMap.mpr ⟨task, htask, ?_⟩)
  rw [hbsd]
  rfl

/-- **No cell is wider than its column.** In the table of all threads, the cells for the
continuation and the next pc of a thread are exactly as wide as the column where the pointer
is `Spelled`, and so is the cell for the name of its process if its task is on the list. -/
theorem columns_fit {address : ℤ} (haddress : address ∈ threads) :
    (∀ ptr : Thread → ℤ, Spelled symbols (ptr (Thread.at m address)) →
      (symbolColumn symbols (ptr (Thread.at m address))
          (maxLength (ptrNames m symbols ptr threads))).length
        = maxLength (ptrNames m symbols ptr threads) + 3)
    ∧ ∀ bsdinfo, m.x_g (address + ThreadOffsets.TASK) ∈ tasks →
      (Task.at m (m.x_g (address + ThreadOffsets.TASK))).bsdinfo_object = some bsdinfo →
      (ljust bsdinfo.bsd_name (maxLength (procNames m tasks))).length
        = maxLength (procNames m tasks) := by
  refine ⟨fun ptr hptr => ?_, fun bsdinfo htask hbsd => ?_⟩
  · have hname : (symbols.get_symbol_internal (print_ptr_as_string (ptr (Thread.at m address)))).length
        ≤ maxLength (ptrNames m symbols ptr threads) :=
      length_le_maxLength (List.mem_map_of_mem haddress)
    rw [length_symbolColumn, Nat.max_eq_right (hptr.length_le.trans hname)]
  · rw [length_ljust, Nat.max_eq_right (length_bsd_name_le htask hbsd)]

/-- A thread of `launchd` that goes on in the kernel, and one with nothing in it. -/
def namedThread : KernelMemory where
  x_g addr :=
    if addr = 0x1080 then 0xfffffff007a1b2c4
    else if addr = 0x1368 then 0x4000
    else if addr = 0x4358 then 0x5000
    else 0
  x_w _ := 1
  x_s addr := if addr = 0x5000 + NAME_INBSD_INFO then "launchd" else ""
  print _ := 0

/-- One function has a name. -/
def oneSymbol : Symbols where
  sym_dict addr := if addr = "0xfffffff007a1b2c4" then some "thread_continue" else none
  found_fuct_name_dict _ := none

/-- Its continuation, which has a name, and the name of its process, whose task is listed. -/
theorem columns_fit_named :
    (symbolColumn oneSymbol 0xfffffff007a1b2c4
        (maxLength (ptrNames namedThread oneSymbol Thread.continuation [0x1000, 0x2000]))).length
      = maxLength (ptrNames namedThread oneSymbol Thread.continuation [0x1000, 0x2000]) + 3
    ∧ (ljust "launchd" (maxLength (procNames namedThread [0x3000, 0x4000]))).length
      = maxLength (procNames namedThread [0x3000, 0x4000]) := by
  have hptr : (Thread.at namedThread 0x1000).continuation = 0xfffffff007a1b2c4 := by decide
  obtain ⟨hcell, hproc⟩ := @columns_fit namedThread oneSymbol [0x3000, 0x4000] [0x1000, 0x2000]
    0x1000 (List.mem_cons_self ..)
  have hfit := hcell Thread.continuation
  rw [hptr] at hfit
  exact ⟨hfit (.inr (.inl ⟨by decide, by decide⟩)), hproc ⟨1, "launchd"⟩ (by decide) rfl⟩

end Fit

end XnuQemuTools.ThreadCommands
