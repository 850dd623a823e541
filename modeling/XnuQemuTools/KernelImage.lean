/-
What the objects of `gdb/xnu/xnu_types.py` are, read off a kernel memory.

The constructors of `KernelLists` and `KernelObjects` are scripts: they ask gdb for one field
after the other. On a kernel at rest an object is a function of the memory, and these
functions are given here (`Task.at`, `Thread.at`, …), each with the lemma that the
constructor returns it. Reading writes nothing to the terminal, with one exception: the next
pc of a thread in the middle of its creation or its exit cannot be found, and the constructor
says so. `Thread.warning` is that text, and it appears every time the thread is built.

`tasks_goes` and `threads_goes` put the objects together to what the iterators fetch along
a list, from which the output of every loop over tasks and threads follows.
-/
import XnuQemuTools.KernelObjects
import XnuQemuTools.Output

set_option autoImplicit false

namespace XnuQemuTools.KernelImage

open Calls Calls.Prog Exceptions Gdb Links KernelLists KernelObjects Output

/-! ## Objects -/

def BsdInfo.at (m : KernelMemory) (address : ℤ) : Option BsdInfo :=
  if address ≠ NULL_PTR then
    some ⟨m.x_w (address + PID_IN_BSD_INFO), m.x_s (address + NAME_INBSD_INFO)⟩
  else none

def IPCSpace.at (m : KernelMemory) (address : ℤ) : Option IPCSpace :=
  if address ≠ NULL_PTR then
    some ⟨m.x_g (address + IS_TABLE), m.x_w (address + IS_TABLE_SIZE),
      m.x_w (address + IS_TABLE_FREE)⟩
  else none

/-- The registers that were saved at an address that is not null. -/
def ThreadSavedState.at (m : KernelMemory) (address : ℤ) : ThreadSavedState where
  x := (List.range 29).map fun i : ℕ => m.x_g (address + 0x08 + 0x08 * i)
  fp := m.x_g (address + 0x08 + 0xe8)
  lr := m.x_g (address + 0x08 + 0xf0)
  sp := m.x_g (address + 0x08 + 0xf8)
  pc := m.x_g (address + 0x08 + 0x100)
  cpsr := m.x_w (address + 0x08 + 0x108)
  reserved := m.x_w (address + 0x08 + 0x10c)
  far := m.x_g (address + 0x08 + 0x110)
  esr := m.x_w (address + 0x08 + 0x118)
  exception := m.x_w (address + 0x08 + 0x11c)

/-- The task at an address that is not null. -/
def Task.at (m : KernelMemory) (address : ℤ) : Task where
  address := address
  task_lst_ptr := address + TaskOffsets.TASK_NEXT
  threads_lst_ptr := address + TaskOffsets.THREAD_LST_FROM_TASK
  bsd_info_ptr := m.x_g (address + TaskOffsets.BSD_INFO)
  itk_self := m.x_g (address + TaskOffsets.ITK_SELF)
  ipc_space := m.x_g (address + TaskOffsets.IPC_SPACE)
  ipc_space_object := IPCSpace.at m (m.x_g (address + TaskOffsets.IPC_SPACE))
  bsdinfo_object := BsdInfo.at m (m.x_g (address + TaskOffsets.BSD_INFO))

/-- The task at an address, if it is not null. -/
def Task.at? (m : KernelMemory) (address : ℤ) : Option Task :=
  if address ≠ NULL_PTR then some (Task.at m address) else none

/-- The pc behind `exception_return`, if that is the next function. -/
def pc_after_exception_return (m : KernelMemory) (stack_ptr_thread_invoke kernel_next_pc : ℤ) : ℤ :=
  if kernel_next_pc = NextPcHelpOffsets.EXEPTION_RETURN_PTR then
    let next_x21_ptr := m.x_g (stack_ptr_thread_invoke
      + NextPcHelpOffsets.THREAD_INVOKE_FRAME_SIZE + NextPcHelpOffsets.X21_IN_THREAD_INVOKE_FRAME)
    if next_x21_ptr = NULL_PTR then NULL_PTR else (ThreadSavedState.at m next_x21_ptr).pc
  else kernel_next_pc

/-- The text for a thread whose next pc cannot be found. -/
def something_went_wrong (address : ℤ) : String :=
  "Something went wrong for thread " ++ hex address ++ " with getting the next pc, "
    ++ "maybe in a middle of thread's create/exit"

/-- The next pc of a thread that is not running, from its kernel stack; and what is said if
it cannot be found. -/
def kernel_next_pc_at (m : KernelMemory) (address kernel_stack_ptr : ℤ) : ℤ × List String :=
  if kernel_stack_ptr = NULL_PTR then (NULL_PTR, [])
  else
    let sp := (ThreadSavedState.at m kernel_stack_ptr).sp
    let lr := m.x_g (sp + NextPcHelpOffsets.STORED_LR_IN_THREAD_INVOKE_FRAME)
    if lr = NextPcHelpOffsets.NEXT_IN_THREAD_RUN then
      (pc_after_exception_return m sp
        (m.x_g (sp + NextPcHelpOffsets.THREAD_INVOKE_FRAME_SIZE + 0x38)), [])
    else if lr = NextPcHelpOffsets.NEXT_IN_THREAD_BLOCK then
      (pc_after_exception_return m sp
        (m.x_g (sp + NextPcHelpOffsets.THREAD_INVOKE_FRAME_SIZE + 0x48)), [])
    else (NULL_PTR, [something_went_wrong address])

/-- The next pc of a thread. -/
def next_pc_at (m : KernelMemory) (address ucontext_data kernel_stack_ptr : ℤ) :
    ℤ × List String :=
  if address = m.print CURRENT_THREAD then (m.print "$pc", [])
  else if ucontext_data ≠ NULL_PTR then ((ThreadSavedState.at m ucontext_data).pc, [])
  else if kernel_stack_ptr ≠ NULL_PTR then kernel_next_pc_at m address kernel_stack_ptr
  else (NULL_PTR, [])

/-- The fields of a thread that are read one by one. -/
def Thread.fieldsAt (m : KernelMemory) (address : ℤ) : Thread where
  address := address
  task_ptr := m.x_g (address + ThreadOffsets.TASK)
  tid := m.x_g (address + ThreadOffsets.THREAD_ID)
  continuation := m.x_g (address + ThreadOffsets.CONTINUATION)
  global_threads_ptr := address + ThreadOffsets.GLOBAL_THREADS
  curr_task_threads_ptr := address + ThreadOffsets.TASK_THREADS
  ucontext_data := m.x_g (address + ThreadOffsets.CONTEXT_USER_DATA_PTR)
  kernel_stack_ptr := m.x_g (address + ThreadOffsets.KSTACK_PTR)
  voucher_ptr := m.x_g (address + ThreadOffsets.VOUCHER_PTR)
  next_pc := NULL_PTR
  task_object := none

/-- The next pc of the thread at an address, and what is said when it is looked for. -/
def Thread.searchAt (m : KernelMemory) (address : ℤ) : ℤ × List String :=
  next_pc_at m address (m.x_g (address + ThreadOffsets.CONTEXT_USER_DATA_PTR))
    (m.x_g (address + ThreadOffsets.KSTACK_PTR))

/-- The thread at an address that is not null. -/
def Thread.at (m : KernelMemory) (address : ℤ) : Thread :=
  { Thread.fieldsAt m address with
    next_pc := (Thread.searchAt m address).1
    task_object := Task.at? m (m.x_g (address + ThreadOffsets.TASK)) }

/-- What is said each time the thread is built. -/
def Thread.warning (m : KernelMemory) (address : ℤ) : List String := (Thread.searchAt m address).2

/-! ## Reads -/

section Reads

variable {h : Session (List String)}

/-- A command that is answered `v` and leaves the terminal alone, with the exception that it
might have raised put into gdb's. -/
theorem reraise_request_writes {op : GdbOp} {v : GdbVal op}
    (hop : ∀ out, h op out = some (.ok v, out)) :
    Writes h (reraise (request op)) (.ok v) [] := by
  refine Writes.catch_ok (writes_request fun before => ?_)
  rw [hop, List.append_nil]

theorem attr_writes {α : Type} (a : α) : Writes h (attr (some a)) (.ok a) [] := writes_pure a

end Reads

variable {m : KernelMemory}

theorem get_8_byte_at_writes (addr : ℤ) : Writes m.session (get_8_byte_at addr) (.ok (m.x_g addr)) [] :=
  reraise_request_writes fun _ => rfl

theorem get_4_byte_at_writes (addr : ℤ) : Writes m.session (get_4_byte_at addr) (.ok (m.x_w addr)) [] :=
  reraise_request_writes fun _ => rfl

theorem get_string_at_writes (addr : ℤ) : Writes m.session (get_string_at addr) (.ok (m.x_s addr)) [] :=
  reraise_request_writes fun _ => rfl

theorem print_val_writes (var : String) : Writes m.session (print_val var) (.ok (m.print var)) [] :=
  reraise_request_writes fun _ => rfl

theorem write_writes (text : String) : Writes m.session (write text) (.ok ()) [text] :=
  writes_request fun _ => rfl

theorem get_current_thread_ptr_writes :
    Writes m.session get_current_thread_ptr (.ok (m.print CURRENT_THREAD)) [] :=
  (print_val_writes CURRENT_THREAD).catch_ok


/-! ## Constructors -/

theorem bsdInfo_init_writes (address : ℤ) :
    Writes m.session (BsdInfo.init address) (.ok (BsdInfo.at m address)) [] := by
  unfold BsdInfo.init BsdInfo.at
  split
  · refine (get_4_byte_at_writes _).bind_silent ?_
    refine (get_string_at_writes _).bind_silent ?_
    exact writes_pure _
  · exact writes_pure none

theorem ipcSpace_init_writes (address : ℤ) :
    Writes m.session (IPCSpace.init address) (.ok (IPCSpace.at m address)) [] := by
  unfold IPCSpace.init IPCSpace.at
  split
  · refine (get_8_byte_at_writes _).bind_silent ?_
    refine (get_4_byte_at_writes _).bind_silent ?_
    refine (get_4_byte_at_writes _).bind_silent ?_
    exact writes_pure _
  · exact writes_pure none

/-- Reads one after the other. -/
theorem mapM_get_8_byte_at_writes {γ : Type} (addr : γ → ℤ) (l : List γ) :
    Writes m.session (l.mapM fun c => get_8_byte_at (addr c)) (.ok (l.map fun c => m.x_g (addr c)))
      [] := by
  induction l with
  | nil => exact writes_pure []
  | cons c l ih =>
      rw [List.mapM_cons]
      exact (get_8_byte_at_writes _).bind_silent (ih.bind_silent (writes_pure _))

theorem threadSavedState_init_writes {address : ℤ} (ha : address ≠ NULL_PTR) :
    Writes m.session (ThreadSavedState.init address) (.ok (some (ThreadSavedState.at m address)))
      [] := by
  rw [ThreadSavedState.init, if_pos ha]
  have hx : Writes m.session
      ((List.range 29).mapM fun i : ℕ => get_8_byte_at (address + 0x08 + 0x08 * i))
      (.ok (ThreadSavedState.at m address).x) [] :=
    mapM_get_8_byte_at_writes _ _
  refine hx.bind_silent ?_
  refine (get_8_byte_at_writes _).bind_silent ?_
  refine (get_8_byte_at_writes _).bind_silent ?_
  refine (get_8_byte_at_writes _).bind_silent ?_
  refine (get_8_byte_at_writes _).bind_silent ?_
  refine (get_4_byte_at_writes _).bind_silent ?_
  refine (get_4_byte_at_writes _).bind_silent ?_
  refine (get_8_byte_at_writes _).bind_silent ?_
  refine (get_4_byte_at_writes _).bind_silent ?_
  refine (get_4_byte_at_writes _).bind_silent ?_
  exact writes_pure _

theorem task_init_writes (address : ℤ) :
    Writes m.session (Task.init address) (.ok (Task.at? m address)) [] := by
  unfold Task.init Task.at?
  split
  · refine (get_8_byte_at_writes _).bind_silent ?_
    refine (get_8_byte_at_writes _).bind_silent ?_
    refine (get_8_byte_at_writes _).bind_silent ?_
    refine (ipcSpace_init_writes _).bind_silent ?_
    refine (bsdInfo_init_writes _).bind_silent ?_
    exact writes_pure _
  · exact writes_pure none

/-- The task at an address that is not null, as an object. -/
theorem task_at?_pos {address : ℤ} (ha : address ≠ NULL_PTR) :
    Task.at? m address = some (Task.at m address) := if_pos ha

/-- The `pc` of a saved state that is there. -/
theorem saved_pc_writes {address : ℤ} (ha : address ≠ NULL_PTR) :
    Writes m.session (do let state ← attr (← ThreadSavedState.init address); return state.pc)
      (.ok (ThreadSavedState.at m address).pc) [] :=
  (threadSavedState_init_writes ha).bind_silent ((attr_writes _).bind_silent (writes_pure _))

theorem after_exception_return_writes (sp pc : ℤ) :
    Writes m.session (after_exception_return sp pc) (.ok (pc_after_exception_return m sp pc))
      [] := by
  unfold after_exception_return pc_after_exception_return
  split
  · refine (get_8_byte_at_writes _).bind_silent ?_
    by_cases hnull : m.x_g (sp + NextPcHelpOffsets.THREAD_INVOKE_FRAME_SIZE
        + NextPcHelpOffsets.X21_IN_THREAD_INVOKE_FRAME) = NULL_PTR
    · simp only [if_pos hnull]
      exact writes_pure _
    · simp only [if_neg hnull]
      exact saved_pc_writes hnull
  · exact writes_pure _

theorem get_kernel_next_pc_writes (self : Thread) :
    Writes m.session self.get_kernel_next_pc
      (.ok (kernel_next_pc_at m self.address self.kernel_stack_ptr).1)
      (kernel_next_pc_at m self.address self.kernel_stack_ptr).2 := by
  unfold Thread.get_kernel_next_pc kernel_next_pc_at
  by_cases hnull : self.kernel_stack_ptr = NULL_PTR
  · rw [if_pos hnull, if_pos hnull]
    exact writes_pure _
  · rw [if_neg hnull, if_neg hnull]
    refine (threadSavedState_init_writes hnull).bind_silent ((attr_writes _).bind_silent ?_)
    refine (get_8_byte_at_writes _).bind_silent ?_
    simp only
    split
    · exact (get_8_byte_at_writes _).bind_silent (after_exception_return_writes _ _)
    · split
      · exact (get_8_byte_at_writes _).bind_silent (after_exception_return_writes _ _)
      · exact (write_writes _).bind (writes_pure _)

theorem find_next_pc_writes (self : Thread) :
    Writes m.session self.find_next_pc
      (.ok (next_pc_at m self.address self.ucontext_data self.kernel_stack_ptr).1)
      (next_pc_at m self.address self.ucontext_data self.kernel_stack_ptr).2 := by
  have hcurrent : Writes m.session self.is_currect
      (.ok (self.address == m.print CURRENT_THREAD)) [] :=
    get_current_thread_ptr_writes.bind_silent (writes_pure _)
  refine hcurrent.bind_silent ?_
  unfold next_pc_at
  by_cases hself : self.address = m.print CURRENT_THREAD
  · simp only [hself, beq_self_eq_true, if_true]
    exact print_val_writes "$pc"
  · simp only [beq_eq_false_iff_ne.mpr hself, if_neg hself, Bool.false_eq_true, if_false]
    by_cases hdata : self.ucontext_data ≠ NULL_PTR
    · simp only [if_pos hdata]
      exact saved_pc_writes hdata
    · simp only [if_neg hdata]
      split
      · exact get_kernel_next_pc_writes self
      · exact writes_pure _

/-- **A thread that is built** is the one in memory, and only the search for its next pc
says something. -/
theorem thread_init_writes {address : ℤ} (ha : address ≠ NULL_PTR) :
    Writes m.session (Thread.init address) (.ok (some (Thread.at m address)))
      (Thread.warning m address) := by
  rw [Thread.init, if_pos ha]
  refine (get_8_byte_at_writes _).bind_silent ?_
  refine (get_8_byte_at_writes _).bind_silent ?_
  refine (get_8_byte_at_writes _).bind_silent ?_
  refine (get_8_byte_at_writes _).bind_silent ?_
  refine (get_8_byte_at_writes _).bind_silent ?_
  refine (get_8_byte_at_writes _).bind_silent ?_
  rw [← List.append_nil (Thread.warning m address)]
  refine (find_next_pc_writes (Thread.fieldsAt m address)).bind ?_
  refine (task_init_writes _).bind_silent ?_
  exact writes_pure _

/-! ## Iterators -/

/-- What a `TasksIterator` fetches along a list. -/
theorem tasks_goes {it : TasksIterator} {addresses : List ℤ}
    (hwalk : Walk (fun a => m.x_g (a + TaskOffsets.TASK_NEXT)) it.stop_contition it.next_task_ptr
      addresses)
    (hnull : NULL_PTR ∉ addresses) :
    Goes m.session TasksIterator.next it (addresses.map fun a => (some (Task.at m a), [])) := by
  induction addresses generalizing it with
  | nil =>
      refine .stop ?_
      have hend : it.next_task_ptr = it.stop_contition := hwalk
      rw [TasksIterator.next, if_neg (not_not_intro hend)]
      exact writes_pure none
  | cons x addresses ih =>
      obtain ⟨rfl, hne, hrest⟩ := hwalk
      obtain ⟨hx, hnull⟩ := not_or.mp (mt List.mem_cons.mpr hnull)
      let it' : TasksIterator :=
        { it with next_task_ptr := m.x_g (it.next_task_ptr + TaskOffsets.TASK_NEXT) }
      have hrest' : Goes m.session TasksIterator.next it' _ := ih hrest hnull
      refine hrest'.step ?_
      rw [TasksIterator.next, if_pos hne]
      refine (task_init_writes _).bind_silent ?_
      rw [task_at?_pos (Ne.symm hx)]
      exact (attr_writes _).bind_silent ((get_8_byte_at_writes _).bind_silent (writes_pure _))

/-- What a `ThreadsIterator` that has been set up fetches along a list. -/
theorem threads_goes {it : ThreadsIterator} {stop ptr : ℤ} (hptr : it.next_thread_ptr = some ptr)
    (hstop : it.stop_contition = some stop) {addresses : List ℤ}
    (hwalk : Walk (fun a => m.x_g (a + it.type.offset)) stop ptr addresses)
    (hnull : NULL_PTR ∉ addresses) :
    Goes m.session ThreadsIterator.next it
      (addresses.map fun a => (some (Thread.at m a), Thread.warning m a)) := by
  induction addresses generalizing it ptr with
  | nil =>
      refine .stop ?_
      obtain rfl : ptr = stop := hwalk
      rw [ThreadsIterator.next, hptr, hstop, if_neg (not_not_intro rfl)]
      exact writes_pure none
  | cons x addresses ih =>
      obtain ⟨rfl, hne, hrest⟩ := hwalk
      obtain ⟨hx, hnull⟩ := not_or.mp (mt List.mem_cons.mpr hnull)
      have hmoves : some ptr ≠ some stop := fun h => hne (Option.some.inj h)
      let it' : ThreadsIterator :=
        { it with
          next_thread_ptr := some (m.x_g (ptr + it.type.offset))
          stop_contition := some stop }
      have hrest' : Goes m.session ThreadsIterator.next it' _ := ih rfl rfl hrest hnull
      refine hrest'.step ?_
      have hlink : it.type.link (Thread.at m ptr) = ptr + it.type.offset :=
        it.type.link_eq rfl rfl
      rw [ThreadsIterator.next, hptr, hstop, if_pos hmoves,
        ← List.append_nil (Thread.warning m ptr)]
      refine (thread_init_writes (Ne.symm hx)).bind ?_
      refine (attr_writes _).bind_silent ((get_8_byte_at_writes _).bind_silent ?_)
      rw [hlink]
      exact writes_pure _

section ListOf

variable {h : Session (List String)} {It A B γ : Type} {next : It → Script (Option (A × It))}
  {body : A → Script B} {get : γ → A} {fetch : γ → List String} {value : γ → B} {l : List γ}
  {it : It} {fuel : ℕ}

/-- `list(get(x) for x in it)`. -/
theorem listOf_writes (hgoes : Goes h next it (l.map fun c => (get c, fetch c)))
    (hbody : ∀ c ∈ l, Writes h (body (get c)) (.ok (value c)) []) (hfuel : l.length < fuel) :
    Writes h (listOf next body fuel it) (.ok (some (l.map value))) (l.flatMap fetch) := by
  induction l generalizing it fuel with
  | nil =>
      obtain ⟨fuel, rfl⟩ := Nat.exists_eq_succ_of_ne_zero (Nat.ne_of_gt hfuel)
      cases hgoes with
      | stop hnext => exact hnext.bind_silent (writes_pure _)
  | cons c l ih =>
      obtain ⟨fuel, rfl⟩ := Nat.exists_eq_succ_of_ne_zero (Nat.ne_of_gt (Nat.zero_lt_of_lt hfuel))
      cases hgoes with
      | step hnext hrest =>
          rw [List.flatMap_cons, ← List.append_nil (l.flatMap fetch)]
          refine hnext.bind ((hbody c (List.mem_cons_self ..)).bind_silent ?_)
          have hl := ih hrest (fun d hd => hbody d (List.mem_cons_of_mem c hd))
            (Nat.lt_of_succ_lt_succ hfuel)
          exact hl.bind (writes_pure _)

/-- And if the iterator raises. -/
theorem listOf_raises {e : Exn}
    (hgoes : GoesTo h next (.error e) it (l.map fun c => (get c, fetch c)))
    (hbody : ∀ c ∈ l, Writes h (body (get c)) (.ok (value c)) []) (hfuel : l.length < fuel) :
    Writes h (listOf next body fuel it) (.error e) (l.flatMap fetch) := by
  induction l generalizing it fuel with
  | nil =>
      obtain ⟨fuel, rfl⟩ := Nat.exists_eq_succ_of_ne_zero (Nat.ne_of_gt hfuel)
      cases hgoes with
      | stop hnext => exact hnext.bind_error
  | cons c l ih =>
      obtain ⟨fuel, rfl⟩ := Nat.exists_eq_succ_of_ne_zero (Nat.ne_of_gt (Nat.zero_lt_of_lt hfuel))
      cases hgoes with
      | step hnext hrest =>
          rw [List.flatMap_cons]
          refine hnext.bind ((hbody c (List.mem_cons_self ..)).bind_silent ?_)
          exact (ih hrest (fun d hd => hbody d (List.mem_cons_of_mem c hd))
            (Nat.lt_of_succ_lt_succ hfuel)).bind_error

end ListOf

theorem tasksIterator_init_writes :
    Writes m.session TasksIterator.init (.ok ⟨GLOBAL_TASKS_PTR, m.x_g GLOBAL_TASKS_PTR⟩) [] :=
  (get_8_byte_at_writes _).bind_silent (writes_pure _)

/-- `__iter__` of an iterator over all threads, however often it is called. -/
theorem global_iter_writes (next stop : Option ℤ) :
    Writes m.session (ThreadsIterator.iter ⟨.GLOBAL, NULL_PTR, next, stop⟩)
      (.ok ⟨.GLOBAL, NULL_PTR, some (m.x_g GLOBAL_THREADS_PTR), some GLOBAL_THREADS_PTR⟩) [] :=
  (get_8_byte_at_writes _).bind_silent (writes_pure _)

/-- `__iter__` of an iterator over the threads of a task. -/
theorem task_iter_writes {task : ℤ} (htask : task ≠ NULL_PTR) (next stop : Option ℤ) :
    Writes m.session (ThreadsIterator.iter ⟨.TASK, task, next, stop⟩)
      (.ok ⟨.TASK, task, some (m.x_g (task + TaskOffsets.THREAD_LST_FROM_TASK)),
        some (task + TaskOffsets.THREAD_LST_FROM_TASK)⟩) [] := by
  refine (task_init_writes _).bind_silent ?_
  rw [task_at?_pos htask]
  exact (attr_writes _).bind_silent ((get_8_byte_at_writes _).bind_silent (writes_pure _))

/-- Whether a task is on the list. -/
theorem is_task_exist_writes {tasks : List ℤ} {fuel : ℕ}
    (hwalk : Walk (fun a => m.x_g (a + TaskOffsets.TASK_NEXT)) GLOBAL_TASKS_PTR
      (m.x_g GLOBAL_TASKS_PTR) tasks)
    (hnull : NULL_PTR ∉ tasks) (hfuel : tasks.length < fuel) (task : ℤ) :
    Writes m.session (is_task_exist task fuel) (.ok (some (decide (task ∈ tasks)))) [] := by
  have hout : (tasks.flatMap fun _ => ([] : List String)) = [] :=
    List.flatMap_eq_nil_iff.mpr fun _ _ => rfl
  have hlist : Writes m.session (listOf TasksIterator.next
      (fun tmptask => do return (← attr tmptask).address) fuel ⟨GLOBAL_TASKS_PTR,
        m.x_g GLOBAL_TASKS_PTR⟩) (.ok (some (tasks.map id))) (tasks.flatMap fun _ => []) :=
    listOf_writes (tasks_goes hwalk hnull)
      (fun a _ => (attr_writes (Task.at m a)).bind_silent (writes_pure a)) hfuel
  rw [hout, List.map_id] at hlist
  refine tasksIterator_init_writes.bind_silent (hlist.bind_silent ?_)
  rw [Option.map_some, List.contains_eq_mem]
  exact writes_pure _

end XnuQemuTools.KernelImage
