/-
The kernel's tasks and threads as objects, and the iterators over them
(`gdb/xnu/xnu_types.py`).

A constructor reads the fields of a kernel structure through gdb. Given the null pointer
it makes an object that only says it is not initialized; that object is `none` here, and
asking it for anything else raises (`attr`).

An iterator goes from structure to structure along a link and stops when it is back at
the head of the list. Between two steps it builds a whole `Thread` or `Task`, with the
saved state, the task and the names that hang on it, so it reads a great deal of memory
besides the link. `lists_enumerated` says that what it meets is the list: the
constructors cannot raise while reads succeed (`thread_init_yields`), they change nothing,
and the links decide the rest (`Links`).
-/
import XnuQemuTools.Gdb
import XnuQemuTools.Links
import Mathlib.Data.List.Forall2

set_option autoImplicit false

namespace XnuQemuTools.KernelLists

open Calls Calls.Prog Exceptions Gdb Links

/-! ## Offsets -/

namespace ThreadOffsets

def CONTINUATION : ℤ := 0x80
def THREAD_ID : ℤ := 0x3e0
def GLOBAL_THREADS : ℤ := 0x348
def TASK_THREADS : ℤ := 0x358
def TASK : ℤ := 0x368
def CONTEXT_USER_DATA_PTR : ℤ := 0x430
def KSTACK_PTR : ℤ := 0x448
def VOUCHER_PTR : ℤ := 0x510

end ThreadOffsets

namespace TaskOffsets

def TASK_NEXT : ℤ := 0x28
def THREAD_LST_FROM_TASK : ℤ := 0x40
def ITK_SELF : ℤ := 0xD8
def BSD_INFO : ℤ := 0x358
def IPC_SPACE : ℤ := 0x300

end TaskOffsets

namespace NextPcHelpOffsets

def NEXT_IN_THREAD_RUN : ℤ := 0xfffffff0070e7d0c
def NEXT_IN_THREAD_BLOCK : ℤ := 0xfffffff0070e3554
def EXEPTION_RETURN_PTR : ℤ := 0xfffffff0070a1800
def THREAD_INVOKE_FRAME_SIZE : ℤ := 0x90
def X21_IN_THREAD_INVOKE_FRAME : ℤ := 0x28
def STORED_LR_IN_THREAD_INVOKE_FRAME : ℤ := 0x88

end NextPcHelpOffsets

def PID_IN_BSD_INFO : ℤ := 0x60
def NAME_INBSD_INFO : ℤ := 0x261
def IS_TABLE_SIZE : ℤ := 0x14
def IS_TABLE_FREE : ℤ := 0x18
def IS_TABLE : ℤ := 0x20

/-! ## Objects -/

structure BsdInfo where
  bsd_pid : ℤ
  bsd_name : String

structure IPCSpace where
  is_table : ℤ
  is_table_size : ℤ
  is_table_free : ℤ

structure ThreadSavedState where
  x : List ℤ
  fp : ℤ
  lr : ℤ
  sp : ℤ
  pc : ℤ
  cpsr : ℤ
  reserved : ℤ
  far : ℤ
  esr : ℤ
  exception : ℤ

structure Task where
  address : ℤ
  task_lst_ptr : ℤ
  threads_lst_ptr : ℤ
  bsd_info_ptr : ℤ
  itk_self : ℤ
  ipc_space : ℤ
  ipc_space_object : Option IPCSpace
  bsdinfo_object : Option BsdInfo

structure Thread where
  address : ℤ
  task_ptr : ℤ
  tid : ℤ
  continuation : ℤ
  global_threads_ptr : ℤ
  curr_task_threads_ptr : ℤ
  ucontext_data : ℤ
  kernel_stack_ptr : ℤ
  voucher_ptr : ℤ
  next_pc : ℤ
  task_object : Option Task

/-- An attribute of an object that has been initialized. -/
def attr {α : Type} : Option α → Script α
  | some a => return a
  | none => throw .AttributeError

/-! ## Constructors -/

/-- `BsdInfo.__init__`. -/
def BsdInfo.init (address : ℤ) : Script (Option BsdInfo) := do
  if address ≠ NULL_PTR then
    let bsd_pid ← get_4_byte_at (address + PID_IN_BSD_INFO)
    let bsd_name ← get_string_at (address + NAME_INBSD_INFO)
    return some ⟨bsd_pid, bsd_name⟩
  else return none

/-- `IPCSpace.__init__`. -/
def IPCSpace.init (address : ℤ) : Script (Option IPCSpace) := do
  if address ≠ NULL_PTR then
    let is_table ← get_8_byte_at (address + IS_TABLE)
    let is_table_size ← get_4_byte_at (address + IS_TABLE_SIZE)
    let is_table_free ← get_4_byte_at (address + IS_TABLE_FREE)
    return some ⟨is_table, is_table_size, is_table_free⟩
  else return none

/-- `ThreadSavedState.__init__`; `x` is `_x0` to `_x28`. -/
def ThreadSavedState.init (address : ℤ) : Script (Option ThreadSavedState) := do
  if address ≠ NULL_PTR then
    let address := address + 0x08
    let x ← (List.range 29).mapM fun i => get_8_byte_at (address + 0x08 * i)
    let fp ← get_8_byte_at (address + 0xe8)
    let lr ← get_8_byte_at (address + 0xf0)
    let sp ← get_8_byte_at (address + 0xf8)
    let pc ← get_8_byte_at (address + 0x100)
    let cpsr ← get_4_byte_at (address + 0x108)
    let reserved ← get_4_byte_at (address + 0x10c)
    let far ← get_8_byte_at (address + 0x110)
    let esr ← get_4_byte_at (address + 0x118)
    let exception ← get_4_byte_at (address + 0x11c)
    return some ⟨x, fp, lr, sp, pc, cpsr, reserved, far, esr, exception⟩
  else return none

/-- `Task.__init__`. -/
def Task.init (address : ℤ) : Script (Option Task) := do
  if address ≠ NULL_PTR then
    let bsd_info_ptr ← get_8_byte_at (address + TaskOffsets.BSD_INFO)
    let itk_self ← get_8_byte_at (address + TaskOffsets.ITK_SELF)
    let ipc_space ← get_8_byte_at (address + TaskOffsets.IPC_SPACE)
    let ipc_space_object ← IPCSpace.init ipc_space
    let bsdinfo_object ← BsdInfo.init bsd_info_ptr
    return some
      { address := address
        task_lst_ptr := address + TaskOffsets.TASK_NEXT
        threads_lst_ptr := address + TaskOffsets.THREAD_LST_FROM_TASK
        bsd_info_ptr := bsd_info_ptr
        itk_self := itk_self
        ipc_space := ipc_space
        ipc_space_object := ipc_space_object
        bsdinfo_object := bsdinfo_object }
  else return none

/-- `Thread.is_currect`. -/
def Thread.is_currect (self : Thread) : Script Bool := do
  let current ← get_current_thread_ptr
  return self.address == current

/-- The end of `get_kernel_next_pc`: one more frame if the next function is
`exception_return`. -/
def after_exception_return (stack_ptr_thread_invoke kernel_next_pc : ℤ) : Script ℤ := do
  if kernel_next_pc = NextPcHelpOffsets.EXEPTION_RETURN_PTR then
    let next_x21_ptr ← get_8_byte_at (stack_ptr_thread_invoke
      + NextPcHelpOffsets.THREAD_INVOKE_FRAME_SIZE + NextPcHelpOffsets.X21_IN_THREAD_INVOKE_FRAME)
    if next_x21_ptr = NULL_PTR then return NULL_PTR
    else
      let saved_state_exception_return ← attr (← ThreadSavedState.init next_x21_ptr)
      return saved_state_exception_return.pc
  else return kernel_next_pc

/-- `Thread.get_kernel_next_pc`. -/
def Thread.get_kernel_next_pc (self : Thread) : Script ℤ := do
  if self.kernel_stack_ptr = NULL_PTR then return NULL_PTR
  else
    let kernel_saved_state ← attr (← ThreadSavedState.init self.kernel_stack_ptr)
    let stack_ptr_thread_invoke := kernel_saved_state.sp
    let next_to_thread_invoke ← get_8_byte_at
      (stack_ptr_thread_invoke + NextPcHelpOffsets.STORED_LR_IN_THREAD_INVOKE_FRAME)
    if next_to_thread_invoke = NextPcHelpOffsets.NEXT_IN_THREAD_RUN then
      let kernel_next_pc ← get_8_byte_at
        (stack_ptr_thread_invoke + NextPcHelpOffsets.THREAD_INVOKE_FRAME_SIZE + 0x38)
      after_exception_return stack_ptr_thread_invoke kernel_next_pc
    else if next_to_thread_invoke = NextPcHelpOffsets.NEXT_IN_THREAD_BLOCK then
      let kernel_next_pc ← get_8_byte_at
        (stack_ptr_thread_invoke + NextPcHelpOffsets.THREAD_INVOKE_FRAME_SIZE + 0x48)
      after_exception_return stack_ptr_thread_invoke kernel_next_pc
    else
      write ("Something went wrong for thread " ++ hex self.address ++ " with getting the next pc, "
        ++ "maybe in a middle of thread's create/exit")
      return NULL_PTR

/-- What `Thread.__init__` finds out about the next pc. -/
def Thread.find_next_pc (self : Thread) : Script ℤ := do
  if ← self.is_currect then print_val "$pc"
  else if self.ucontext_data ≠ NULL_PTR then
    let user_saved_state ← attr (← ThreadSavedState.init self.ucontext_data)
    return user_saved_state.pc
  else if self.kernel_stack_ptr ≠ NULL_PTR then self.get_kernel_next_pc
  else return NULL_PTR

/-- `Thread.__init__`. -/
def Thread.init (address : ℤ) : Script (Option Thread) := do
  if address ≠ NULL_PTR then
    let task_ptr ← get_8_byte_at (address + ThreadOffsets.TASK)
    let tid ← get_8_byte_at (address + ThreadOffsets.THREAD_ID)
    let continuation ← get_8_byte_at (address + ThreadOffsets.CONTINUATION)
    let ucontext_data ← get_8_byte_at (address + ThreadOffsets.CONTEXT_USER_DATA_PTR)
    let kernel_stack_ptr ← get_8_byte_at (address + ThreadOffsets.KSTACK_PTR)
    let voucher_ptr ← get_8_byte_at (address + ThreadOffsets.VOUCHER_PTR)
    let self : Thread :=
      { address := address
        task_ptr := task_ptr
        tid := tid
        continuation := continuation
        global_threads_ptr := address + ThreadOffsets.GLOBAL_THREADS
        curr_task_threads_ptr := address + ThreadOffsets.TASK_THREADS
        ucontext_data := ucontext_data
        kernel_stack_ptr := kernel_stack_ptr
        voucher_ptr := voucher_ptr
        next_pc := NULL_PTR
        task_object := none }
    let next_pc ← self.find_next_pc
    let task_object ← Task.init task_ptr
    return some { self with next_pc := next_pc, task_object := task_object }
  else return none

/-! ## Iterators -/

inductive ThrdItrType where
  | GLOBAL
  | TASK
  deriving DecidableEq

/-- A `ThreadsIterator`; the pointers are `None` until `__iter__` sets them. -/
structure ThreadsIterator where
  type : ThrdItrType
  task_ptr : ℤ
  next_thread_ptr : Option ℤ
  stop_contition : Option ℤ

/-- `ThreadsIterator.__init__`. -/
def ThreadsIterator.init (is_global : Bool) (task : Option ℤ) : Script ThreadsIterator :=
  if is_global then return ⟨.GLOBAL, NULL_PTR, none, none⟩
  else
    match task with
    | some task =>
        if task ≠ NULL_PTR then return ⟨.TASK, task, none, none⟩
        else throw (.GdbError "ThreadsIterator: null task pointer!")
    | none => throw (.GdbError "ThreadsIterator: null task pointer!")

/-- `ThreadsIterator.__iter__`. -/
def ThreadsIterator.iter (self : ThreadsIterator) : Script ThreadsIterator :=
  match self.type with
  | .GLOBAL => do
      let next_thread_ptr ← get_8_byte_at GLOBAL_THREADS_PTR
      return { self with
        next_thread_ptr := some next_thread_ptr
        stop_contition := some GLOBAL_THREADS_PTR }
  | .TASK => do
      let relevant_task ← attr (← Task.init self.task_ptr)
      let next_thread_ptr ← get_8_byte_at relevant_task.threads_lst_ptr
      return { self with
        next_thread_ptr := some next_thread_ptr
        stop_contition := some (self.task_ptr + TaskOffsets.THREAD_LST_FROM_TASK) }

/-- The link that a `ThreadsIterator` follows. -/
def ThrdItrType.link (type : ThrdItrType) (thread : Thread) : ℤ :=
  match type with
  | .GLOBAL => thread.global_threads_ptr
  | .TASK => thread.curr_task_threads_ptr

/-- Where that link is in a thread. -/
def ThrdItrType.offset : ThrdItrType → ℤ
  | .GLOBAL => ThreadOffsets.GLOBAL_THREADS
  | .TASK => ThreadOffsets.TASK_THREADS

/-- `ThreadsIterator.__next__`; `none` is `StopIteration`. -/
def ThreadsIterator.next (self : ThreadsIterator) :
    Script (Option (Option Thread × ThreadsIterator)) :=
  if self.next_thread_ptr ≠ self.stop_contition then
    match self.next_thread_ptr with
    | none => throw .TypeError
    | some ptr => do
        let result ← Thread.init ptr
        let thread ← attr result
        let next_thread_ptr ← get_8_byte_at (self.type.link thread)
        return some (result, { self with next_thread_ptr := some next_thread_ptr })
  else return none

/-- A `TasksIterator`. -/
structure TasksIterator where
  stop_contition : ℤ
  next_task_ptr : ℤ

/-- `TasksIterator.__init__`. -/
def TasksIterator.init : Script TasksIterator := do
  let next_task_ptr ← get_8_byte_at GLOBAL_TASKS_PTR
  return ⟨GLOBAL_TASKS_PTR, next_task_ptr⟩

/-- `TasksIterator.__next__`. -/
def TasksIterator.next (self : TasksIterator) : Script (Option (Option Task × TasksIterator)) :=
  if self.next_task_ptr ≠ self.stop_contition then do
    let result ← Task.init self.next_task_ptr
    let task ← attr result
    let next_task_ptr ← get_8_byte_at task.task_lst_ptr
    return some (result, { self with next_task_ptr := next_task_ptr })
  else return none

/-- `list(get(x) for x in it)`; `none` if `fuel` is too little for it to end. -/
def listOf {It A B : Type} (next : It → Script (Option (A × It))) (get : A → Script B) :
    ℕ → It → Script (Option (List B))
  | 0, _ => return none
  | fuel + 1, it => do
      match ← next it with
      | none => return some []
      | some (a, it) =>
          let b ← get a
          let rest ← listOf next get fuel it
          return rest.map (b :: ·)

/-- The threads that `ThreadsIterator(is_global, task)` goes through. -/
def threads (is_global : Bool) (task : Option ℤ) (fuel : ℕ) : Script (Option (List (Option Thread))) := do
  let it ← ThreadsIterator.init is_global task
  let it ← it.iter
  listOf ThreadsIterator.next pure fuel it

/-- The tasks that `TasksIterator()` goes through. -/
def tasks (fuel : ℕ) : Script (Option (List (Option Task))) := do
  let it ← TasksIterator.init
  listOf TasksIterator.next pure fuel it

/-- `is_task_exist`. -/
def is_task_exist (task : ℤ) (fuel : ℕ) : Script (Option Bool) := do
  let it ← TasksIterator.init
  let addresses ← listOf TasksIterator.next (fun tmptask => do return (← attr tmptask).address) fuel it
  return addresses.map fun l => l.contains task

/-- `is_thread_exist`. -/
def is_thread_exist (thread : ℤ) (fuel : ℕ) : Script (Option Bool) := do
  let it ← ThreadsIterator.init true none
  let it ← it.iter
  let addresses ← listOf ThreadsIterator.next (fun tmpthread => do return (← attr tmpthread).address)
    fuel it
  return addresses.map fun l => l.contains thread

/-! ## Reading kernel memory -/

/-- In states that satisfy `I`, reads succeed and `m` is what eight bytes at an address
hold; reading and writing to the terminal leave `I`. -/
structure Reads {σ : Type} (h : Session σ) (I : σ → Prop) (m : ℤ → ℤ) : Prop where
  x_g : ∀ addr s, I s → ∃ s', h (.x_g addr) s = some (.ok (m addr), s') ∧ I s'
  x_w : ∀ addr s, I s → ∃ v s', h (.x_w addr) s = some (.ok v, s') ∧ I s'
  x_s : ∀ addr s, I s → ∃ v s', h (.x_s addr) s = some (.ok v, s') ∧ I s'
  print : ∀ var s, I s → ∃ v s', h (.print var) s = some (.ok v, s') ∧ I s'
  write : ∀ text s, I s → ∃ s', h (.write text) s = some (.ok (), s') ∧ I s'

section Yields

variable {σ : Type} {h : Session σ} {I : σ → Prop} {m : ℤ → ℤ} (hr : Reads h I m)

include hr

theorem get_8_byte_at_yields (addr : ℤ) : Yields h I (get_8_byte_at addr) fun v => v = m addr := by
  refine Yields.catch (yields_request fun s hs => ?_)
  obtain ⟨s', hop, hs'⟩ := hr.x_g addr s hs
  exact ⟨m addr, s', hop, hs', rfl⟩

theorem get_4_byte_at_yields (addr : ℤ) : Yields h I (get_4_byte_at addr) fun _ => True := by
  refine Yields.catch (yields_request fun s hs => ?_)
  obtain ⟨v, s', hop, hs'⟩ := hr.x_w addr s hs
  exact ⟨v, s', hop, hs', trivial⟩

theorem get_string_at_yields (addr : ℤ) : Yields h I (get_string_at addr) fun _ => True := by
  refine Yields.catch (yields_request fun s hs => ?_)
  obtain ⟨v, s', hop, hs'⟩ := hr.x_s addr s hs
  exact ⟨v, s', hop, hs', trivial⟩

theorem print_val_yields (var : String) : Yields h I (print_val var) fun _ => True := by
  refine Yields.catch (yields_request fun s hs => ?_)
  obtain ⟨v, s', hop, hs'⟩ := hr.print var s hs
  exact ⟨v, s', hop, hs', trivial⟩

theorem write_yields (text : String) : Yields h I (write text) fun _ => True := by
  refine yields_request fun s hs => ?_
  obtain ⟨s', hop, hs'⟩ := hr.write text s hs
  exact ⟨(), s', hop, hs', trivial⟩

theorem get_current_thread_ptr_yields : Yields h I get_current_thread_ptr fun _ => True :=
  (print_val_yields hr CURRENT_THREAD).catch

omit hr in
theorem attr_yields {α : Type} (a : α) : Yields h I (attr (some a)) fun b => b = a :=
  yields_pure rfl

theorem bsdInfo_init_yields (address : ℤ) :
    Yields h I (BsdInfo.init address) fun b => b.isSome ↔ address ≠ NULL_PTR := by
  unfold BsdInfo.init
  split
  · rename_i ha
    refine (get_4_byte_at_yields hr _).bind fun _ _ => ?_
    refine (get_string_at_yields hr _).bind fun _ _ => ?_
    exact yields_pure (iff_of_true rfl ha)
  · rename_i ha
    exact yields_pure (iff_of_false Bool.false_ne_true ha)

theorem ipcSpace_init_yields (address : ℤ) : Yields h I (IPCSpace.init address) fun _ => True := by
  unfold IPCSpace.init
  split
  · refine (get_8_byte_at_yields hr _).bind fun _ _ => ?_
    refine (get_4_byte_at_yields hr _).bind fun _ _ => ?_
    refine (get_4_byte_at_yields hr _).bind fun _ _ => ?_
    exact yields_pure trivial
  · exact yields_pure trivial

theorem threadSavedState_init_yields {address : ℤ} (ha : address ≠ NULL_PTR) :
    Yields h I (ThreadSavedState.init address) fun st => ∃ state, st = some state := by
  rw [ThreadSavedState.init, if_pos ha]
  have hx : Yields h I ((List.range 29).mapM fun i : ℕ => get_8_byte_at (address + 0x08 + 0x08 * i))
      fun _ => True :=
    yields_mapM (fun i => (get_8_byte_at_yields hr _).mono fun _ _ => trivial) _
  refine hx.bind fun _ _ => ?_
  refine (get_8_byte_at_yields hr _).bind fun _ _ => ?_
  refine (get_8_byte_at_yields hr _).bind fun _ _ => ?_
  refine (get_8_byte_at_yields hr _).bind fun _ _ => ?_
  refine (get_8_byte_at_yields hr _).bind fun _ _ => ?_
  refine (get_4_byte_at_yields hr _).bind fun _ _ => ?_
  refine (get_4_byte_at_yields hr _).bind fun _ _ => ?_
  refine (get_8_byte_at_yields hr _).bind fun _ _ => ?_
  refine (get_4_byte_at_yields hr _).bind fun _ _ => ?_
  refine (get_4_byte_at_yields hr _).bind fun _ _ => ?_
  exact yields_pure ⟨_, rfl⟩

/-- A saved state that is there has a `pc` and an `sp`. -/
theorem savedState_yields {β : Type} {address : ℤ} (ha : address ≠ NULL_PTR)
    {f : ThreadSavedState → Script β} {Q : β → Prop} (hf : ∀ state, Yields h I (f state) Q) :
    Yields h I (do let state ← attr (← ThreadSavedState.init address); f state) Q := by
  refine (threadSavedState_init_yields hr ha).bind fun st ⟨state, hst⟩ => ?_
  subst hst
  exact (attr_yields state).bind fun state' _ => hf state'

theorem task_init_yields {address : ℤ} (ha : address ≠ NULL_PTR) :
    Yields h I (Task.init address) fun t => ∃ task, t = some task ∧ task.address = address
      ∧ task.task_lst_ptr = address + TaskOffsets.TASK_NEXT
      ∧ task.threads_lst_ptr = address + TaskOffsets.THREAD_LST_FROM_TASK
      ∧ (task.bsdinfo_object.isSome ↔ m (address + TaskOffsets.BSD_INFO) ≠ NULL_PTR) := by
  rw [Task.init, if_pos ha]
  refine (get_8_byte_at_yields hr _).bind fun bsd_info_ptr hbsd => ?_
  refine (get_8_byte_at_yields hr _).bind fun _ _ => ?_
  refine (get_8_byte_at_yields hr _).bind fun _ _ => ?_
  refine (ipcSpace_init_yields hr _).bind fun _ _ => ?_
  refine (bsdInfo_init_yields hr _).bind fun _ hsome => ?_
  exact yields_pure ⟨_, rfl, rfl, rfl, rfl, hbsd ▸ hsome⟩

/-- The task of a thread, which may have none, and the `bsd_info` of the task likewise. -/
def TaskAt (m : ℤ → ℤ) (address : ℤ) (t : Option Task) : Prop :=
  (t.isSome ↔ address ≠ NULL_PTR)
    ∧ ∀ task, t = some task →
      (task.bsdinfo_object.isSome ↔ m (address + TaskOffsets.BSD_INFO) ≠ NULL_PTR)

theorem task_of_thread_yields (address : ℤ) :
    Yields h I (Task.init address) (TaskAt m address) := by
  by_cases ha : address = NULL_PTR
  · rw [Task.init, if_neg (not_not_intro ha)]
    exact yields_pure ⟨iff_of_false Bool.false_ne_true (not_not_intro ha), fun _ h => (nomatch h)⟩
  · refine (task_init_yields hr ha).mono ?_
    rintro t ⟨task, rfl, -, -, -, hbsd⟩
    refine ⟨iff_of_true rfl ha, fun task' htask => ?_⟩
    obtain rfl := Option.some.inj htask
    exact hbsd

theorem after_exception_return_yields (sp pc : ℤ) :
    Yields h I (after_exception_return sp pc) fun _ => True := by
  unfold after_exception_return
  split
  · refine (get_8_byte_at_yields hr _).bind fun next_x21_ptr _ => ?_
    by_cases hnull : next_x21_ptr = NULL_PTR
    · rw [if_pos hnull]
      exact yields_pure trivial
    · rw [if_neg hnull]
      exact savedState_yields hr hnull fun _ => yields_pure trivial
  · exact yields_pure trivial

theorem get_kernel_next_pc_yields (self : Thread) :
    Yields h I self.get_kernel_next_pc fun _ => True := by
  unfold Thread.get_kernel_next_pc
  by_cases hnull : self.kernel_stack_ptr = NULL_PTR
  · rw [if_pos hnull]
    exact yields_pure trivial
  · rw [if_neg hnull]
    refine savedState_yields hr hnull fun state => ?_
    refine (get_8_byte_at_yields hr _).bind fun next_to_thread_invoke _ => ?_
    split
    · exact (get_8_byte_at_yields hr _).bind fun _ _ => after_exception_return_yields hr _ _
    · split
      · exact (get_8_byte_at_yields hr _).bind fun _ _ => after_exception_return_yields hr _ _
      · exact (write_yields hr _).bind fun _ _ => yields_pure trivial

theorem find_next_pc_yields (self : Thread) : Yields h I self.find_next_pc fun _ => True := by
  have hcurrent : Yields h I self.is_currect fun _ => True :=
    (get_current_thread_ptr_yields hr).bind fun _ _ => yields_pure trivial
  refine hcurrent.bind fun is_currect _ => ?_
  split
  · exact print_val_yields hr "$pc"
  · split
    · rename_i hdata
      exact savedState_yields hr hdata fun _ => yields_pure trivial
    · split
      · exact get_kernel_next_pc_yields hr self
      · exact yields_pure trivial

/-- **A thread can always be built**, and carries its own links. -/
theorem thread_init_yields {address : ℤ} (ha : address ≠ NULL_PTR) :
    Yields h I (Thread.init address) fun t => ∃ thread, t = some thread
      ∧ thread.address = address
      ∧ thread.global_threads_ptr = address + ThreadOffsets.GLOBAL_THREADS
      ∧ thread.curr_task_threads_ptr = address + ThreadOffsets.TASK_THREADS
      ∧ TaskAt m (m (address + ThreadOffsets.TASK)) thread.task_object := by
  rw [Thread.init, if_pos ha]
  refine (get_8_byte_at_yields hr _).bind fun task_ptr htask => ?_
  refine (get_8_byte_at_yields hr _).bind fun _ _ => ?_
  refine (get_8_byte_at_yields hr _).bind fun _ _ => ?_
  refine (get_8_byte_at_yields hr _).bind fun _ _ => ?_
  refine (get_8_byte_at_yields hr _).bind fun _ _ => ?_
  refine (get_8_byte_at_yields hr _).bind fun _ _ => ?_
  refine (find_next_pc_yields hr _).bind fun _ _ => ?_
  refine (task_of_thread_yields hr _).bind fun _ hat => ?_
  exact yields_pure ⟨_, rfl, rfl, rfl, rfl, htask ▸ hat⟩

/-! ## Going through a list -/

omit hr in
/-- **An iterator follows its links.** If every step of `next` either stops at `stop` or
yields something `R`-related to where it stands and moves on to the next link, then `listOf`
collects one for each element of the walk. -/
theorem listOf_yields {It A B : Type} {next : It → Script (Option (A × It))} {get : A → Script B}
    (place : It → ℤ) (link : ℤ → ℤ) (stop : ℤ) (Ok : It → Prop) {R : ℤ → B → Prop}
    (hstop : ∀ it, Ok it → place it = stop → Yields h I (next it) fun r => r = none)
    (hnext : ∀ it, Ok it → place it ≠ stop → place it ≠ NULL_PTR → Yields h I (next it) fun r =>
      ∃ a it', r = some (a, it') ∧ Ok it' ∧ place it' = link (place it)
        ∧ Yields h I (get a) (R (place it)))
    {fuel : ℕ} : ∀ {addresses : List ℤ} {it : It}, Ok it → Walk link stop (place it) addresses →
      NULL_PTR ∉ addresses → addresses.length < fuel →
      Yields h I (listOf next get fuel it) fun r =>
        ∃ bs, r = some bs ∧ List.Forall₂ R addresses bs := by
  induction fuel with
  | zero => exact fun _ _ _ hfuel => absurd hfuel (Nat.not_lt_zero _)
  | succ fuel ih =>
      intro addresses it hok hwalk hnull hfuel
      cases addresses with
      | nil =>
          refine (hstop it hok hwalk).bind fun r hr => ?_
          subst hr
          exact yields_pure ⟨[], rfl, List.Forall₂.nil⟩
      | cons x addresses =>
          obtain ⟨hx, hne, hrest⟩ := hwalk
          obtain ⟨hx0, hnull⟩ := not_or.mp (mt List.mem_cons.mpr hnull)
          refine (hnext it hok (hx ▸ hne) (hx ▸ Ne.symm hx0)).bind fun r hr => ?_
          obtain ⟨a, it', rfl, hok', hat, hget⟩ := hr
          refine hget.bind fun b hb => ?_
          refine (ih hok' (by rw [hat, hx]; exact hrest) hnull (Nat.lt_of_succ_lt_succ hfuel)).bind
            fun r hr => ?_
          obtain ⟨bs, rfl, hbs⟩ := hr
          exact yields_pure ⟨b :: bs, rfl, List.Forall₂.cons (hx ▸ hb) hbs⟩

omit hr in
theorem ThrdItrType.link_eq (type : ThrdItrType) {thread : Thread} {address : ℤ}
    (hglobal : thread.global_threads_ptr = address + ThreadOffsets.GLOBAL_THREADS)
    (htask : thread.curr_task_threads_ptr = address + ThreadOffsets.TASK_THREADS) :
    type.link thread = address + type.offset := by
  cases type with
  | GLOBAL => exact hglobal
  | TASK => exact htask

/-- A `ThreadsIterator` that has been set up goes through a walk of its links. -/
theorem threads_listOf_yields {B : Type} {get : Option Thread → Script B} {R : ℤ → B → Prop}
    (hget : ∀ thread, Yields h I (get (some thread)) (R thread.address))
    (it : ThreadsIterator) {stop ptr : ℤ} (hptr : it.next_thread_ptr = some ptr)
    (hstop : it.stop_contition = some stop) {addresses : List ℤ}
    (hwalk : Walk (fun a => m (a + it.type.offset)) stop ptr addresses)
    (hnull : NULL_PTR ∉ addresses) {fuel : ℕ} (hfuel : addresses.length < fuel) :
    Yields h I (listOf ThreadsIterator.next get fuel it) fun r =>
      ∃ bs, r = some bs ∧ List.Forall₂ R addresses bs := by
  refine listOf_yields (fun it' => it'.next_thread_ptr.getD NULL_PTR)
    (fun a => m (a + it.type.offset)) stop
    (fun it' => it'.type = it.type ∧ it'.stop_contition = some stop
      ∧ ∃ ptr, it'.next_thread_ptr = some ptr) ?_ ?_ ⟨rfl, hstop, ptr, hptr⟩ ?_ hnull hfuel
  · rintro it' ⟨-, hstop', ptr', hptr'⟩ hend
    rw [hptr', Option.getD_some] at hend
    rw [ThreadsIterator.next, hptr', hstop', hend, if_neg (not_not_intro rfl)]
    exact yields_pure rfl
  · rintro it' ⟨htype, hstop', ptr', hptr'⟩ hne hnull'
    rw [hptr', Option.getD_some] at hne hnull' ⊢
    have hmoves : some ptr' ≠ some stop := fun h => hne (Option.some.inj h)
    rw [ThreadsIterator.next, hptr', hstop', if_pos hmoves]
    refine (thread_init_yields hr hnull').bind fun t ht => ?_
    obtain ⟨thread, rfl, haddress, hglobal, htask, -⟩ := ht
    refine (attr_yields thread).bind fun thread' hthread => ?_
    subst hthread
    refine (get_8_byte_at_yields hr _).bind fun next_thread_ptr hnext => ?_
    rw [it'.type.link_eq hglobal htask, htype] at hnext
    exact yields_pure ⟨some thread', _, rfl, ⟨htype, rfl, _, rfl⟩, hnext,
      haddress ▸ hget thread'⟩
  · rw [hptr]
    exact hwalk

/-- A `TasksIterator` likewise. -/
theorem tasks_listOf_yields {B : Type} {get : Option Task → Script B} {R : ℤ → B → Prop}
    (hget : ∀ task, Yields h I (get (some task)) (R task.address)) {it : TasksIterator}
    {addresses : List ℤ}
    (hwalk : Walk (fun a => m (a + TaskOffsets.TASK_NEXT)) it.stop_contition it.next_task_ptr
      addresses)
    (hnull : NULL_PTR ∉ addresses) {fuel : ℕ} (hfuel : addresses.length < fuel) :
    Yields h I (listOf TasksIterator.next get fuel it) fun r =>
      ∃ bs, r = some bs ∧ List.Forall₂ R addresses bs := by
  refine listOf_yields TasksIterator.next_task_ptr (fun a => m (a + TaskOffsets.TASK_NEXT))
    it.stop_contition (fun it' => it'.stop_contition = it.stop_contition) ?_ ?_ rfl hwalk hnull
    hfuel
  · intro it' hstop hend
    rw [TasksIterator.next, hstop, if_neg (not_not_intro hend)]
    exact yields_pure rfl
  · intro it' hstop hne hnull'
    rw [TasksIterator.next, hstop, if_pos hne]
    refine (task_init_yields hr hnull').bind fun t ht => ?_
    obtain ⟨task, rfl, haddress, hlink, -⟩ := ht
    refine (attr_yields task).bind fun task' htask => ?_
    subst htask
    refine (get_8_byte_at_yields hr _).bind fun next_task_ptr hnext => ?_
    rw [hlink] at hnext
    exact yields_pure ⟨some task', _, rfl, rfl, hnext, haddress ▸ hget task'⟩

/-- `listOf` ends, and makes an object for each address, in this order. -/
def Enumerates {T : Type} (h : Session σ) (I : σ → Prop)
    (walk : ℕ → Script (Option (List (Option T)))) (address : T → ℤ) (addresses : List ℤ) : Prop :=
  ∀ fuel, addresses.length < fuel →
    Yields h I (walk fuel) fun r =>
      ∃ ts : List T, r = some (ts.map some) ∧ ts.map address = addresses

omit hr in
/-- Objects with their addresses, taken apart. -/
theorem objects_of_forall₂ {T : Type} {address : T → ℤ} {addresses : List ℤ} {os : List (Option T)}
    (hos : List.Forall₂ (fun a o => ∃ t, o = some t ∧ address t = a) addresses os) :
    ∃ ts : List T, os = ts.map some ∧ ts.map address = addresses := by
  induction hos with
  | nil => exact ⟨[], rfl, rfl⟩
  | cons ho _ ih =>
      obtain ⟨t, rfl, rfl⟩ := ho
      obtain ⟨ts, rfl, rfl⟩ := ih
      exact ⟨t :: ts, rfl, rfl⟩

theorem threads_enumerates {it : ThreadsIterator} {is_global : Bool} {task : Option ℤ}
    (hinit : Yields h I (do let it ← ThreadsIterator.init is_global task; it.iter) (· = it))
    {stop ptr : ℤ} (hptr : it.next_thread_ptr = some ptr) (hstop : it.stop_contition = some stop)
    {addresses : List ℤ} (hwalk : Walk (fun a => m (a + it.type.offset)) stop ptr addresses)
    (hnull : NULL_PTR ∉ addresses) :
    Enumerates h I (threads is_global task) Thread.address addresses := by
  intro fuel hfuel
  have hthreads : threads is_global task fuel = (do
      let it ← ThreadsIterator.init is_global task
      it.iter) >>= fun it => listOf ThreadsIterator.next pure fuel it := by
    rw [threads, bind_assoc]
  rw [hthreads]
  refine hinit.bind fun it' hit => ?_
  subst hit
  refine (threads_listOf_yields hr (R := fun a o => ∃ t, o = some t ∧ t.address = a)
    (fun thread => yields_pure ⟨thread, rfl, rfl⟩) it' hptr hstop hwalk hnull hfuel).mono ?_
  rintro r ⟨os, rfl, hos⟩
  obtain ⟨ts, rfl, hts⟩ := objects_of_forall₂ hos
  exact ⟨ts, rfl, hts⟩

theorem global_iter_yields :
    Yields h I (do let it ← ThreadsIterator.init true none; it.iter) (· = ⟨.GLOBAL, NULL_PTR,
      some (m GLOBAL_THREADS_PTR), some GLOBAL_THREADS_PTR⟩) := by
  refine (get_8_byte_at_yields hr GLOBAL_THREADS_PTR).bind fun ptr hptr => ?_
  subst hptr
  exact yields_pure rfl

theorem task_iter_yields {task : ℤ} (htask : task ≠ NULL_PTR) :
    Yields h I (do let it ← ThreadsIterator.init false (some task); it.iter) (· = ⟨.TASK, task,
      some (m (task + TaskOffsets.THREAD_LST_FROM_TASK)),
      some (task + TaskOffsets.THREAD_LST_FROM_TASK)⟩) := by
  have hinit : ThreadsIterator.init false (some task) = pure ⟨.TASK, task, none, none⟩ :=
    if_pos htask
  rw [hinit, pure_bind]
  refine (task_init_yields hr htask).bind fun t ht => ?_
  obtain ⟨relevant_task, rfl, -, -, hlst, -⟩ := ht
  refine (attr_yields relevant_task).bind fun t ht => ?_
  subst ht
  refine (get_8_byte_at_yields hr _).bind fun ptr hptr => ?_
  rw [hlst] at hptr
  subst hptr
  exact yields_pure rfl

theorem tasksIterator_init_yields :
    Yields h I TasksIterator.init (· = ⟨GLOBAL_TASKS_PTR, m GLOBAL_TASKS_PTR⟩) := by
  refine (get_8_byte_at_yields hr GLOBAL_TASKS_PTR).bind fun ptr hptr => ?_
  subst hptr
  exact yields_pure rfl

/-- The tasks of the kernel. -/
theorem tasks_enumerates {addresses : List ℤ}
    (hwalk : Walk (fun a => m (a + TaskOffsets.TASK_NEXT)) GLOBAL_TASKS_PTR (m GLOBAL_TASKS_PTR)
      addresses)
    (hnull : NULL_PTR ∉ addresses) : Enumerates h I tasks Task.address addresses := by
  intro fuel hfuel
  refine (tasksIterator_init_yields hr).bind fun it hit => ?_
  subst hit
  refine (tasks_listOf_yields hr (R := fun a o => ∃ t, o = some t ∧ t.address = a)
    (fun task => yields_pure ⟨task, rfl, rfl⟩) hwalk hnull hfuel).mono ?_
  rintro r ⟨os, rfl, hos⟩
  obtain ⟨ts, rfl, hts⟩ := objects_of_forall₂ hos
  exact ⟨ts, rfl, hts⟩

/-- A task exists if its address is on the list. -/
theorem task_exists_yields (task : ℤ) {addresses : List ℤ}
    (hwalk : Walk (fun a => m (a + TaskOffsets.TASK_NEXT)) GLOBAL_TASKS_PTR (m GLOBAL_TASKS_PTR)
      addresses)
    (hnull : NULL_PTR ∉ addresses) {fuel : ℕ} (hfuel : addresses.length < fuel) :
    Yields h I (is_task_exist task fuel) (· = some (decide (task ∈ addresses))) := by
  refine (tasksIterator_init_yields hr).bind fun it hit => ?_
  subst hit
  refine (tasks_listOf_yields hr (R := fun a b => a = b)
    (fun t => (attr_yields t).bind fun t' ht => yields_pure (ht ▸ rfl)) hwalk hnull hfuel).bind ?_
  rintro r ⟨bs, rfl, hbs⟩
  obtain rfl : addresses = bs := List.forall₂_eq_eq_eq ▸ hbs
  exact yields_pure (congrArg some (List.contains_eq_mem ..))

/-- A thread exists if its address is on the global list. -/
theorem thread_exists_yields (thread : ℤ) {addresses : List ℤ}
    (hwalk : Walk (fun a => m (a + ThreadOffsets.GLOBAL_THREADS)) GLOBAL_THREADS_PTR
      (m GLOBAL_THREADS_PTR) addresses)
    (hnull : NULL_PTR ∉ addresses) {fuel : ℕ} (hfuel : addresses.length < fuel) :
    Yields h I (is_thread_exist thread fuel) (· = some (decide (thread ∈ addresses))) := by
  have hexist : is_thread_exist thread fuel = (do
      let it ← ThreadsIterator.init true none
      it.iter) >>= fun it => (do
        let addresses ← listOf ThreadsIterator.next
          (fun tmpthread => do return (← attr tmpthread).address) fuel it
        return addresses.map fun l => l.contains thread) := by
    rw [is_thread_exist, bind_assoc]
  rw [hexist]
  refine (global_iter_yields hr).bind fun it hit => ?_
  subst hit
  refine (threads_listOf_yields hr (R := fun a b => a = b)
    (fun t => (attr_yields t).bind fun t' ht => yields_pure (ht ▸ rfl))
    ⟨.GLOBAL, NULL_PTR, some (m GLOBAL_THREADS_PTR), some GLOBAL_THREADS_PTR⟩ rfl rfl hwalk hnull
    hfuel).bind ?_
  rintro r ⟨bs, rfl, hbs⟩
  obtain rfl : addresses = bs := List.forall₂_eq_eq_eq ▸ hbs
  exact yields_pure (congrArg some (List.contains_eq_mem ..))

end Yields

/-! ## Any kernel memory -/

/-- What every read of a stopped kernel answers. -/
structure KernelMemory where
  x_g : ℤ → ℤ
  x_w : ℤ → ℤ
  x_s : ℤ → String
  print : String → ℤ

/-- A session on it; the state is what has been written to the terminal. -/
def KernelMemory.session (m : KernelMemory) : Session (List String)
  | .x_g addr, out => some (.ok (m.x_g addr), out)
  | .x_w addr, out => some (.ok (m.x_w addr), out)
  | .x_s addr, out => some (.ok (m.x_s addr), out)
  | .print var, out => some (.ok (m.print var), out)
  | .write text, out => some (.ok (), out ++ [text])
  | _, _ => none

theorem KernelMemory.reads (m : KernelMemory) : Reads m.session (fun _ => True) m.x_g where
  x_g _ out _ := ⟨out, rfl, trivial⟩
  x_w addr out _ := ⟨m.x_w addr, out, rfl, trivial⟩
  x_s addr out _ := ⟨m.x_s addr, out, rfl, trivial⟩
  print var out _ := ⟨m.print var, out, rfl, trivial⟩
  write text out _ := ⟨out ++ [text], rfl, trivial⟩

/-- **The walks enumerate the kernel's lists.** Whenever the links lead from the head of a
list through `addresses`, none of them null, back to the head, no address occurs twice, the
iterator yields an object for each of them in this order and stops, and membership is
decided by the list. -/
theorem lists_enumerated (m : KernelMemory) (addresses : List ℤ) (hnull : NULL_PTR ∉ addresses) :
    (Walk (fun a => m.x_g (a + TaskOffsets.TASK_NEXT)) GLOBAL_TASKS_PTR (m.x_g GLOBAL_TASKS_PTR)
        addresses →
      addresses.Nodup ∧ Enumerates m.session (fun _ => True) tasks Task.address addresses
      ∧ ∀ task fuel, addresses.length < fuel → Yields m.session (fun _ => True)
          (is_task_exist task fuel) (· = some (decide (task ∈ addresses))))
    ∧ (Walk (fun a => m.x_g (a + ThreadOffsets.GLOBAL_THREADS)) GLOBAL_THREADS_PTR
        (m.x_g GLOBAL_THREADS_PTR) addresses →
      addresses.Nodup
      ∧ Enumerates m.session (fun _ => True) (threads true none) Thread.address addresses
      ∧ ∀ thread fuel, addresses.length < fuel → Yields m.session (fun _ => True)
          (is_thread_exist thread fuel) (· = some (decide (thread ∈ addresses))))
    ∧ ∀ task, task ≠ NULL_PTR →
      Walk (fun a => m.x_g (a + ThreadOffsets.TASK_THREADS))
        (task + TaskOffsets.THREAD_LST_FROM_TASK)
        (m.x_g (task + TaskOffsets.THREAD_LST_FROM_TASK)) addresses →
      addresses.Nodup ∧ Enumerates m.session (fun _ => True) (threads false (some task))
        Thread.address addresses := by
  refine ⟨fun hwalk => ?_, fun hwalk => ?_, fun task htask hwalk => ?_⟩
  · exact ⟨hwalk.nodup, tasks_enumerates m.reads hwalk hnull, fun task fuel hfuel =>
      task_exists_yields m.reads task hwalk hnull hfuel⟩
  · exact ⟨hwalk.nodup, threads_enumerates m.reads (global_iter_yields m.reads) rfl rfl hwalk hnull,
      fun thread fuel hfuel => thread_exists_yields m.reads thread hwalk hnull hfuel⟩
  · exact ⟨hwalk.nodup,
      threads_enumerates m.reads (task_iter_yields m.reads htask) rfl rfl hwalk hnull⟩

/-- Two structures, at 0x1000 and 0x2000, on all three lists. -/
def twoOnEachList : KernelMemory where
  x_g addr :=
    if addr = GLOBAL_TASKS_PTR ∨ addr = GLOBAL_THREADS_PTR ∨ addr = 0x5040 then 0x1000
    else if addr = 0x1028 ∨ addr = 0x1348 ∨ addr = 0x1358 then 0x2000
    else if addr = 0x2028 then GLOBAL_TASKS_PTR
    else if addr = 0x2348 then GLOBAL_THREADS_PTR
    else if addr = 0x2358 then 0x5040
    else 0
  x_w _ := 0
  x_s _ := ""
  print _ := 0

/-- They are enumerated on each. -/
theorem lists_enumerated_two :
    Enumerates twoOnEachList.session (fun _ => True) tasks Task.address [0x1000, 0x2000]
    ∧ Enumerates twoOnEachList.session (fun _ => True) (threads true none) Thread.address
      [0x1000, 0x2000]
    ∧ Enumerates twoOnEachList.session (fun _ => True) (threads false (some 0x5000)) Thread.address
      [0x1000, 0x2000] := by
  obtain ⟨htasks, hthreads, htask⟩ := lists_enumerated twoOnEachList [0x1000, 0x2000] (by decide)
  refine ⟨(htasks ?_).2.1, (hthreads ?_).2.1, (htask 0x5000 (by decide) ?_).2⟩
  · exact ⟨by decide, by decide, by decide, by decide, rfl⟩
  · exact ⟨by decide, by decide, by decide, by decide, rfl⟩
  · exact ⟨by decide, by decide, by decide, by decide, rfl⟩

end XnuQemuTools.KernelLists
