/-
All commands of `gdb/xnu`, and what they leave alone.

`xnu-switch` lets the kernel run. The other commands are for looking at it, and what they
print is only worth something if they see one state of the kernel and do not change it.
`commands_look` says that they make no call but reads and writes to the terminal, on every
path and whatever gdb answers, so also on the paths behind an exception. From this
`commands_frozen` follows: in a session in which the kernel could run, each of them ends as it
ends on the memory of the kernel at the point where it was started.
-/
import XnuQemuTools.IpcEntries
import XnuQemuTools.Zones

set_option autoImplicit false

namespace XnuQemuTools.GdbCommands

open Calls Calls.Prog Exceptions Gdb KernelLists KernelObjects KernelPrinters Output
open ThreadCommands IpcEntries Zones
open SwitchThread (int_ in_user_space Schedule Progress)

/-! ## The commands for one object -/

section Invoke

variable (symbols : Symbols) (string_to_argv : String → List String) (int0 : String → Option ℤ)

def thread_info_usage : String := "\nUsage: xnu-thread-info $\x7bTHREAD_PTR\x7d\n"
def task_info_usage : String := "\nUsage: xnu-task-info $\x7bTASK_PTR\x7d\n"
def voucher_info_usage : String :=
  "\nUsage: xnu-voucher-info $\x7bTHREAD_PTR\x7d (maybe wrong pointer?)\n"
def ipc_port_info_usage : String := "\nUsage: xnu-ipc-port-info $\x7bIPC_PORT_PTR\x7d\n"

/-- The notice of `xnu-task-info` that a task is not on the list of tasks. -/
def no_such_task_info (task : String) : String :=
  "\nRequested task " ++ task ++ " do not exist in the task list of the system!\n\n\n"

/-- `gdb.write(…)` as the last thing a command does. -/
def finish (text : String) : Script (Option Unit) := do
  write text
  return some ()

/-- The text that a printer makes of the object at an address. -/
def finish_printer (printer : Printer) (address : ℤ) : Script (Option Unit) := do
  let text ← printer.run symbols address
  finish (text ++ "\n")

/-- The `try` block of `PrintThreadInfo.invoke`. -/
def thread_info_argv (argv : List String) (fuel : ℕ) : Script (Option Unit) :=
  match argv with
  | [arg] => do
      let thread ← int_ int0 arg
      let some exist ← is_thread_exist thread fuel | return none
      if exist then finish_printer symbols .thread_info_long thread
      else finish "Given thread do not exist\n"
  | _ => finish thread_info_usage

/-- The `try` block of `PrintTaskInfo.invoke`. -/
def task_info_argv (argv : List String) (fuel : ℕ) : Script (Option Unit) :=
  match argv with
  | [arg] => do
      let task ← int_ int0 arg
      if ← is_valid_ptr task then
        let some exist ← is_task_exist task fuel | return none
        if !exist then write (no_such_task_info arg)
        finish_printer symbols .task_info_long task
      else finish "Given task do not exist\n"
  | _ => finish task_info_usage

/-- `if len(argv) == 1 and is_valid_ptr(int(argv[0], 0))`, and the object that is printed then. -/
def object_info_argv (printer : Printer) (usage : String) (argv : List String) :
    Script (Option Unit) :=
  match argv with
  | [arg] => do
      let ptr ← int_ int0 arg
      if ← is_valid_ptr ptr then
        let address ← int_ int0 arg
        finish_printer symbols printer address
      else finish usage
  | _ => finish usage

/-- The `try` block of `PrintVoucherInfo.invoke`. -/
def voucher_info_argv : List String → Script (Option Unit) :=
  object_info_argv symbols int0 .voucher_info voucher_info_usage

/-- The `try` block of `PrintIpcPortInfo.invoke`. -/
def ipc_port_info_argv : List String → Script (Option Unit) :=
  object_info_argv symbols int0 .ipc_port_info ipc_port_info_usage

/-! ## All commands -/

/-- The commands that look at the kernel. -/
inductive Command where
  | xnu_threads
  | xnu_tasks
  | xnu_thread_info
  | xnu_task_info
  | xnu_voucher_info
  | xnu_ipc_port_info
  | xnu_ipc_entry_list
  | xnu_zones

/-- `invoke` of a command. -/
def Command.invoke (arg : String) (fuel : ℕ) : Command → Script (Option Unit)
  | .xnu_threads => ThreadCommands.xnu_threads symbols string_to_argv int0 arg fuel
  | .xnu_tasks => ThreadCommands.xnu_tasks arg fuel
  | .xnu_thread_info => in_kernel (thread_info_argv symbols int0 (string_to_argv arg) fuel)
  | .xnu_task_info => in_kernel (task_info_argv symbols int0 (string_to_argv arg) fuel)
  | .xnu_voucher_info => in_kernel (voucher_info_argv symbols int0 (string_to_argv arg))
  | .xnu_ipc_port_info => in_kernel (ipc_port_info_argv symbols int0 (string_to_argv arg))
  | .xnu_ipc_entry_list => IpcEntries.xnu_ipc_entry_list string_to_argv int0 arg fuel
  | .xnu_zones => do
      Zones.xnu_zones arg
      return some ()

end Invoke

/-! ## Looking -/

/-- Reading memory, the register that holds the current thread or the pc, and writing to the
terminal. -/
def Looks : GdbOp → Prop
  | .x_g _ | .x_w _ | .x_s _ | .write _ => True
  | .print var => var = CURRENT_THREAD ∨ var = "$pc"
  | _ => False

section Looking

variable {α β : Type}

theorem reraise_looks {p : Script α} (hp : Only Looks p.run) : Only Looks (reraise p).run :=
  only_run_catch hp fun _ => only_run_throw _

theorem get_8_byte_at_looks (addr : ℤ) : Only Looks (get_8_byte_at addr).run :=
  reraise_looks (only_run_request trivial)

theorem get_4_byte_at_looks (addr : ℤ) : Only Looks (get_4_byte_at addr).run :=
  reraise_looks (only_run_request trivial)

theorem get_string_at_looks (addr : ℤ) : Only Looks (get_string_at addr).run :=
  reraise_looks (only_run_request trivial)

theorem print_val_looks {var : String} (hvar : var = CURRENT_THREAD ∨ var = "$pc") :
    Only Looks (print_val var).run :=
  reraise_looks (only_run_request hvar)

theorem write_looks (text : String) : Only Looks (write text).run := only_run_request trivial

theorem get_current_thread_ptr_looks : Only Looks get_current_thread_ptr.run :=
  only_run_catch (print_val_looks (.inl rfl)) fun _ => only_run_throw _

theorem get_current_task_ptr_looks : Only Looks get_current_task_ptr.run :=
  only_run_catch (only_run_bind (print_val_looks (.inl rfl)) fun _ => get_8_byte_at_looks _) fun _ =>
    only_run_throw _

theorem is_valid_ptr_looks (ptr : ℤ) : Only Looks (is_valid_ptr ptr).run :=
  only_run_catch (only_run_bind (get_8_byte_at_looks _) fun _ => only_run_pure _) fun _ =>
    only_run_throw _

theorem attr_looks (o : Option α) : Only Looks (attr o).run := by
  cases o with
  | none => exact only_run_throw _
  | some a => exact only_run_pure a

theorem int_looks (int0 : String → Option ℤ) (text : String) : Only Looks (int_ int0 text).run := by
  unfold int_
  split
  · exact only_run_pure _
  · exact only_run_throw _

theorem item_looks (l : List α) (i : ℤ) : Only Looks (item l i).run := by
  unfold item
  generalize (if i < 0 then i + l.length else i) = j
  simp only
  split
  · exact only_run_throw _
  · split
    · exact only_run_pure _
    · exact only_run_throw _

end Looking

/-! ## Constructors look -/

theorem bsdInfo_init_looks (address : ℤ) : Only Looks (BsdInfo.init address).run := by
  unfold BsdInfo.init
  split
  · refine only_run_bind (get_4_byte_at_looks _) fun _ => ?_
    refine only_run_bind (get_string_at_looks _) fun _ => ?_
    exact only_run_pure _
  · exact only_run_pure none

theorem ipcSpace_init_looks (address : ℤ) : Only Looks (IPCSpace.init address).run := by
  unfold IPCSpace.init
  split
  · refine only_run_bind (get_8_byte_at_looks _) fun _ => ?_
    refine only_run_bind (get_4_byte_at_looks _) fun _ => ?_
    refine only_run_bind (get_4_byte_at_looks _) fun _ => ?_
    exact only_run_pure _
  · exact only_run_pure none

theorem threadSavedState_init_looks (address : ℤ) :
    Only Looks (ThreadSavedState.init address).run := by
  unfold ThreadSavedState.init
  split
  · refine only_run_bind (only_run_mapM (fun _ => get_8_byte_at_looks _) _) fun _ => ?_
    refine only_run_bind (get_8_byte_at_looks _) fun _ => ?_
    refine only_run_bind (get_8_byte_at_looks _) fun _ => ?_
    refine only_run_bind (get_8_byte_at_looks _) fun _ => ?_
    refine only_run_bind (get_8_byte_at_looks _) fun _ => ?_
    refine only_run_bind (get_4_byte_at_looks _) fun _ => ?_
    refine only_run_bind (get_4_byte_at_looks _) fun _ => ?_
    refine only_run_bind (get_8_byte_at_looks _) fun _ => ?_
    refine only_run_bind (get_4_byte_at_looks _) fun _ => ?_
    refine only_run_bind (get_4_byte_at_looks _) fun _ => ?_
    exact only_run_pure _
  · exact only_run_pure none

theorem task_init_looks (address : ℤ) : Only Looks (Task.init address).run := by
  unfold Task.init
  split
  · refine only_run_bind (get_8_byte_at_looks _) fun _ => ?_
    refine only_run_bind (get_8_byte_at_looks _) fun _ => ?_
    refine only_run_bind (get_8_byte_at_looks _) fun _ => ?_
    refine only_run_bind (ipcSpace_init_looks _) fun _ => ?_
    refine only_run_bind (bsdInfo_init_looks _) fun _ => ?_
    exact only_run_pure _
  · exact only_run_pure none

/-- The `pc` of a saved state. -/
theorem saved_state_looks {β : Type} (address : ℤ) {f : ThreadSavedState → Script β}
    (hf : ∀ state, Only Looks (f state).run) :
    Only Looks (do let state ← attr (← ThreadSavedState.init address); f state).run :=
  only_run_bind (threadSavedState_init_looks address) fun _ => only_run_bind (attr_looks _) hf

theorem after_exception_return_looks (sp pc : ℤ) :
    Only Looks (after_exception_return sp pc).run := by
  unfold after_exception_return
  split
  · refine only_run_bind (get_8_byte_at_looks _) fun next_x21_ptr => ?_
    by_cases hnull : next_x21_ptr = NULL_PTR
    · rw [if_pos hnull]
      exact only_run_pure _
    · rw [if_neg hnull]
      exact saved_state_looks _ fun _ => only_run_pure _
  · exact only_run_pure pc

theorem get_kernel_next_pc_looks (self : Thread) : Only Looks self.get_kernel_next_pc.run := by
  unfold Thread.get_kernel_next_pc
  split
  · exact only_run_pure _
  · refine saved_state_looks _ fun state => ?_
    refine only_run_bind (get_8_byte_at_looks _) fun next_to_thread_invoke => ?_
    split
    · exact only_run_bind (get_8_byte_at_looks _) fun _ => after_exception_return_looks _ _
    · split
      · exact only_run_bind (get_8_byte_at_looks _) fun _ => after_exception_return_looks _ _
      · exact only_run_bind (write_looks _) fun _ => only_run_pure _

theorem find_next_pc_looks (self : Thread) : Only Looks self.find_next_pc.run := by
  have hcurrent : Only Looks self.is_currect.run :=
    only_run_bind get_current_thread_ptr_looks fun _ => only_run_pure _
  refine only_run_bind hcurrent fun is_currect => ?_
  split
  · exact print_val_looks (.inr rfl)
  · split
    · exact saved_state_looks _ fun _ => only_run_pure _
    · split
      · exact get_kernel_next_pc_looks self
      · exact only_run_pure _

theorem thread_init_looks (address : ℤ) : Only Looks (Thread.init address).run := by
  unfold Thread.init
  split
  · refine only_run_bind (get_8_byte_at_looks _) fun _ => ?_
    refine only_run_bind (get_8_byte_at_looks _) fun _ => ?_
    refine only_run_bind (get_8_byte_at_looks _) fun _ => ?_
    refine only_run_bind (get_8_byte_at_looks _) fun _ => ?_
    refine only_run_bind (get_8_byte_at_looks _) fun _ => ?_
    refine only_run_bind (get_8_byte_at_looks _) fun _ => ?_
    refine only_run_bind (find_next_pc_looks _) fun _ => ?_
    refine only_run_bind (task_init_looks _) fun _ => ?_
    exact only_run_pure _
  · exact only_run_pure none

theorem ipcObject_init_looks (address : ℤ) : Only Looks (IPCObject.init address).run := by
  unfold IPCObject.init
  split
  · refine only_run_bind (get_4_byte_at_looks _) fun _ => ?_
    refine only_run_bind (get_4_byte_at_looks _) fun _ => ?_
    refine only_run_bind (get_8_byte_at_looks _) fun _ => ?_
    refine only_run_bind (get_8_byte_at_looks _) fun _ => ?_
    exact only_run_pure _
  · exact only_run_pure none

theorem ipcEntry_init_looks (address : ℤ) : Only Looks (IPCEntry.init address).run := by
  have hobject : ∀ ie_object, Only Looks (IPCEntry.find_object ie_object).run := by
    intro ie_object
    unfold IPCEntry.find_object
    split
    · exact only_run_bind (ipcObject_init_looks _) fun _ => only_run_pure _
    · exact only_run_pure none
  unfold IPCEntry.init
  split
  · refine only_run_bind (get_8_byte_at_looks _) fun _ => ?_
    refine only_run_bind (get_4_byte_at_looks _) fun _ => ?_
    refine only_run_bind (get_4_byte_at_looks _) fun _ => ?_
    refine only_run_bind (get_4_byte_at_looks _) fun _ => ?_
    refine only_run_bind (hobject _) fun _ => ?_
    exact only_run_pure _
  · exact only_run_pure none

theorem ipcPort_init_looks (address : ℤ) : Only Looks (IPCPort.init address).run := by
  unfold IPCPort.init
  split
  · refine only_run_bind (ipcObject_init_looks _) fun _ => ?_
    refine only_run_bind (get_8_byte_at_looks _) fun _ => ?_
    refine only_run_bind (get_8_byte_at_looks _) fun _ => ?_
    refine only_run_bind (get_8_byte_at_looks _) fun _ => ?_
    refine only_run_bind (get_8_byte_at_looks _) fun _ => ?_
    refine only_run_bind (get_8_byte_at_looks _) fun _ => ?_
    refine only_run_bind (get_4_byte_at_looks _) fun _ => ?_
    refine only_run_bind (get_4_byte_at_looks _) fun _ => ?_
    refine only_run_bind (get_4_byte_at_looks _) fun _ => ?_
    refine only_run_bind (get_4_byte_at_looks _) fun _ => ?_
    exact only_run_pure _
  · exact only_run_pure none

theorem threadVoucher_init_looks (address : ℤ) : Only Looks (ThreadVoucher.init address).run := by
  unfold ThreadVoucher.init
  split
  · refine only_run_bind (get_8_byte_at_looks _) fun _ => ?_
    refine only_run_bind (get_8_byte_at_looks _) fun _ => ?_
    refine only_run_bind (get_8_byte_at_looks _) fun _ => ?_
    refine only_run_bind (get_8_byte_at_looks _) fun _ => ?_
    refine only_run_bind (get_8_byte_at_looks _) fun _ => ?_
    refine only_run_bind (get_8_byte_at_looks _) fun _ => ?_
    refine only_run_bind (get_8_byte_at_looks _) fun _ => ?_
    refine only_run_bind (get_8_byte_at_looks _) fun _ => ?_
    exact only_run_pure _
  · exact only_run_pure none

theorem structZone_init_looks (addr : ℤ) : Only Looks (StructZone.init addr).run := by
  refine only_run_bind (get_8_byte_at_looks _) fun _ => ?_
  refine only_run_bind (get_8_byte_at_looks _) fun _ => ?_
  refine only_run_bind (get_8_byte_at_looks _) fun _ => ?_
  refine only_run_bind (get_8_byte_at_looks _) fun _ => ?_
  refine only_run_bind (get_8_byte_at_looks _) fun _ => ?_
  refine only_run_bind (get_8_byte_at_looks _) fun _ => ?_
  refine only_run_bind (get_4_byte_at_looks _) fun _ => ?_
  refine only_run_bind (get_4_byte_at_looks _) fun _ => ?_
  refine only_run_bind (get_8_byte_at_looks _) fun _ => ?_
  refine only_run_bind (get_string_at_looks _) fun _ => ?_
  exact only_run_pure _

/-! ## Iterators look -/

theorem threadsIterator_init_looks (is_global : Bool) (task : Option ℤ) :
    Only Looks (ThreadsIterator.init is_global task).run := by
  unfold ThreadsIterator.init
  split
  · exact only_run_pure _
  · split
    · split
      · exact only_run_pure _
      · exact only_run_throw _
    · exact only_run_throw _

theorem threadsIterator_iter_looks (self : ThreadsIterator) : Only Looks self.iter.run := by
  unfold ThreadsIterator.iter
  split
  · exact only_run_bind (get_8_byte_at_looks _) fun _ => only_run_pure _
  · refine only_run_bind (task_init_looks _) fun _ => only_run_bind (attr_looks _) fun _ => ?_
    exact only_run_bind (get_8_byte_at_looks _) fun _ => only_run_pure _

theorem threadsIterator_next_looks (self : ThreadsIterator) : Only Looks self.next.run := by
  unfold ThreadsIterator.next
  split
  · split
    · exact only_run_throw _
    · refine only_run_bind (thread_init_looks _) fun _ => only_run_bind (attr_looks _) fun _ => ?_
      exact only_run_bind (get_8_byte_at_looks _) fun _ => only_run_pure _
  · exact only_run_pure none

theorem start_threads_looks (is_global : Bool) (task : Option ℤ) :
    Only Looks (start_threads is_global task).run :=
  only_run_bind (threadsIterator_init_looks _ _) fun _ =>
    only_run_bind (threadsIterator_iter_looks _) fun _ => threadsIterator_iter_looks _

theorem tasksIterator_init_looks : Only Looks TasksIterator.init.run :=
  only_run_bind (get_8_byte_at_looks _) fun _ => only_run_pure _

theorem tasksIterator_next_looks (self : TasksIterator) : Only Looks self.next.run := by
  unfold TasksIterator.next
  split
  · refine only_run_bind (task_init_looks _) fun _ => only_run_bind (attr_looks _) fun _ => ?_
    exact only_run_bind (get_8_byte_at_looks _) fun _ => only_run_pure _
  · exact only_run_pure none

theorem listOf_looks {It A B : Type} {next : It → Script (Option (A × It))} {get : A → Script B}
    (hnext : ∀ it, Only Looks (next it).run) (hget : ∀ a, Only Looks (get a).run) (fuel : ℕ) :
    ∀ it, Only Looks (listOf next get fuel it).run := by
  induction fuel with
  | zero => exact fun _ => only_run_pure none
  | succ fuel ih =>
      intro it
      refine only_run_bind (hnext it) fun r => ?_
      match r with
      | none => exact only_run_pure _
      | some (a, it) =>
          exact only_run_bind (hget a) fun _ => only_run_bind (ih it) fun _ => only_run_pure _

theorem is_task_exist_looks (task : ℤ) (fuel : ℕ) : Only Looks (is_task_exist task fuel).run := by
  refine only_run_bind tasksIterator_init_looks fun _ => ?_
  refine only_run_bind (listOf_looks tasksIterator_next_looks (fun _ => ?_) fuel _) fun _ =>
    only_run_pure _
  exact only_run_bind (attr_looks _) fun _ => only_run_pure _

theorem is_thread_exist_looks (thread : ℤ) (fuel : ℕ) :
    Only Looks (is_thread_exist thread fuel).run := by
  refine only_run_bind (threadsIterator_init_looks _ _) fun _ => ?_
  refine only_run_bind (threadsIterator_iter_looks _) fun _ => ?_
  refine only_run_bind (listOf_looks threadsIterator_next_looks (fun _ => ?_) fuel _) fun _ =>
    only_run_pure _
  exact only_run_bind (attr_looks _) fun _ => only_run_pure _

/-- However many entries are skipped. -/
theorem entryIterator_next_looks (n : ℕ) : ∀ self : IPCEntryIterator,
    (self.size - self.index).toNat = n → Only Looks self.next.run := by
  induction n using Nat.strong_induction_on with
  | _ n ih =>
      intro self hn
      rw [IPCEntryIterator.next]
      split
      · rename_i hlt
        refine only_run_bind (ipcEntry_init_looks _) fun _ => only_run_bind (attr_looks _) fun _ => ?_
        simp only
        split
        · exact only_run_pure _
        · exact ih _ (by simp only; omega) _ rfl
      · exact only_run_pure none

theorem entryIterator_init_looks (address : ℤ) :
    Only Looks (IPCEntryIterator.init address).run := by
  refine only_run_bind (is_valid_ptr_looks address) fun valid => ?_
  split
  · refine only_run_bind (ipcSpace_init_looks _) fun _ => only_run_bind (attr_looks _) fun _ => ?_
    refine only_run_bind (ipcSpace_init_looks _) fun _ => only_run_bind (attr_looks _) fun _ => ?_
    exact only_run_pure _
  · exact only_run_throw _

/-! ## Printers look -/

theorem saved_state_lines_looks (symbols : Symbols) (ptr : ℤ) (previous_struct : String) :
    Only Looks (saved_state_lines symbols ptr previous_struct).run := by
  unfold saved_state_lines
  split
  · exact only_run_bind (threadSavedState_init_looks _) fun _ => only_run_pure _
  · exact only_run_pure _

theorem task_lines_looks (self : Thread) : Only Looks (Thread.task_lines self).run := by
  unfold Thread.task_lines
  split
  · exact only_run_bind (attr_looks _) fun _ => only_run_pure _
  · exact only_run_pure _

theorem object_lines_looks (self : IPCObject) (previous_struct : String) :
    Only Looks (IPCObject.lines self previous_struct).run :=
  only_run_bind (item_looks _ _) fun _ => only_run_pure _

theorem print_thead_info_short_looks (symbols : Symbols)
    (max_length_proc max_length_cont max_length_pc : ℕ) (thread : Option Thread) :
    Only Looks (Thread.print_thead_info_short symbols max_length_proc max_length_cont max_length_pc
      thread).run := by
  cases thread with
  | none => exact only_run_pure _
  | some self => exact only_run_bind get_current_thread_ptr_looks fun _ => only_run_pure _

theorem print_thread_info_long_looks (symbols : Symbols) (thread : Option Thread) :
    Only Looks (Thread.print_thread_info_long symbols thread).run := by
  cases thread with
  | none => exact only_run_pure _
  | some self =>
      refine only_run_bind (task_lines_looks self) fun _ => ?_
      refine only_run_bind (saved_state_lines_looks _ _ _) fun _ => ?_
      exact only_run_bind (saved_state_lines_looks _ _ _) fun _ => only_run_pure _

theorem print_task_info_short_looks (max_length_proc : ℕ) (task : Option Task) :
    Only Looks (Task.print_task_info_short max_length_proc task).run := by
  cases task with
  | none => exact only_run_pure _
  | some self => exact only_run_bind get_current_task_ptr_looks fun _ => only_run_pure _

theorem print_ipc_port_info_looks (port : Option IPCPort) :
    Only Looks (IPCPort.print_ipc_port_info port).run := by
  match port with
  | none => exact only_run_pure _
  | some self =>
      rw [IPCPort.print_ipc_port_info]
      cases self.ip_object_object with
      | none => exact only_run_pure _
      | some object => exact only_run_bind (object_lines_looks _ _) fun _ => only_run_pure _

theorem printer_run_looks (symbols : Symbols) (address : ℤ) (p : Printer) :
    Only Looks (p.run symbols address).run := by
  cases p with
  | thead_info_short =>
      exact only_run_bind (thread_init_looks _) fun _ => print_thead_info_short_looks _ _ _ _ _
  | thread_info_long =>
      exact only_run_bind (thread_init_looks _) fun _ => print_thread_info_long_looks _ _
  | task_info_short =>
      exact only_run_bind (task_init_looks _) fun _ => print_task_info_short_looks _ _
  | task_info_long => exact only_run_bind (task_init_looks _) fun _ => only_run_pure _
  | ipc_space_info => exact only_run_bind (ipcSpace_init_looks _) fun _ => only_run_pure _
  | ipc_entry_info => exact only_run_bind (ipcEntry_init_looks _) fun _ => only_run_pure _
  | ipc_object_info =>
      refine only_run_bind (ipcObject_init_looks _) fun o => ?_
      cases o with
      | none => exact only_run_pure _
      | some object => exact only_run_bind (object_lines_looks _ _) fun _ => only_run_pure _
  | ipc_port_info =>
      exact only_run_bind (ipcPort_init_looks _) fun _ => print_ipc_port_info_looks _
  | voucher_info => exact only_run_bind (threadVoucher_init_looks _) fun _ => only_run_pure _

/-! ## Commands look -/

theorem finish_looks (text : String) : Only Looks (finish text).run :=
  only_run_bind (write_looks text) fun _ => only_run_pure _

theorem finish_printer_looks (symbols : Symbols) (printer : Printer) (address : ℤ) :
    Only Looks (finish_printer symbols printer address).run :=
  only_run_bind (printer_run_looks symbols address printer) fun _ => finish_looks _

theorem in_kernel_looks {body : Script (Option Unit)} (hbody : Only Looks body.run) :
    Only Looks (in_kernel body).run := by
  have hin : Only Looks is_in_kernel_space.run :=
    only_run_catch (only_run_bind (get_8_byte_at_looks _) fun _ => only_run_pure _) fun _ =>
      only_run_pure _
  refine only_run_bind hin fun kernel => ?_
  split
  · exact reraise_looks hbody
  · exact finish_looks _

theorem get_max_length_proc_name_looks (fuel : ℕ) :
    Only Looks (get_max_length_proc_name fuel).run := by
  refine only_run_bind tasksIterator_init_looks fun _ => ?_
  refine only_run_forEach tasksIterator_next_looks (fun _ _ => ?_) fuel _ _
  refine only_run_bind (attr_looks _) fun task => ?_
  split
  · exact only_run_pure _
  · exact only_run_pure _

theorem get_max_length_name_looks (symbols : Symbols) (ptr : Thread → ℤ) (fuel : ℕ) :
    Only Looks (get_max_length_name symbols ptr fuel).run := by
  refine only_run_bind (start_threads_looks _ _) fun _ => ?_
  refine only_run_forEach threadsIterator_next_looks (fun _ _ => ?_) fuel _ _
  exact only_run_bind (attr_looks _) fun _ => only_run_pure _

theorem print_thread_looks (symbols : Symbols) (user_only : Bool)
    (max_length_proc max_length_cont max_length_pc counter : ℕ) (thread : Option Thread) :
    Only Looks (print_thread symbols user_only max_length_proc max_length_cont max_length_pc counter
      thread).run := by
  have hlisted : Only Looks (is_listed user_only thread).run := by
    unfold is_listed
    split
    · exact only_run_bind (attr_looks _) fun _ => only_run_pure _
    · exact only_run_pure _
  refine only_run_bind hlisted fun is_listed => ?_
  split
  · refine only_run_bind (print_thead_info_short_looks _ _ _ _ _) fun _ => ?_
    exact only_run_bind (write_looks _) fun _ => only_run_pure _
  · exact only_run_pure _

theorem print_all_threads_looks (symbols : Symbols) (user_only is_global : Bool) (task : Option ℤ)
    (fuel : ℕ) : Only Looks (print_all_threads symbols user_only is_global task fuel).run := by
  refine only_run_bind (get_max_length_proc_name_looks fuel) fun r => ?_
  rcases r with - | _
  · exact only_run_pure none
  refine only_run_bind (get_max_length_name_looks symbols _ fuel) fun r => ?_
  rcases r with - | _
  · exact only_run_pure none
  refine only_run_bind (get_max_length_name_looks symbols _ fuel) fun r => ?_
  rcases r with - | _
  · exact only_run_pure none
  refine only_run_bind (write_looks _) fun _ => only_run_bind (start_threads_looks _ _) fun _ => ?_
  refine only_run_bind (only_run_forEach threadsIterator_next_looks
    (fun _ _ => print_thread_looks _ _ _ _ _ _ _) fuel _ _) fun r => ?_
  rcases r with - | _
  · exact only_run_pure none
  exact finish_looks _

/-- The notice that is written in one of two cases. -/
theorem notice_looks {β : Type} (b : Bool) (text : String) {rest : Script β}
    (hrest : Only Looks rest.run) :
    Only Looks (do
      if b then write text
      rest : Script β).run := by
  cases b with
  | false => exact hrest
  | true => exact only_run_bind (write_looks text) fun _ => hrest

section Invoke

variable (symbols : Symbols) (string_to_argv : String → List String) (int0 : String → Option ℤ)

theorem xnu_threads_argv_looks (argv : List String) (fuel : ℕ) :
    Only Looks (xnu_threads_argv symbols int0 argv fuel).run := by
  unfold xnu_threads_argv
  split
  · exact print_all_threads_looks _ _ _ _ _
  · split
    · exact print_all_threads_looks _ _ _ _ _
    · split
      · exact only_run_bind get_current_task_ptr_looks fun _ => print_all_threads_looks _ _ _ _ _
      · refine only_run_catch ?_ fun _ => finish_looks _
        refine only_run_bind (int_looks int0 _) fun _ => ?_
        refine only_run_bind (is_valid_ptr_looks _) fun valid => ?_
        split
        · refine only_run_bind (is_task_exist_looks _ fuel) fun r => ?_
          rcases r with - | _
          · exact only_run_pure none
          exact notice_looks _ _ (print_all_threads_looks _ _ _ _ _)
        · exact only_run_pure _
  · exact finish_looks _

theorem print_all_tasks_looks (fuel : ℕ) : Only Looks (print_all_tasks fuel).run := by
  refine only_run_bind (get_max_length_proc_name_looks fuel) fun r => ?_
  rcases r with - | _
  · exact only_run_pure none
  refine only_run_bind tasksIterator_init_looks fun _ => ?_
  refine only_run_forEach tasksIterator_next_looks (fun _ _ => ?_) fuel _ _
  exact only_run_bind (print_task_info_short_looks _ _) fun _ => write_looks _

theorem thread_info_argv_looks (argv : List String) (fuel : ℕ) :
    Only Looks (thread_info_argv symbols int0 argv fuel).run := by
  unfold thread_info_argv
  split
  · refine only_run_bind (int_looks int0 _) fun _ => ?_
    refine only_run_bind (is_thread_exist_looks _ fuel) fun r => ?_
    match r with
    | none => exact only_run_pure none
    | some true => exact finish_printer_looks _ _ _
    | some false => exact finish_looks _
  · exact finish_looks _

theorem task_info_argv_looks (argv : List String) (fuel : ℕ) :
    Only Looks (task_info_argv symbols int0 argv fuel).run := by
  unfold task_info_argv
  split
  · refine only_run_bind (int_looks int0 _) fun _ => ?_
    refine only_run_bind (is_valid_ptr_looks _) fun _ => ?_
    split
    · refine only_run_bind (is_task_exist_looks _ fuel) fun r => ?_
      rcases r with - | _
      · exact only_run_pure none
      exact notice_looks _ _ (finish_printer_looks _ _ _)
    · exact finish_looks _
  · exact finish_looks _

theorem object_info_argv_looks (printer : Printer) (usage : String) (argv : List String) :
    Only Looks (object_info_argv symbols int0 printer usage argv).run := by
  unfold object_info_argv
  split
  · refine only_run_bind (int_looks int0 _) fun _ => ?_
    refine only_run_bind (is_valid_ptr_looks _) fun _ => ?_
    split
    · exact only_run_bind (int_looks int0 _) fun _ => finish_printer_looks _ _ _
    · exact finish_looks _
  · exact finish_looks _

theorem print_ipc_space_table_looks (address : ℤ) (fuel : ℕ) :
    Only Looks (print_ipc_space_table address fuel).run := by
  refine only_run_bind (write_looks _) fun _ => ?_
  refine only_run_bind (ipcSpace_init_looks _) fun _ => ?_
  refine only_run_bind (write_looks _) fun _ => only_run_bind (write_looks _) fun _ => ?_
  refine only_run_bind (entryIterator_init_looks _) fun _ => ?_
  refine only_run_forEach (fun it => entryIterator_next_looks _ it rfl) (fun _ _ => ?_) fuel _ _
  exact only_run_bind (write_looks _) fun _ => write_looks _

theorem entry_list_argv_looks (argv : List String) (fuel : ℕ) :
    Only Looks (entry_list_argv int0 argv fuel).run := by
  unfold entry_list_argv
  split
  · refine only_run_bind (int_looks int0 _) fun _ => ?_
    refine only_run_bind (is_valid_ptr_looks _) fun _ => ?_
    split
    · unfold print_selected
      split
      · refine only_run_bind (int_looks int0 _) fun _ => ?_
        refine only_run_bind (is_task_exist_looks _ fuel) fun r => ?_
        rcases r with - | _
        · exact only_run_pure none
        refine notice_looks _ _ ?_
        refine only_run_bind (task_init_looks _) fun _ => only_run_bind (attr_looks _) fun _ => ?_
        exact print_ipc_space_table_looks _ fuel
      · split
        · exact only_run_bind (int_looks int0 _) fun _ => print_ipc_space_table_looks _ fuel
        · exact finish_looks _
    · exact finish_looks _
  · exact finish_looks _

theorem print_zones_looks : Only Looks print_zones.run := by
  refine only_run_bind (get_4_byte_at_looks _) fun _ => only_run_bind (write_looks _) fun _ => ?_
  refine only_run_foldlM (fun _ _ => ?_) _ _
  refine only_run_bind (structZone_init_looks _) fun zone => ?_
  split
  · exact only_run_pure _
  · exact write_looks _

theorem invoke_looks (arg : String) (fuel : ℕ) (c : Command) :
    Only Looks (c.invoke symbols string_to_argv int0 arg fuel).run := by
  cases c with
  | xnu_threads => exact in_kernel_looks (xnu_threads_argv_looks symbols int0 _ fuel)
  | xnu_tasks => exact in_kernel_looks (print_all_tasks_looks fuel)
  | xnu_thread_info => exact in_kernel_looks (thread_info_argv_looks symbols int0 _ fuel)
  | xnu_task_info => exact in_kernel_looks (task_info_argv_looks symbols int0 _ fuel)
  | xnu_voucher_info => exact in_kernel_looks (object_info_argv_looks symbols int0 _ _ _)
  | xnu_ipc_port_info => exact in_kernel_looks (object_info_argv_looks symbols int0 _ _ _)
  | xnu_ipc_entry_list => exact in_kernel_looks (entry_list_argv_looks int0 _ fuel)
  | xnu_zones =>
      have hin : Only Looks is_in_kernel_space.run :=
        only_run_catch (only_run_bind (get_8_byte_at_looks _) fun _ => only_run_pure _) fun _ =>
          only_run_pure _
      refine only_run_bind (only_run_bind hin fun kernel => ?_) fun _ => only_run_pure _
      split
      · exact print_zones_looks
      · exact write_looks _

/-- **The commands only look**: whatever gdb answers and whatever it raises, all they ask for
is memory, registers and writing to the terminal. -/
theorem commands_look (arg : String) (fuel : ℕ) (c : Command) :
    ∀ tr op, Issues (c.invoke symbols string_to_argv int0 arg fuel).run tr op → Looks op :=
  (only_iff_issues _).mp (invoke_looks symbols string_to_argv int0 arg fuel c)

end Invoke

/-- The first thing that `xnu-zones` asks for. -/
theorem commands_look_zones : Looks (.x_g GLOBAL_TASKS_PTR) :=
  commands_look noSymbols (fun _ => []) (fun _ => none) "" 3 .xnu_zones [] _
    ((issues_call_nil _ _ _).mpr rfl)

/-! ## One state of the kernel -/

/-- A kernel that is stopped, let run and stopped again: what gdb sees of it after each
continue. -/
structure Running where
  memory : ℕ → KernelMemory

/-- A session with it in which nothing raises. -/
def Running.session (kernel : Running) : Session Progress
  | .x_g addr, s => some (.ok ((kernel.memory s.continues).x_g addr), s)
  | .x_w addr, s => some (.ok ((kernel.memory s.continues).x_w addr), s)
  | .x_s addr, s => some (.ok ((kernel.memory s.continues).x_s addr), s)
  | .print var, s => some (.ok ((kernel.memory s.continues).print var), s)
  | .continue, s => some (.ok (), { s with continues := s.continues + 1 })
  | .Breakpoint _, s => some (.ok 0, s)
  | .write text, s => some (.ok (), { s with output := s.output ++ [text] })
  | .set_enabled _ _, s => some (.ok (), s)
  | .set_silent _ _, s => some (.ok (), s)
  | .delete _, s => some (.ok (), s)
  | .enable_br, s => some (.ok (), s)
  | .disable_br, s => some (.ok (), s)

/-- The sessions of `xnu-switch` are those in which only the current thread changes. -/
theorem schedule_session (sch : Schedule) :
    sch.session = (Running.mk fun n => { sch.memory with
      print := fun var => if var = CURRENT_THREAD then sch.current n else sch.memory.print var
      }).session := by
  funext op s
  cases op <;> rfl

/-- A call that looks is answered as by the memory of the stopped kernel. -/
theorem session_looks (kernel : Running) {op : GdbOp} (hop : Looks op) (s : Progress) :
    kernel.session op s = ((kernel.memory s.continues).session op s.output).map fun x =>
      (x.1, ⟨s.continues, x.2⟩) := by
  cases op <;> first | rfl | exact hop.elim

/-- And so is a program of such calls. -/
theorem exec_looks (kernel : Running) {α : Type}
    {p : Prog GdbOp (fun op => Except Exn (GdbVal op)) α} (hp : Only Looks p) :
    ∀ s : Progress, exec kernel.session p s
      = (exec (kernel.memory s.continues).session p s.output).map fun x =>
          (x.1, ⟨s.continues, x.2⟩) := by
  induction p with
  | ret a => exact fun s => rfl
  | call op k ih =>
      intro s
      rw [exec_call, exec_call, session_looks kernel hp.1]
      cases (kernel.memory s.continues).session op s.output with
      | none => rfl
      | some x => exact ih x.1 (hp.2 x.1) ⟨s.continues, x.2⟩

/-- **The commands see one state of the kernel.** In a session in which the kernel could be
let run, and then anything in it could change, a command ends as it does on the memory of the
kernel stopped where it was started, and the kernel has not run. -/
theorem commands_frozen (symbols : Symbols) (string_to_argv : String → List String)
    (int0 : String → Option ℤ) (arg : String) (fuel : ℕ) (c : Command) (kernel : Running)
    (s s' : Progress) (r : Except Exn (Option Unit)) :
    Ends kernel.session (c.invoke symbols string_to_argv int0 arg fuel) s r s'
      ↔ s'.continues = s.continues
        ∧ Ends (kernel.memory s.continues).session
          (c.invoke symbols string_to_argv int0 arg fuel) s.output r s'.output := by
  have hexec := exec_looks kernel (invoke_looks symbols string_to_argv int0 arg fuel c) s
  unfold Ends
  rw [hexec]
  constructor
  · intro h
    obtain ⟨⟨r', out⟩, hrun, heq⟩ := Option.map_eq_some_iff.mp h
    obtain ⟨rfl, rfl⟩ := Prod.mk.inj heq
    exact ⟨rfl, hrun⟩
  · rintro ⟨hcontinues, hrun⟩
    rw [hrun, ← hcontinues]
    rfl

end XnuQemuTools.GdbCommands
