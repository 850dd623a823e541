/-
The printers of `gdb/xnu/xnu_types.py`.

A printer is given an object and makes a text of it, mostly one line for each field. An
object that is not initialized has no text (`none` is printed as the empty string), and a
printer that goes on to a nested object has to ask that object first whether it is
initialized. `Printer` is the table of them all, and `Printer.run` builds the object at an
address and prints it, as the commands of the debugger do.

Two things can go wrong. `print_thread_info_long` prints the name of the process of the
thread after asking the *task* a second time, where `print_thead_info_short` and
`print_task_info_long` ask the `bsd_info`. And the type of an IPC object, twelve bits, is
looked up in a table of forty-one names. `returns_iff_fine` says that this is all.
-/
import XnuQemuTools.KernelObjects
import Mathlib.Data.List.Infix

set_option autoImplicit false

namespace XnuQemuTools.KernelPrinters

open Calls Calls.Prog Exceptions Gdb KernelLists KernelObjects

/-! ## Texts -/

def NULL_PTR_STR : String := "0x0000000000000000"

/-- A number in a format `016x`: the sign is a part of the width. -/
def format_016x (n : ℤ) : String :=
  let sign := if n < 0 then "-" else ""
  let digits := String.ofList (Nat.toDigits 16 n.natAbs)
  sign ++ String.join (List.replicate (16 - sign.length - digits.length) "0") ++ digits

/-- `print_ptr_as_string`. -/
def print_ptr_as_string (addr : ℤ) : String :=
  if addr = 0 then NULL_PTR_STR else "0x" ++ format_016x addr

def spaces (n : ℕ) : String := String.join (List.replicate n " ")

/-- A text in a format `<width`. -/
def ljust (text : String) (width : ℕ) : String := text ++ spaces (width - text.length)

/-- A text in a format `^width`. -/
def center (text : String) (width : ℕ) : String :=
  let pad := width - text.length
  spaces (pad / 2) ++ text ++ spaces (pad - pad / 2)

/-- A line of a printer. -/
def line (field text : String) : String := field ++ ": " ++ text ++ "\n"

/-- `l[i]` of a list. -/
def item {α : Type} (l : List α) (i : ℤ) : Script α :=
  let j := if i < 0 then i + l.length else i
  if j < 0 then throw .IndexError
  else
    match l[j.toNat]? with
    | some a => return a
    | none => throw .IndexError

/-! ## `sys_info.py` -/

/-- The names that have been loaded. -/
structure Symbols where
  sym_dict : String → Option String
  found_fuct_name_dict : String → Option String

/-- The name that was found for a function, or its address. -/
def Symbols.found (self : Symbols) (addrr : String) : String :=
  (self.found_fuct_name_dict addrr).getD addrr

/-- `Symbols.get_symbol_internal`; a name with `FUN_` in it is none. -/
def Symbols.get_symbol_internal (self : Symbols) (addrr : String) : String :=
  match self.sym_dict addrr with
  | some name => if "FUN_".toList <:+: name.toList then self.found addrr else name
  | none => self.found addrr

/-- `get_current_task_ptr`. -/
def get_current_task_ptr : Script ℤ :=
  tryCatch (do
    let address ← print_val CURRENT_THREAD
    get_8_byte_at (address + ThreadOffsets.TASK)) fun _ =>
      throw (.GdbError "Error occured, maybe in user land?")

/-- `is_user_thread`. -/
def is_user_thread (thread : Thread) : Bool := thread.ucontext_data != NULL_PTR

/-! ## `constants.py` -/

def IO_BITS_KOTYPE : ℤ := 0x00000fff

def IO_BITS_TYPES : List String :=
  ["IKOT_NONE", "IKOT_THREAD", "IKOT_TASK", "IKOT_HOST", "IKOT_HOST_PRIV", "IKOT_PROCESSOR",
    "IKOT_PSET", "IKOT_PSET_NAME", "IKOT_TIMER", "IKOT_PAGING_REQUEST", "IKOT_MIG",
    "IKOT_MEMORY_OBJECT", "IKOT_XMM_PAGER", "IKOT_XMM_KERNEL", "IKOT_XMM_REPLY", "IKOT_UND_REPLY",
    "IKOT_HOST_NOTIFY", "IKOT_HOST_SECURITY", "IKOT_LEDGER", "IKOT_MASTER_DEVICE",
    "IKOT_TASK_NAME", "IKOT_SUBSYSTEM", "IKOT_IO_DONE_QUEUE", "IKOT_SEMAPHORE", "IKOT_LOCK_SET",
    "IKOT_CLOCK", "IKOT_CLOCK_CTRL", "IKOT_IOKIT_IDENT", "IKOT_NAMED_ENTRY",
    "IKOT_IOKIT_CONNECT", "IKOT_IOKIT_OBJECT", "IKOT_UPL", "IKOT_MEM_OBJ_CONTROL",
    "IKOT_AU_SESSIONPORT", "IKOT_FILEPORT", "IKOT_LABELH", "IKOT_TASK_RESUME", "IKOT_VOUCHER",
    "IKOT_VOUCHER_ATTR_CONTROL", "IKOT_WORK_INTERVAL", "IKOT_UX_HANDLER"]

/-! ## Threads and tasks -/

/-- A column with a name, or with `N/A` where there is none. -/
def symbolColumn (symbols : Symbols) (ptr : ℤ) (width : ℕ) : String :=
  if ptr = NULL_PTR then " " ++ center "N/A" width ++ " |"
  else " " ++ center (symbols.get_symbol_internal (hex ptr)) width ++ " |"

/-- The process columns of a thread. -/
def Thread.processColumns (self : Thread) (max_length_proc : ℕ) : String :=
  match self.task_object with
  | some task =>
      match task.bsdinfo_object with
      | some bsdinfo =>
          " [" ++ toString bsdinfo.bsd_pid ++ "] |"
            ++ " " ++ ljust bsdinfo.bsd_name max_length_proc ++ " |"
      | none => " [X] |" ++ " " ++ ljust "N/A" max_length_proc ++ " |"
  | none => " [X] |" ++ " " ++ ljust "N/A" max_length_proc ++ " |"

/-- `Thread.print_thead_info_short`. -/
def Thread.print_thead_info_short (symbols : Symbols)
    (max_length_proc max_length_cont max_length_pc : ℕ) : Option Thread → Script String
  | none => return ""
  | some self => do
      let is_user := self.ucontext_data != NULL_PTR
      let current ← get_current_thread_ptr
      return (if self.address = current then "*" else " ")
        ++ (if is_user then "U |" else "K |")
        ++ Thread.processColumns self max_length_proc
        ++ " " ++ toString self.tid ++ " | " ++ hex self.address ++ " |"
        ++ symbolColumn symbols self.continuation max_length_cont
        ++ symbolColumn symbols self.next_pc max_length_pc

/-- `ThreadSavedState.print_saved_state`. -/
def ThreadSavedState.print_saved_state (symbols : Symbols) (previous_struct : String) :
    Option ThreadSavedState → String
  | none => ""
  | some self =>
      let field := fun (name text : String) => line (previous_struct ++ "->" ++ name) text
      String.join
          (self.x.zipIdx.map fun (v, i) => field ("x" ++ toString i) (print_ptr_as_string v))
        ++ field "fp" (print_ptr_as_string self.fp)
        ++ field "lr" (print_ptr_as_string self.lr)
        ++ field "sp" (print_ptr_as_string self.sp)
        ++ field "pc" (symbols.get_symbol_internal (print_ptr_as_string self.pc))
        ++ field "cpsr" (hex self.cpsr)
        ++ field "reserved" (hex self.reserved)
        ++ field "far" (print_ptr_as_string self.far)
        ++ field "esr" (hex self.esr)
        ++ field "exception" (hex self.exception)

/-- The registers that were saved at `ptr`, if it is not null. -/
def saved_state_lines (symbols : Symbols) (ptr : ℤ) (previous_struct : String) :
    Script String := do
  if ptr ≠ 0 then
    let saved_state ← ThreadSavedState.init ptr
    return ThreadSavedState.print_saved_state symbols previous_struct saved_state
  else return ""

/-- What `print_thread_info_long` says about the task; the task is asked twice whether it is
initialized, its `bsd_info` is not. -/
def Thread.task_lines (self : Thread) : Script String := do
  match self.task_object with
  | some task =>
      let bsdinfo ← attr task.bsdinfo_object
      return line "thread->task->bsd_info" (print_ptr_as_string task.bsd_info_ptr)
        ++ line "thread->task->bsd_info->p_name" bsdinfo.bsd_name
        ++ line "thread->task->bsd_info->p_pid" (print_ptr_as_string bsdinfo.bsd_pid)
  | none => return ""

/-- `Thread.print_thread_info_long`. -/
def Thread.print_thread_info_long (symbols : Symbols) : Option Thread → Script String
  | none => return ""
  | some self => do
      let task_lines ← Thread.task_lines self
      let user_lines ← saved_state_lines symbols self.ucontext_data "thread->machine.contextData"
      let kernel_lines ← saved_state_lines symbols self.kernel_stack_ptr "thread->machine.kstackptr"
      return "\n"
        ++ (if is_user_thread self then "This is a user space thread\n\n"
          else "This is a kernel thread\n\n")
        ++ (if self.next_pc ≠ NULL_PTR then
          "Next pc: " ++ symbols.get_symbol_internal (hex self.next_pc) ++ "\n\n" else "")
        ++ line "thread->task" (print_ptr_as_string self.task_ptr)
        ++ task_lines
        ++ line "thread->thread_id" (toString self.tid)
        ++ line "thread->continuation" (print_ptr_as_string self.continuation)
        ++ line "thread->machine.contextData" (print_ptr_as_string self.ucontext_data)
        ++ user_lines
        ++ line "thread->machine.kstackptr" (print_ptr_as_string self.kernel_stack_ptr)
        ++ kernel_lines
        ++ line "thread->ith_voucher" (print_ptr_as_string self.voucher_ptr)

/-- `Task.print_task_info_short`. -/
def Task.print_task_info_short (max_length_proc : ℕ) : Option Task → Script String
  | none => return ""
  | some self => do
      let current ← get_current_task_ptr
      return (if self.address = current then "*" else " ")
        ++ (match self.bsdinfo_object with
          | some bsdinfo =>
              " [" ++ center (toString bsdinfo.bsd_pid) 2 ++ "] | "
                ++ ljust bsdinfo.bsd_name max_length_proc ++ " |"
          | none => " [" ++ center "X" 2 ++ "] | " ++ ljust "N/A" max_length_proc ++ " |")
        ++ "  " ++ hex self.address ++ " "

/-- `Task.print_task_info_long`. -/
def Task.print_task_info_long : Option Task → String
  | none => ""
  | some self =>
      "\n"
        ++ line "task->bsd_info" (print_ptr_as_string self.bsd_info_ptr)
        ++ (match self.bsdinfo_object with
          | some bsdinfo =>
              line "task->bsd_info->p_name" bsdinfo.bsd_name
                ++ line "task->bsd_info->p_pid" (hex bsdinfo.bsd_pid)
          | none => "")
        ++ line "task->itk_self" (print_ptr_as_string self.itk_self)
        ++ line "task->ipc_space" (print_ptr_as_string self.ipc_space)
        ++ (match self.ipc_space_object with
          | some ipc_space =>
              line "task->ipc_space->is_table" (print_ptr_as_string ipc_space.is_table)
          | none => "")

/-! ## IPC -/

/-- `IPCSpace.print_ipc_space_info`. -/
def IPCSpace.print_ipc_space_info : Option IPCSpace → String
  | none => ""
  | some self =>
      "\n"
        ++ line "ipc_space->is_table" (hex self.is_table)
        ++ line "ipc_space->is_table_size" (toString self.is_table_size ++ " - (first reserved)")
        ++ line "ipc_space->is_table_free" (toString self.is_table_free)

/-- `IPCEntry.print_ipc_entry_info`. -/
def IPCEntry.print_ipc_entry_info : Option IPCEntry → String
  | none => ""
  | some self =>
      "\n"
        ++ line "ipc_entry->ie_object" (print_ptr_as_string self.ie_object)
        ++ line "ipc_entry->ie_bits" (hex self.ie_bits)
        ++ line "ipc_entry->ie_index" (hex self.ie_index)
        ++ line "ipc_entry->ie_next" (hex self.index)

/-- The lines of an object that is initialized, as part of `previous_struct`. -/
def IPCObject.lines (self : IPCObject) (previous_struct : String) : Script String := do
  let io_bits ← item IO_BITS_TYPES (Int.land self.io_bits IO_BITS_KOTYPE)
  return line (previous_struct ++ "io_bits") io_bits
    ++ line (previous_struct ++ "io_references") (hex self.io_references)
    ++ line (previous_struct ++ "io_lock_data[0]") (hex self.io_lock_data_1)
    ++ line (previous_struct ++ "io_lock_data[1]") (hex self.io_lock_data_2)

/-- `IPCObject.print_ipc_object_info`. -/
def IPCObject.print_ipc_object_info : Option IPCObject → Script String
  | none => return ""
  | some self => do
      let lines ← IPCObject.lines self "ip_object->"
      return "\n" ++ lines

/-- `IPCPort.print_ipc_port_info`. -/
def IPCPort.print_ipc_port_info : Option IPCPort → Script String
  | none => return ""
  | some self => do
      let object_lines ← match self.ip_object_object with
        | some object => IPCObject.lines object "ipc_port->ip_object."
        | none => return ""
      return "\n"
        ++ object_lines
        ++ line "ipc_port->ip_messages" (toString self.ip_messages)
        ++ line "ipc_port->data" (print_ptr_as_string self.data)
        ++ line "ipc_port->kdata" (print_ptr_as_string self.kdata)
        ++ line "ipc_port->kdata2" (print_ptr_as_string self.kdata2)
        ++ line "ipc_port->ip_context" (toString self.ip_context)
        ++ line "ipc_port->ip_sprequests" (toString self.ip_sprequests)
        ++ line "ipc_port->ip_spimportant" (toString self.ip_spimportant)
        ++ line "ipc_port->ip_impdonation" (toString self.ip_impdonation)
        ++ line "ipc_port->ip_tempowner" (toString self.ip_tempowner)
        ++ line "ipc_port->ip_guarded" (toString self.ip_guarded)
        ++ line "ipc_port->ip_strict_guard" (toString self.ip_strict_guard)
        ++ line "ipc_port->ip_specialreply" (toString self.ip_specialreply)
        ++ line "ipc_port->ip_sync_link_state" (toString self.ip_sync_link_state)
        ++ line "ipc_port->ip_impcount" (toString self.ip_impcount)
        ++ line "ipc_port->ip_mscount" (hex self.ip_mscount)
        ++ line "ipc_port->ip_srights" (hex self.ip_srights)
        ++ line "ipc_port->ip_sorights" (hex self.ip_sorights)

/-- `ThreadVoucher.print_voucher_info`. -/
def ThreadVoucher.print_voucher_info : Option ThreadVoucher → String
  | none => ""
  | some self =>
      "\n"
        ++ line "ipc_voucher->iv_hash" (hex self.iv_hash)
        ++ line "ipc_voucher->iv_sum" (hex self.iv_sum)
        ++ line "ipc_voucher->iv_refs" (hex self.iv_refs)
        ++ line "ipc_voucher->iv_table_size" (hex self.iv_table_size)
        ++ line "ipc_voucher->iv_inline_table" (hex self.iv_inline_table)
        ++ line "ipc_voucher->iv_table" (hex self.iv_table)
        ++ line "ipc_voucher->iv_port" (hex self.iv_port)
        ++ line "ipc_voucher->iv_hash_link" (hex self.iv_hash_link)

/-! ## All printers -/

/-- A printer, with the widths it is given. -/
inductive Printer where
  | thead_info_short (max_length_proc max_length_cont max_length_pc : ℕ)
  | thread_info_long
  | task_info_short (max_length_proc : ℕ)
  | task_info_long
  | ipc_space_info
  | ipc_entry_info
  | ipc_object_info
  | ipc_port_info
  | voucher_info

/-- The object at an address, printed. -/
def Printer.run (symbols : Symbols) (address : ℤ) : Printer → Script String
  | thead_info_short max_length_proc max_length_cont max_length_pc => do
      let thread ← Thread.init address
      Thread.print_thead_info_short symbols max_length_proc max_length_cont max_length_pc thread
  | thread_info_long => do
      let thread ← Thread.init address
      Thread.print_thread_info_long symbols thread
  | task_info_short max_length_proc => do
      let task ← Task.init address
      Task.print_task_info_short max_length_proc task
  | task_info_long => do
      let task ← Task.init address
      return Task.print_task_info_long task
  | ipc_space_info => do
      let ipc_space ← IPCSpace.init address
      return IPCSpace.print_ipc_space_info ipc_space
  | ipc_entry_info => do
      let ipc_entry ← IPCEntry.init address
      return IPCEntry.print_ipc_entry_info ipc_entry
  | ipc_object_info => do
      let ipc_object ← IPCObject.init address
      IPCObject.print_ipc_object_info ipc_object
  | ipc_port_info => do
      let ipc_port ← IPCPort.init address
      IPCPort.print_ipc_port_info ipc_port
  | voucher_info => do
      let voucher ← ThreadVoucher.init address
      return ThreadVoucher.print_voucher_info voucher

/-- The type of the object at an address has a name. -/
def KindNamed (w : ℤ → ℤ) (address : ℤ) : Prop :=
  Int.land (w address) IO_BITS_KOTYPE < IO_BITS_TYPES.length

/-- The thread at an address has no task, or one with a `bsd_info`. -/
def TaskNamed (m : ℤ → ℤ) (address : ℤ) : Prop :=
  m (address + ThreadOffsets.TASK) = NULL_PTR
    ∨ m (m (address + ThreadOffsets.TASK) + TaskOffsets.BSD_INFO) ≠ NULL_PTR

/-- What a printer needs of the memory. -/
def Printer.Fine (m w : ℤ → ℤ) (address : ℤ) : Printer → Prop
  | thread_info_long => TaskNamed m address
  | ipc_object_info | ipc_port_info => KindNamed w address
  | _ => True

/-! ## Looking up -/

theorem kotype_nonneg (n : ℤ) : 0 ≤ Int.land n IO_BITS_KOTYPE := by
  cases n with
  | ofNat n => exact Int.natCast_nonneg _
  | negSucc n => exact Int.natCast_nonneg _

section Printers

variable {σ : Type} {h : Session σ} {I : σ → Prop}

theorem item_yields {α : Type} {l : List α} {i : ℤ} (hi : 0 ≤ i) (hlt : i < l.length) :
    Yields h I (item l i) fun _ => True := by
  have hin : i.toNat < l.length := by omega
  rw [item, if_neg (Int.not_lt.mpr hi), if_neg (Int.not_lt.mpr hi), List.getElem?_eq_getElem hin]
  exact yields_pure trivial

/-- Python raises `IndexError` at the end of a list and beyond. -/
theorem item_raises {α : Type} {l : List α} {i : ℤ} (hi : 0 ≤ i) (hle : l.length ≤ i) :
    Raises h I (item l i) := by
  have hout : l.length ≤ i.toNat := by omega
  rw [item, if_neg (Int.not_lt.mpr hi), if_neg (Int.not_lt.mpr hi), List.getElem?_eq_none hout]
  exact raises_throw

theorem lines_yields {object : IPCObject} {w : ℤ → ℤ} {address : ℤ}
    (hbits : object.io_bits = w address) (hkind : KindNamed w address) (previous_struct : String) :
    Yields h I (IPCObject.lines object previous_struct) fun _ => True := by
  have hitem : Yields h I (item IO_BITS_TYPES (Int.land object.io_bits IO_BITS_KOTYPE))
      fun _ => True :=
    item_yields (kotype_nonneg _) (hbits ▸ hkind)
  exact hitem.bind fun _ _ => yields_pure trivial

theorem lines_raises {object : IPCObject} {w : ℤ → ℤ} {address : ℤ}
    (hbits : object.io_bits = w address) (hkind : ¬ KindNamed w address)
    (previous_struct : String) : Raises h I (IPCObject.lines object previous_struct) := by
  have hitem : Raises h I (item IO_BITS_TYPES (Int.land object.io_bits IO_BITS_KOTYPE)) :=
    item_raises (kotype_nonneg _) (hbits ▸ Int.not_lt.mp hkind)
  exact hitem.bind

theorem task_lines_yields {m : ℤ → ℤ} {address : ℤ} {thread : Thread}
    (hat : TaskAt m (m (address + ThreadOffsets.TASK)) thread.task_object)
    (hnamed : TaskNamed m address) : Yields h I (Thread.task_lines thread) fun _ => True := by
  obtain ⟨htask, hbsd⟩ := hat
  unfold Thread.task_lines
  cases ht : thread.task_object with
  | none => exact yields_pure trivial
  | some task =>
      rw [ht] at htask
      have hnull : m (m (address + ThreadOffsets.TASK) + TaskOffsets.BSD_INFO) ≠ NULL_PTR :=
        hnamed.resolve_left (htask.mp rfl)
      obtain ⟨bsdinfo, hinfo⟩ := Option.isSome_iff_exists.mp ((hbsd task ht).mpr hnull)
      simp only [hinfo]
      exact (attr_yields bsdinfo).bind fun _ _ => yields_pure trivial

/-- A task without `bsd_info` is asked for the name of its process. -/
theorem task_lines_raises {m : ℤ → ℤ} {address : ℤ} {thread : Thread}
    (hat : TaskAt m (m (address + ThreadOffsets.TASK)) thread.task_object)
    (hnamed : ¬ TaskNamed m address) : Raises h I (Thread.task_lines thread) := by
  obtain ⟨htask, hbsd⟩ := hat
  obtain ⟨hsome, hnull⟩ := not_or.mp hnamed
  obtain ⟨task, ht⟩ := Option.isSome_iff_exists.mp (htask.mpr hsome)
  have hinfo : task.bsdinfo_object = none :=
    Option.not_isSome_iff_eq_none.mp fun h => (hbsd task ht).mp h (not_not.mp hnull)
  unfold Thread.task_lines
  simp only [ht, hinfo]
  exact raises_throw.bind

/-! ## Printing -/

section Yields

variable {m w : ℤ → ℤ} (hr : ReadsBoth h I m w)

include hr

theorem saved_state_lines_yields (symbols : Symbols) (ptr : ℤ) (previous_struct : String) :
    Yields h I (saved_state_lines symbols ptr previous_struct) fun _ => True := by
  unfold saved_state_lines
  split
  · rename_i hptr
    exact (threadSavedState_init_yields hr.toReads hptr).bind fun _ _ => yields_pure trivial
  · exact yields_pure trivial

theorem get_current_task_ptr_yields : Yields h I get_current_task_ptr fun _ => True := by
  have hread : Yields h I (do
      let address ← print_val CURRENT_THREAD
      get_8_byte_at (address + ThreadOffsets.TASK)) fun _ => True :=
    (print_val_yields hr.toReads _).bind fun _ _ =>
      (get_8_byte_at_yields hr.toReads _).mono fun _ _ => trivial
  exact hread.catch

theorem print_thead_info_short_yields (symbols : Symbols)
    (max_length_proc max_length_cont max_length_pc : ℕ) (thread : Option Thread) :
    Yields h I (Thread.print_thead_info_short symbols max_length_proc max_length_cont max_length_pc
      thread) fun _ => True := by
  cases thread with
  | none => exact yields_pure trivial
  | some thread =>
      exact (get_current_thread_ptr_yields hr.toReads).bind fun _ _ => yields_pure trivial

theorem print_thread_info_long_yields (symbols : Symbols) {thread : Thread}
    (htask : Yields h I (Thread.task_lines thread) fun _ => True) :
    Yields h I (Thread.print_thread_info_long symbols (some thread)) fun _ => True := by
  refine htask.bind fun _ _ => ?_
  refine (saved_state_lines_yields hr _ _ _).bind fun _ _ => ?_
  refine (saved_state_lines_yields hr _ _ _).bind fun _ _ => ?_
  exact yields_pure trivial

theorem print_task_info_short_yields (max_length_proc : ℕ) (task : Option Task) :
    Yields h I (Task.print_task_info_short max_length_proc task) fun _ => True := by
  cases task with
  | none => exact yields_pure trivial
  | some task => exact (get_current_task_ptr_yields hr).bind fun _ _ => yields_pure trivial

/-- **Printing returns a text** where the memory is fine. -/
theorem run_yields (symbols : Symbols) {address : ℤ} (ha : address ≠ NULL_PTR) {p : Printer}
    (hfine : p.Fine m w address) : Yields h I (p.run symbols address) fun _ => True := by
  cases p with
  | thead_info_short max_length_proc max_length_cont max_length_pc =>
      exact (thread_init_yields hr.toReads ha).bind fun thread _ =>
        print_thead_info_short_yields hr symbols _ _ _ thread
  | thread_info_long =>
      refine (thread_init_yields hr.toReads ha).bind fun t ht => ?_
      obtain ⟨thread, rfl, -, -, -, hat⟩ := ht
      exact print_thread_info_long_yields hr symbols (task_lines_yields hat hfine)
  | task_info_short max_length_proc =>
      exact (task_init_yields hr.toReads ha).bind fun task _ =>
        print_task_info_short_yields hr max_length_proc task
  | task_info_long =>
      exact (task_init_yields hr.toReads ha).bind fun _ _ => yields_pure trivial
  | ipc_space_info =>
      exact (ipcSpace_init_yields hr.toReads address).bind fun _ _ => yields_pure trivial
  | ipc_entry_info => exact (ipcEntry_init_yields hr ha).bind fun _ _ => yields_pure trivial
  | ipc_object_info =>
      refine (ipcObject_init_yields hr ha).bind fun o ho => ?_
      obtain ⟨object, rfl, hbits⟩ := ho
      exact (lines_yields hbits hfine _).bind fun _ _ => yields_pure trivial
  | ipc_port_info =>
      refine (ipcPort_init_yields hr ha).bind fun p hp => ?_
      obtain ⟨port, object, rfl, hobject, hbits, -⟩ := hp
      rw [IPCPort.print_ipc_port_info, hobject]
      exact (lines_yields hbits hfine _).bind fun _ _ => yields_pure trivial
  | voucher_info => exact (threadVoucher_init_yields hr ha).bind fun _ _ => yields_pure trivial

/-- **Printing raises** where it is not. -/
theorem run_raises (symbols : Symbols) {address : ℤ} (ha : address ≠ NULL_PTR) {p : Printer}
    (hfine : ¬ p.Fine m w address) : Raises h I (p.run symbols address) := by
  cases p with
  | thread_info_long =>
      refine (thread_init_yields hr.toReads ha).bind_raises fun t ht => ?_
      obtain ⟨thread, rfl, -, -, -, hat⟩ := ht
      exact (task_lines_raises hat hfine).bind
  | ipc_object_info =>
      refine (ipcObject_init_yields hr ha).bind_raises fun o ho => ?_
      obtain ⟨object, rfl, hbits⟩ := ho
      exact (lines_raises hbits hfine _).bind
  | ipc_port_info =>
      refine (ipcPort_init_yields hr ha).bind_raises fun p hp => ?_
      obtain ⟨port, object, rfl, hobject, hbits, -⟩ := hp
      rw [IPCPort.print_ipc_port_info, hobject]
      exact (lines_raises hbits hfine _).bind
  -- the other printers need nothing
  | thead_info_short | task_info_short | task_info_long | ipc_space_info | ipc_entry_info
    | voucher_info => exact absurd trivial hfine

/-- **A printer returns a text exactly where the memory is fine**: always, but for a thread
whose task has no `bsd_info`, printed at length, and for an object or a port of a type that
is not in the table. -/
theorem returns_iff_fine (symbols : Symbols) {address : ℤ} (ha : address ≠ NULL_PTR) (p : Printer)
    {s : σ} (hs : I s) :
    (∃ text s', Ends h (p.run symbols address) s (.ok text) s') ↔ p.Fine m w address := by
  constructor
  · rintro ⟨text, s', hok⟩
    by_contra hfine
    exact (run_raises hr symbols ha hfine).not_ok hs hok
  · intro hfine
    obtain ⟨text, s', hok, -, -⟩ := run_yields hr symbols ha hfine s hs
    exact ⟨text, s', hok⟩

end Yields

end Printers

/-! ## Any kernel memory -/

theorem kernelMemory_readsBoth (m : KernelMemory) :
    ReadsBoth m.session (fun _ => True) m.x_g m.x_w where
  toReads := m.reads
  x_w_at _ out _ := ⟨out, rfl, trivial⟩

/-- No names have been loaded. -/
def noSymbols : Symbols := ⟨fun _ => none, fun _ => none⟩

/-- A thread at 0x1000 with a task at 0x2000 that has no `bsd_info`; every object is of the
type 41, the first that has no name. -/
def noNames : KernelMemory where
  x_g addr := if addr = 0x1368 then 0x2000 else 0
  x_w _ := 41
  x_s _ := ""
  print _ := 0

/-- Of the thread `print_thead_info_short` makes a text, and `print_thread_info_long` does
not; of the port there is none. -/
theorem returns_iff_fine_noNames :
    (∃ text out, Ends noNames.session (Printer.run noSymbols 0x1000 (.thead_info_short 8 8 8)) []
      (.ok text) out)
    ∧ (¬ ∃ text out, Ends noNames.session (Printer.run noSymbols 0x1000 .thread_info_long) []
      (.ok text) out)
    ∧ ¬ ∃ text out, Ends noNames.session (Printer.run noSymbols 0x1000 .ipc_port_info) []
      (.ok text) out := by
  have hr := kernelMemory_readsBoth noNames
  have ha : (0x1000 : ℤ) ≠ NULL_PTR := by decide
  refine ⟨?_, ?_, ?_⟩
  · exact (returns_iff_fine hr noSymbols ha (.thead_info_short 8 8 8) trivial).mpr trivial
  · rw [returns_iff_fine hr noSymbols ha .thread_info_long trivial, Printer.Fine, TaskNamed]
    decide
  · rw [returns_iff_fine hr noSymbols ha .ipc_port_info trivial, Printer.Fine, KindNamed]
    decide

/-- The name of the process of a thread is read of a `bsd_info` that is not there, and the
name of a type beyond the end of the table. -/
theorem noNames_raises :
    (Ends noNames.session (Printer.run noSymbols 0x1000 .thread_info_long) []
        (.error .AttributeError) []
      ∧ ¬ ∃ text out, Ends noNames.session (Printer.run noSymbols 0x1000 .thread_info_long) []
        (.ok text) out)
    ∧ (Ends noNames.session (Printer.run noSymbols 0x1000 .ipc_object_info) []
        (.error .IndexError) []
      ∧ ¬ ∃ text out, Ends noNames.session (Printer.run noSymbols 0x1000 .ipc_object_info) []
        (.ok text) out) := by
  have hthread : Ends noNames.session (Printer.run noSymbols 0x1000 .thread_info_long) []
      (.error .AttributeError) [] := by rfl
  have hobject : Ends noNames.session (Printer.run noSymbols 0x1000 .ipc_object_info) []
      (.error .IndexError) [] := by rfl
  refine ⟨⟨hthread, ?_⟩, hobject, ?_⟩
  · rintro ⟨text, out, hok⟩
    cases (hthread.unique hok).1
  · rintro ⟨text, out, hok⟩
    cases (hobject.unique hok).1

end XnuQemuTools.KernelPrinters
