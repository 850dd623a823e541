/-
What the scripts read of a kernel whose memory can be read in part.

The memory of a stopped kernel need not all be there for gdb. In `PartialMemory` a read is
answered with a value or not at all, and then gdb raises. `Fetches m p v` says that `p` returns
what `v` holds, and raises gdb's error if it holds nothing. It goes along `>>=` as `Option`
does, so what a constructor of `KernelLists` and `KernelObjects` fetches is written down in
the `Option` monad (`IPCSpace.at`, `Task.at`, …). There is an `Option` within: outside it is
whether all fields can be read, and inside whether the object is initialized.
-/
import XnuQemuTools.KernelImage

set_option autoImplicit false

namespace XnuQemuTools.KernelReads

open Calls Calls.Prog Exceptions Gdb KernelLists KernelObjects Output
open KernelImage (attr_writes listOf_writes listOf_raises)

/-! ## Memory that can be read in part -/

/-- What the reads of a stopped kernel answer, where they succeed. -/
structure PartialMemory where
  x_g : ℤ → Option ℤ
  x_w : ℤ → Option ℤ
  x_s : ℤ → Option String

/-- How gdb answers a read. -/
def answer {α : Type} (addr : ℤ) : Option α → Except Exn α
  | some a => .ok a
  | none => .error (.error ("Cannot access memory at address " ++ hex addr))

/-- A session on it; the state is what has been written to the terminal. -/
def PartialMemory.session (m : PartialMemory) : Session (List String)
  | .x_g addr, out => some (answer addr (m.x_g addr), out)
  | .x_w addr, out => some (answer addr (m.x_w addr), out)
  | .x_s addr, out => some (answer addr (m.x_s addr), out)
  | .write text, out => some (.ok (), out ++ [text])
  | _, _ => none

variable {m : PartialMemory}

/-- `p` returns what `v` holds, or raises gdb's error if it holds nothing. -/
def Fetches {α : Type} (m : PartialMemory) (p : Script α) : Option α → Prop
  | some a => Writes m.session p (.ok a) []
  | none => ∃ message, Writes m.session p (.error (.GdbError message)) []

theorem Fetches.bind {α β : Type} {p : Script α} {f : α → Script β} {v : Option α}
    {g : α → Option β} (hp : Fetches m p v) (hf : ∀ a, Fetches m (f a) (g a)) :
    Fetches m (p >>= f) (v >>= g) := by
  cases v with
  | none =>
      obtain ⟨message, hraise⟩ := hp
      exact ⟨message, hraise.bind_error⟩
  | some a =>
      have hrest := hf a
      rw [Option.bind_eq_bind, Option.bind_some]
      cases hg : g a with
      | none =>
          rw [hg] at hrest
          obtain ⟨message, hraise⟩ := hrest
          exact ⟨message, Writes.bind_silent hp hraise⟩
      | some b =>
          rw [hg] at hrest
          exact Writes.bind_silent hp hrest

theorem fetches_pure {α : Type} (a : α) : Fetches m (pure a) (some a) := writes_pure a

/-- What is there is returned. -/
theorem Fetches.writes {α : Type} {p : Script α} {v : Option α} (hp : Fetches m p v) {a : α}
    (hv : v = some a) : Writes m.session p (.ok a) [] := by
  rw [hv] at hp
  exact hp

/-- And what is not raises. -/
theorem Fetches.raises {α : Type} {p : Script α} {v : Option α} (hp : Fetches m p v)
    (hv : v = none) : ∃ message, Writes m.session p (.error (.GdbError message)) [] := by
  rw [hv] at hp
  exact hp

/-- A command that reads, with what it raises put into gdb's error. -/
theorem request_fetches {op : GdbOp} {addr : ℤ} {v : Option (GdbVal op)}
    (hop : ∀ out, m.session op out = some (answer addr v, out)) :
    Fetches m (reraise (request op)) v := by
  have hrequest : Writes m.session (request op) (answer addr v) [] := by
    refine writes_request fun out => ?_
    rw [hop, List.append_nil]
  cases v with
  | none => exact ⟨_, hrequest.catch_error (writes_throw _)⟩
  | some a => exact hrequest.catch_ok

theorem get_8_byte_at_fetches (addr : ℤ) : Fetches m (get_8_byte_at addr) (m.x_g addr) :=
  request_fetches fun _ => rfl

theorem get_4_byte_at_fetches (addr : ℤ) : Fetches m (get_4_byte_at addr) (m.x_w addr) :=
  request_fetches fun _ => rfl

theorem get_string_at_fetches (addr : ℤ) : Fetches m (get_string_at addr) (m.x_s addr) :=
  request_fetches fun _ => rfl

theorem write_writes (text : String) : Writes m.session (write text) (.ok ()) [text] :=
  writes_request fun _ => rfl

/-- The kernel is there if the head of the list of its tasks is. -/
theorem in_kernel_space_writes {v : ℤ} (hkernel : m.x_g GLOBAL_TASKS_PTR = some v) :
    Writes m.session is_in_kernel_space (.ok true) [] :=
  Writes.catch_ok (((get_8_byte_at_fetches _).writes hkernel).bind_silent (writes_pure true))

theorem in_user_space_writes (huser : m.x_g GLOBAL_TASKS_PTR = none) :
    Writes m.session is_in_kernel_space (.ok false) [] := by
  obtain ⟨message, hraise⟩ := (get_8_byte_at_fetches _).raises huser
  exact hraise.bind_error.catch_error (writes_pure false)

/-! ## Objects -/

section Objects

variable (m)

def BsdInfo.at (address : ℤ) : Option (Option BsdInfo) :=
  if address ≠ NULL_PTR then do
    let bsd_pid ← m.x_w (address + PID_IN_BSD_INFO)
    let bsd_name ← m.x_s (address + NAME_INBSD_INFO)
    return some ⟨bsd_pid, bsd_name⟩
  else return none

def IPCSpace.at (address : ℤ) : Option (Option IPCSpace) :=
  if address ≠ NULL_PTR then do
    let is_table ← m.x_g (address + IS_TABLE)
    let is_table_size ← m.x_w (address + IS_TABLE_SIZE)
    let is_table_free ← m.x_w (address + IS_TABLE_FREE)
    return some ⟨is_table, is_table_size, is_table_free⟩
  else return none

def Task.at (address : ℤ) : Option (Option Task) :=
  if address ≠ NULL_PTR then do
    let bsd_info_ptr ← m.x_g (address + TaskOffsets.BSD_INFO)
    let itk_self ← m.x_g (address + TaskOffsets.ITK_SELF)
    let ipc_space ← m.x_g (address + TaskOffsets.IPC_SPACE)
    let ipc_space_object ← IPCSpace.at m ipc_space
    let bsdinfo_object ← BsdInfo.at m bsd_info_ptr
    return some
      { address := address
        task_lst_ptr := address + TaskOffsets.TASK_NEXT
        threads_lst_ptr := address + TaskOffsets.THREAD_LST_FROM_TASK
        bsd_info_ptr := bsd_info_ptr
        itk_self := itk_self
        ipc_space := ipc_space
        ipc_space_object := ipc_space_object
        bsdinfo_object := bsdinfo_object }
  else return none

def IPCObject.at (address : ℤ) : Option (Option IPCObject) :=
  if address ≠ NULL_PTR then do
    let io_bits ← m.x_w address
    let io_references ← m.x_w (address + IPCObjectOffsets.IO_REFS)
    let io_lock_data_1 ← m.x_g (address + IPCObjectOffsets.IO_LOCK_DATA)
    let io_lock_data_2 ← m.x_g (address + IPCObjectOffsets.IO_LOCK_DATA + 0x08)
    return some ⟨io_bits, io_references, io_lock_data_1, io_lock_data_2⟩
  else return none

def IPCEntry.objectAt (ie_object : ℤ) : Option (Option (Option IPCObject)) :=
  if ie_object ≠ 0 then do
    let ie_object_object ← IPCObject.at m ie_object
    return some ie_object_object
  else return none

def IPCEntry.at (address : ℤ) : Option (Option IPCEntry) :=
  if address ≠ NULL_PTR then do
    let ie_object ← m.x_g address
    let ie_bits ← m.x_w (address + IPCEntryOffsets.IE_BITS)
    let ie_index ← m.x_w (address + IPCEntryOffsets.IE_INDEX)
    let index ← m.x_w (address + IPCEntryOffsets.INDEX)
    let ie_object_object ← IPCEntry.objectAt m ie_object
    return some ⟨address, ie_object, ie_bits, ie_index, index, ie_object_object⟩
  else return none

end Objects

theorem bsdInfo_init_fetches (address : ℤ) :
    Fetches m (BsdInfo.init address) (BsdInfo.at m address) := by
  unfold BsdInfo.init BsdInfo.at
  split
  · refine (get_4_byte_at_fetches _).bind fun _ => ?_
    exact (get_string_at_fetches _).bind fun _ => fetches_pure _
  · exact fetches_pure none

theorem ipcSpace_init_fetches (address : ℤ) :
    Fetches m (IPCSpace.init address) (IPCSpace.at m address) := by
  unfold IPCSpace.init IPCSpace.at
  split
  · refine (get_8_byte_at_fetches _).bind fun _ => ?_
    refine (get_4_byte_at_fetches _).bind fun _ => ?_
    exact (get_4_byte_at_fetches _).bind fun _ => fetches_pure _
  · exact fetches_pure none

theorem task_init_fetches (address : ℤ) :
    Fetches m (Task.init address) (Task.at m address) := by
  unfold Task.init Task.at
  split
  · refine (get_8_byte_at_fetches _).bind fun _ => ?_
    refine (get_8_byte_at_fetches _).bind fun _ => ?_
    refine (get_8_byte_at_fetches _).bind fun _ => ?_
    refine (ipcSpace_init_fetches _).bind fun _ => ?_
    exact (bsdInfo_init_fetches _).bind fun _ => fetches_pure _
  · exact fetches_pure none

theorem ipcObject_init_fetches (address : ℤ) :
    Fetches m (IPCObject.init address) (IPCObject.at m address) := by
  unfold IPCObject.init IPCObject.at
  split
  · refine (get_4_byte_at_fetches _).bind fun _ => ?_
    refine (get_4_byte_at_fetches _).bind fun _ => ?_
    refine (get_8_byte_at_fetches _).bind fun _ => ?_
    exact (get_8_byte_at_fetches _).bind fun _ => fetches_pure _
  · exact fetches_pure none

theorem ipcEntry_init_fetches (address : ℤ) :
    Fetches m (IPCEntry.init address) (IPCEntry.at m address) := by
  have hobject : ∀ ie_object,
      Fetches m (IPCEntry.find_object ie_object) (IPCEntry.objectAt m ie_object) := by
    intro ie_object
    unfold IPCEntry.find_object IPCEntry.objectAt
    split
    · exact (ipcObject_init_fetches _).bind fun _ => fetches_pure _
    · exact fetches_pure none
  unfold IPCEntry.init IPCEntry.at
  split
  · refine (get_8_byte_at_fetches _).bind fun _ => ?_
    refine (get_4_byte_at_fetches _).bind fun _ => ?_
    refine (get_4_byte_at_fetches _).bind fun _ => ?_
    refine (get_4_byte_at_fetches _).bind fun _ => ?_
    exact (hobject _).bind fun _ => fetches_pure _
  · exact fetches_pure none

/-- **An object that is used** right after it has been constructed: it is there, or something
raises. -/
theorem init_fails {α β : Type} {init : Script (Option α)} {v : Option (Option α)}
    (hinit : Fetches m init v) (hv : v.join = none) :
    ∃ e, (v = some none → e = .AttributeError)
      ∧ ∀ f : Option α → α → Script β, Writes m.session
        (do
          let result ← init
          let object ← attr result
          f result object) (.error e) [] := by
  cases v with
  | none =>
      obtain ⟨message, hraise⟩ := hinit
      exact ⟨_, nofun, fun _ => hraise.bind_error⟩
  | some o =>
      obtain rfl : o = none := hv
      have hattr : Writes m.session (attr (none : Option α)) (.error .AttributeError) [] :=
        writes_throw _
      exact ⟨_, fun _ => rfl, fun _ => Writes.bind_silent hinit hattr.bind_error⟩

/-! ## The list of tasks -/

/-- From task to task, as long as they can be read. -/
inductive TaskWalk (m : PartialMemory) : ℤ → List ℤ → ℤ → Prop where
  | here (a : ℤ) : TaskWalk m a [] a
  | step {a b c : ℤ} {l : List ℤ} {task : Task} (hne : a ≠ GLOBAL_TASKS_PTR)
      (htask : Task.at m a = some (some task)) (hnext : m.x_g (a + TaskOffsets.TASK_NEXT) = some b)
      (hrest : TaskWalk m b l c) : TaskWalk m a (a :: l) c

/-- A task that has been read knows its place. -/
theorem task_at_address {address : ℤ} {task : Task}
    (htask : Task.at m address = some (some task)) :
    task.address = address ∧ task.task_lst_ptr = address + TaskOffsets.TASK_NEXT := by
  unfold Task.at at htask
  split at htask
  · simp only [Option.bind_eq_bind, Option.bind_eq_some_iff, Option.pure_def,
      Option.some.injEq] at htask
    obtain ⟨_, _, _, _, _, _, _, _, _, _, rfl⟩ := htask
    exact ⟨rfl, rfl⟩
  · cases htask

theorem TaskWalk.read {a c x : ℤ} {tasks : List ℤ} (hwalk : TaskWalk m a tasks c)
    (hx : x ∈ tasks) : ∃ task, Task.at m x = some (some task) := by
  induction hwalk with
  | here a => exact nomatch hx
  | step hne htask hnext hrest ih =>
      rcases List.mem_cons.mp hx with rfl | hx
      · exact ⟨_, htask⟩
      · exact ih hx

/-- What a `TasksIterator` fetches on the way. -/
theorem tasks_goesTo {last : Except Exn (Option (Option Task × TasksIterator))} {a c : ℤ}
    {tasks : List ℤ} (hwalk : TaskWalk m a tasks c)
    (hlast : Writes m.session (TasksIterator.next ⟨GLOBAL_TASKS_PTR, c⟩) last []) :
    GoesTo m.session TasksIterator.next last ⟨GLOBAL_TASKS_PTR, a⟩
      (tasks.map fun a => ((Task.at m a).join, [])) := by
  induction hwalk with
  | here a => exact .stop hlast
  | @step a b c l task hne htask hnext hrest ih =>
      refine .step ?_ (ih hlast)
      obtain ⟨-, hlink⟩ := task_at_address htask
      rw [htask, TasksIterator.next, if_pos hne]
      refine ((task_init_fetches a).writes htask).bind_silent ((attr_writes task).bind_silent ?_)
      rw [hlink]
      exact ((get_8_byte_at_fetches _).writes hnext).bind_silent (writes_pure _)

/-- The iterator at a task that cannot be read, or whose link cannot be. -/
theorem tasks_next_raises {bad : ℤ} (hne : bad ≠ GLOBAL_TASKS_PTR)
    (hbad : (Task.at m bad).join = none ∨ m.x_g (bad + TaskOffsets.TASK_NEXT) = none) :
    ∃ e, Writes m.session (TasksIterator.next ⟨GLOBAL_TASKS_PTR, bad⟩) (.error e) [] := by
  rw [TasksIterator.next, if_pos hne]
  cases htask : (Task.at m bad).join with
  | none =>
      obtain ⟨e, -, hraise⟩ := init_fails (task_init_fetches bad) htask
      exact ⟨e, hraise _⟩
  | some object =>
      have hread := Option.join_eq_some_iff.mp htask
      obtain ⟨-, hlink⟩ := task_at_address hread
      obtain ⟨message, hraise⟩ := (get_8_byte_at_fetches _).raises
        (hbad.resolve_left (htask ▸ Option.some_ne_none object))
      refine ⟨.GdbError message, ((task_init_fetches bad).writes hread).bind_silent
        ((attr_writes object).bind_silent ?_)⟩
      rw [hlink]
      exact hraise.bind_error

section Exist

variable {first : ℤ} {tasks : List ℤ} {fuel : ℕ}

/-- The iterator over the tasks, and what is done with it. -/
theorem tasksIterator_init_writes (hfirst : m.x_g GLOBAL_TASKS_PTR = some first) :
    Writes m.session TasksIterator.init (.ok ⟨GLOBAL_TASKS_PTR, first⟩) [] :=
  ((get_8_byte_at_fetches _).writes hfirst).bind_silent (writes_pure _)

/-- `tmptask.address`. -/
def address_of (tmptask : Option Task) : Script ℤ := do return (← attr tmptask).address

theorem address_of_writes {c : ℤ} (hwalk : TaskWalk m first tasks c) :
    ∀ a ∈ tasks, Writes m.session (address_of (Task.at m a).join) (.ok a) [] := by
  intro a ha
  obtain ⟨task, htask⟩ := hwalk.read ha
  obtain ⟨rfl, -⟩ := task_at_address htask
  rw [htask]
  exact (attr_writes task).bind_silent (writes_pure _)

/-- Whether a task is on the list, if all of the list can be read. -/
theorem is_task_exist_writes (hfirst : m.x_g GLOBAL_TASKS_PTR = some first)
    (hwalk : TaskWalk m first tasks GLOBAL_TASKS_PTR) (hfuel : tasks.length < fuel) (task : ℤ) :
    Writes m.session (is_task_exist task fuel) (.ok (some (decide (task ∈ tasks)))) [] := by
  have hout : (tasks.flatMap fun _ => ([] : List String)) = [] :=
    List.flatMap_eq_nil_iff.mpr fun _ _ => rfl
  have hstop : Writes m.session (TasksIterator.next ⟨GLOBAL_TASKS_PTR, GLOBAL_TASKS_PTR⟩)
      (.ok none) [] := by
    rw [TasksIterator.next, if_neg (not_not_intro rfl)]
    exact writes_pure none
  have hlist := listOf_writes (tasks_goesTo hwalk hstop) (address_of_writes hwalk) hfuel
  rw [hout, List.map_id'] at hlist
  refine (tasksIterator_init_writes hfirst).bind_silent (hlist.bind_silent ?_)
  rw [Option.map_some, List.contains_eq_mem]
  exact writes_pure _

/-- And if not. -/
theorem is_task_exist_raises (hfirst : m.x_g GLOBAL_TASKS_PTR = some first) {bad : ℤ}
    (hwalk : TaskWalk m first tasks bad) (hne : bad ≠ GLOBAL_TASKS_PTR)
    (hbad : (Task.at m bad).join = none ∨ m.x_g (bad + TaskOffsets.TASK_NEXT) = none)
    (hfuel : tasks.length < fuel) (task : ℤ) :
    ∃ e, Writes m.session (is_task_exist task fuel) (.error e) [] := by
  have hout : (tasks.flatMap fun _ => ([] : List String)) = [] :=
    List.flatMap_eq_nil_iff.mpr fun _ _ => rfl
  obtain ⟨e, hnext⟩ := tasks_next_raises hne hbad
  have hlist := listOf_raises (tasks_goesTo hwalk hnext) (address_of_writes hwalk) hfuel
  rw [hout] at hlist
  exact ⟨e, (tasksIterator_init_writes hfirst).bind_silent hlist.bind_error⟩

end Exist

end XnuQemuTools.KernelReads
