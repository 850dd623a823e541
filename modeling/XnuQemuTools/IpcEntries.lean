/-
`xnu-ipc_entry-list`, the table of the ports of a task (`gdb/xnu/tasks.py`, `xnu_types.py`).

An IPC space has a table of entries of 0x18 bytes each. `IPCEntryIterator` counts through
the table and skips the entries whose bits have no type, so that one `__next__` may read any
number of entries, and any of them may be unreadable. The command writes each text before it
asks for the next entry. `entries_printed` says that it prints the entries that have a type,
in the order of the table, each once, as far as they can be read; that it raises where they
cannot; and likewise where the space, the task or the list of tasks cannot be read.
-/
import XnuQemuTools.KernelReads
import XnuQemuTools.ThreadCommands

set_option autoImplicit false

namespace XnuQemuTools.IpcEntries

open Calls Calls.Prog Exceptions Gdb KernelLists KernelObjects KernelPrinters KernelReads Output
open KernelImage (attr_writes)
open ThreadCommands (is_valid_ptr in_kernel in_kernel_ends int_writes)
open SwitchThread (int_ in_user_space)

/-! ## The iterator -/

def IE_BITS_TYPE_MASK : ℤ := 0x001f0000

/-- An `IPCEntryIterator`. -/
structure IPCEntryIterator where
  entry : ℤ
  size : ℤ
  index : ℤ

/-- `IPCEntryIterator.__init__`; the space is read twice. -/
def IPCEntryIterator.init (address : ℤ) : Script IPCEntryIterator := do
  if ← is_valid_ptr address then
    let space ← attr (← IPCSpace.init address)
    let again ← attr (← IPCSpace.init address)
    return ⟨space.is_table, again.is_table_size, 0⟩
  else throw (.GdbError ("Wrong ipc_entry pointer " ++ toString address))

/-- `IPCEntryIterator.__next__`; `none` is `StopIteration`. -/
def IPCEntryIterator.next (self : IPCEntryIterator) :
    Script (Option (Option IPCEntry × IPCEntryIterator)) := do
  if self.index < self.size then
    let result ← IPCEntry.init (self.entry + self.index * 0x18)
    let ie_bits := (← attr result).ie_bits
    let self' := { self with index := self.index + 1 }
    if Int.land ie_bits IE_BITS_TYPE_MASK ≠ 0 then return some (result, self')
    else self'.next
  else return none
termination_by (self.size - self.index).toNat

/-! ## The command -/

/-- The loop body of `print_ipc_space_table`. -/
def print_entry (_ : Unit) (entry : Option IPCEntry) : Script Unit := do
  write (ljust (IPCEntry.print_ipc_entry_info entry) 47)
  write "-----------------------------------------------\n"

/-- `PrintIPCEntryList.print_ipc_space_table`. -/
def print_ipc_space_table (address : ℤ) (fuel : ℕ) : Script (Option Unit) := do
  write "=================================================\n"
  let space ← IPCSpace.init address
  write (IPCSpace.print_ipc_space_info space)
  write "=================================================\n\n"
  let it ← IPCEntryIterator.init address
  forEach IPCEntryIterator.next print_entry fuel it ()

def no_such_task (task : String) : String :=
  "\nRequested task " ++ task ++ " do not exist in the taskslist of the system!\n\n\n"

def entry_list_usage : String :=
  "\nUsage: xnu-ipc_entry-list -task/space $\x7bTASK_PTR\x7d/$\x7bSPACE_PTR\x7d\n"

section Invoke

variable (string_to_argv : String → List String) (int0 : String → Option ℤ)

/-- The three cases of the first argument. -/
def print_selected (kind arg : String) (fuel : ℕ) : Script (Option Unit) := do
  if kind = "-task" then
    let task ← int_ int0 arg
    let some exist ← is_task_exist task fuel | return none
    if !exist then write (no_such_task arg)
    let object ← attr (← Task.init task)
    print_ipc_space_table object.ipc_space fuel
  else if kind = "-space" then
    let space ← int_ int0 arg
    print_ipc_space_table space fuel
  else
    write entry_list_usage
    return some ()

/-- The `try` block of `PrintIPCEntryList.invoke`. -/
def entry_list_argv (argv : List String) (fuel : ℕ) : Script (Option Unit) :=
  match argv with
  | [kind, arg] => do
      let ptr ← int_ int0 arg
      if ← is_valid_ptr ptr then print_selected int0 kind arg fuel
      else
        write entry_list_usage
        return some ()
  | _ => do
      write entry_list_usage
      return some ()

/-- `PrintIPCEntryList.invoke`. -/
def xnu_ipc_entry_list (arg : String) (fuel : ℕ) : Script (Option Unit) :=
  in_kernel (entry_list_argv int0 (string_to_argv arg) fuel)

end Invoke

/-! ## What the memory says -/

/-- The address of entry `i` of a table. -/
def entryAddress (table : IPCSpace) (i : ℕ) : ℤ := table.is_table + i * 0x18

/-- The entry has a type. -/
def has_type (entry : IPCEntry) : Bool := Int.land entry.ie_bits IE_BITS_TYPE_MASK != 0

/-- The head of the output. -/
def tableHead (space : Option IPCSpace) : List String :=
  ["=================================================\n", IPCSpace.print_ipc_space_info space,
    "=================================================\n\n"]

/-- The texts of one entry. -/
def entryTexts (entry : IPCEntry) : List String :=
  [ljust (IPCEntry.print_ipc_entry_info (some entry)) 47,
    "-----------------------------------------------\n"]

section Memory

variable (m : PartialMemory)

/-- Entry `i`, if it is not at the null pointer and can be read, with the object behind it. -/
def entryAt (table : IPCSpace) (i : ℕ) : Option IPCEntry :=
  (IPCEntry.at m (entryAddress table i)).join

/-- Of the first `n` entries those that have a type. -/
def typedEntries (table : IPCSpace) (n : ℕ) : List IPCEntry :=
  ((List.range n).filterMap (entryAt m table)).filter has_type

variable (int0 : String → Option ℤ) (fuel : ℕ)

/-- The arguments lead to the space at an address, given itself or by a task, with what is
written before its table. -/
inductive Selects : List String → ℤ → List String → Prop where
  | space {text : String} {space v : ℤ} (htext : int0 text = some space)
      (hvalid : m.x_g space = some v) : Selects ["-space", text] space []
  | task {text : String} {ptr v first : ℤ} {tasks : List ℤ} {task : Task}
      (htext : int0 text = some ptr) (hvalid : m.x_g ptr = some v)
      (hfirst : m.x_g GLOBAL_TASKS_PTR = some first)
      (hwalk : TaskWalk m first tasks GLOBAL_TASKS_PTR) (hfuel : tasks.length < fuel)
      (htask : (Task.at m ptr).join = some task) :
      Selects ["-task", text] task.ipc_space (if ptr ∈ tasks then [] else [no_such_task text])

/-- The arguments lead nowhere, because the pointer, a task of the list or the task itself
cannot be read, with what is written before. -/
inductive Fails : List String → List String → Prop where
  | pointer {kind text : String} {ptr : ℤ} (htext : int0 text = some ptr)
      (hptr : m.x_g ptr = none) : Fails [kind, text] []
  | list {text : String} {ptr v first bad : ℤ} {tasks : List ℤ} (htext : int0 text = some ptr)
      (hvalid : m.x_g ptr = some v) (hfirst : m.x_g GLOBAL_TASKS_PTR = some first)
      (hwalk : TaskWalk m first tasks bad) (hfuel : tasks.length < fuel)
      (hne : bad ≠ GLOBAL_TASKS_PTR)
      (hbad : (Task.at m bad).join = none ∨ m.x_g (bad + TaskOffsets.TASK_NEXT) = none) :
      Fails ["-task", text] []
  | task {text : String} {ptr v first : ℤ} {tasks : List ℤ} (htext : int0 text = some ptr)
      (hvalid : m.x_g ptr = some v) (hfirst : m.x_g GLOBAL_TASKS_PTR = some first)
      (hwalk : TaskWalk m first tasks GLOBAL_TASKS_PTR) (hfuel : tasks.length < fuel)
      (htask : (Task.at m ptr).join = none) :
      Fails ["-task", text] (if ptr ∈ tasks then [] else [no_such_task text])

end Memory

variable {m : PartialMemory} {table : IPCSpace}

/-! ## Going through a table -/

/-- The iterator that stands at entry `i`. -/
def iteratorAt (table : IPCSpace) (i : ℕ) : IPCEntryIterator :=
  ⟨table.is_table, table.is_table_size, i⟩

theorem entry_init_writes {i : ℕ} {entry : IPCEntry} (hentry : entryAt m table i = some entry) :
    Writes m.session (IPCEntry.init (entryAddress table i)) (.ok (some entry)) [] :=
  (ipcEntry_init_fetches _).writes (Option.join_eq_some_iff.mp hentry)

/-- `__next__` at an entry with a type. -/
theorem next_typed {i : ℕ} (hi : (i : ℤ) < table.is_table_size) {entry : IPCEntry}
    (hentry : entryAt m table i = some entry) (htype : has_type entry = true) :
    Writes m.session (iteratorAt table i).next
      (.ok (some (some entry, iteratorAt table (i + 1)))) [] := by
  have hbits : Int.land entry.ie_bits IE_BITS_TYPE_MASK ≠ 0 := bne_iff_ne.mp htype
  rw [IPCEntryIterator.next, iteratorAt, if_pos hi]
  refine (entry_init_writes hentry).bind_silent ((attr_writes _).bind_silent ?_)
  simp only [if_pos hbits]
  exact writes_pure _

/-- `__next__` at an entry without one goes on to the next. -/
theorem next_untyped {i : ℕ} (hi : (i : ℤ) < table.is_table_size) {entry : IPCEntry}
    (hentry : entryAt m table i = some entry) (htype : ¬ has_type entry = true)
    {r : Except Exn (Option (Option IPCEntry × IPCEntryIterator))}
    (hrest : Writes m.session (iteratorAt table (i + 1)).next r []) :
    Writes m.session (iteratorAt table i).next r [] := by
  have hbits : ¬ Int.land entry.ie_bits IE_BITS_TYPE_MASK ≠ 0 := mt bne_iff_ne.mpr htype
  rw [IPCEntryIterator.next, iteratorAt, if_pos hi]
  refine (entry_init_writes hentry).bind_silent ((attr_writes _).bind_silent ?_)
  simp only [if_neg hbits]
  exact hrest

/-- `__next__` at an entry that is not to be had. At the null pointer it has no bits. -/
theorem next_raises {i : ℕ} (hi : (i : ℤ) < table.is_table_size)
    (hentry : entryAt m table i = none) :
    ∃ e, (entryAddress table i = NULL_PTR → e = .AttributeError)
      ∧ Writes m.session (iteratorAt table i).next (.error e) [] := by
  obtain ⟨e, hnull, hraise⟩ := init_fails (ipcEntry_init_fetches _) hentry
  refine ⟨e, fun haddress => hnull (if_neg (not_not_intro haddress)), ?_⟩
  rw [IPCEntryIterator.next, iteratorAt, if_pos hi]
  exact hraise _

/-- `__next__` behind the table. -/
theorem next_stops {i : ℕ} (hi : table.is_table_size ≤ i) :
    Writes m.session (iteratorAt table i).next (.ok none) [] := by
  have hend : ¬ (i : ℤ) < table.is_table_size := by omega
  rw [IPCEntryIterator.next, iteratorAt, if_neg hend]
  exact writes_pure none

/-- The entries from `i` on that can be had: the iterator goes through those that have a type,
and then it does what it does behind them. -/
theorem entries_goesTo {last : Except Exn (Option (Option IPCEntry × IPCEntryIterator))} (k : ℕ) :
    ∀ i, (∀ j < i + k, (j : ℤ) < table.is_table_size) →
      (∀ j < i + k, (entryAt m table j).isSome) →
      Writes m.session (iteratorAt table (i + k)).next last [] →
      GoesTo m.session IPCEntryIterator.next last (iteratorAt table i)
        ((((List.range' i k).filterMap (entryAt m table)).filter has_type).map fun entry =>
          (some entry, [])) := by
  induction k with
  | zero => exact fun i _ _ hlast => .stop hlast
  | succ k ih =>
      intro i hsize hread hlast
      have hnext : i + 1 + k = i + (k + 1) := by omega
      obtain ⟨entry, hentry⟩ := Option.isSome_iff_exists.mp (hread i (by omega))
      have hi := hsize i (by omega)
      have hrest := ih (i + 1) (hnext ▸ hsize) (hnext ▸ hread) (hnext ▸ hlast)
      rw [List.range'_succ, List.filterMap_cons_some hentry, List.filter_cons]
      split
      · rename_i htype
        exact .step (next_typed hi hentry htype) hrest
      · rename_i htype
        -- what the iterator yields here is what it yields at the next entry
        cases hrest' : ((List.range' (i + 1) k).filterMap (entryAt m table)).filter has_type with
        | nil =>
            rw [hrest'] at hrest
            cases hrest with
            | stop hstop => exact .stop (next_untyped hi hentry htype hstop)
        | cons entry' l =>
            rw [hrest'] at hrest
            cases hrest with
            | step hstep hgoes => exact .step (next_untyped hi hentry htype hstep) hgoes

/-- From the start of the table. -/
theorem table_goesTo {last : Except Exn (Option (Option IPCEntry × IPCEntryIterator))} {n : ℕ}
    (hn : n ≤ table.is_table_size.toNat) (hread : ∀ i < n, (entryAt m table i).isSome)
    (hlast : Writes m.session (iteratorAt table n).next last []) :
    GoesTo m.session IPCEntryIterator.next last (iteratorAt table 0)
      ((typedEntries m table n).map fun entry => (some entry, [])) := by
  have hzero : 0 + n = n := Nat.zero_add n
  have hgoes := entries_goesTo (m := m) n 0 (fun j hj => by omega) (hzero.symm ▸ hread)
    (hzero.symm ▸ hlast)
  rw [← List.range_eq_range'] at hgoes
  exact hgoes

theorem print_entry_writes (b : Unit) (entry : IPCEntry) :
    Writes m.session (print_entry b (some entry)) (.ok b) (entryTexts entry) :=
  (write_writes _).bind (write_writes _)

/-! ## Printing a table -/

section Table

variable {space v : ℤ} {fuel : ℕ}

theorem is_valid_ptr_writes {ptr : ℤ} (hvalid : m.x_g ptr = some v) :
    Writes m.session (is_valid_ptr ptr) (.ok true) [] :=
  Writes.catch_ok (((get_8_byte_at_fetches ptr).writes hvalid).bind_silent (writes_pure true))

theorem is_valid_ptr_raises {ptr : ℤ} (hptr : m.x_g ptr = none) :
    Writes m.session (is_valid_ptr ptr) (.error (.GdbError ("Wrong pointer! " ++ hex ptr))) [] := by
  obtain ⟨message, hraise⟩ := (get_8_byte_at_fetches ptr).raises hptr
  exact hraise.bind_error.catch_error (writes_throw _)

/-- The head is written before the iterator is made. -/
theorem print_ipc_space_table_writes {o : Option IPCSpace} (hspace : IPCSpace.at m space = some o)
    {r : Except Exn (Option Unit)} {out : List String}
    (hrest : Writes m.session (do
      let it ← IPCEntryIterator.init space
      forEach IPCEntryIterator.next print_entry fuel it ()) r out) :
    Writes m.session (print_ipc_space_table space fuel) r (tableHead o ++ out) := by
  refine (write_writes _).bind (((ipcSpace_init_fetches space).writes hspace).bind_silent ?_)
  exact (write_writes _).bind ((write_writes _).bind hrest)

/-- A space that cannot be read. -/
theorem print_ipc_space_table_unreadable (hspace : IPCSpace.at m space = none) :
    ∃ e, Writes m.session (print_ipc_space_table space fuel) (.error e)
      ["=================================================\n"] := by
  obtain ⟨message, hraise⟩ := (ipcSpace_init_fetches space).raises hspace
  exact ⟨_, (write_writes _).bind hraise.bind_error⟩

/-- A space that is null, or of which the start cannot be read. -/
theorem print_ipc_space_table_invalid {o : Option IPCSpace} (hspace : IPCSpace.at m space = some o)
    (hinvalid : o = none ∨ m.x_g space = none) :
    ∃ e, Writes m.session (print_ipc_space_table space fuel) (.error e) (tableHead o) := by
  have hinit : ∃ e, Writes m.session (IPCEntryIterator.init space) (.error e) [] := by
    cases hptr : m.x_g space with
    | none => exact ⟨_, (is_valid_ptr_raises hptr).bind_error⟩
    | some v =>
        obtain rfl := hinvalid.resolve_right (hptr ▸ Option.some_ne_none v)
        have hattr : Writes m.session (attr (none : Option IPCSpace)) (.error .AttributeError) [] :=
          writes_throw _
        refine ⟨.AttributeError, (is_valid_ptr_writes hptr).bind_silent ?_⟩
        exact ((ipcSpace_init_fetches space).writes hspace).bind_silent hattr.bind_error
  obtain ⟨e, hinit⟩ := hinit
  refine ⟨e, ?_⟩
  rw [← List.append_nil (tableHead o)]
  exact print_ipc_space_table_writes hspace hinit.bind_error

theorem iterator_init_writes (hspace : IPCSpace.at m space = some (some table))
    (hvalid : m.x_g space = some v) :
    Writes m.session (IPCEntryIterator.init space) (.ok (iteratorAt table 0)) [] := by
  have hread := (ipcSpace_init_fetches space).writes hspace
  refine (is_valid_ptr_writes hvalid).bind_silent (hread.bind_silent ?_)
  refine (attr_writes table).bind_silent (hread.bind_silent ?_)
  exact (attr_writes table).bind_silent (writes_pure _)

/-- A table of which all entries can be had. -/
theorem print_table_writes (hspace : IPCSpace.at m space = some (some table))
    (hvalid : m.x_g space = some v)
    (hread : ∀ i < table.is_table_size.toNat, (entryAt m table i).isSome)
    (hfuel : (typedEntries m table table.is_table_size.toNat).length < fuel) :
    Writes m.session (print_ipc_space_table space fuel) (.ok (some ()))
      (tableHead (some table)
        ++ (typedEntries m table table.is_table_size.toNat).flatMap entryTexts) := by
  refine print_ipc_space_table_writes hspace ((iterator_init_writes hspace hvalid).bind_silent ?_)
  have hgoes := table_goesTo le_rfl hread (next_stops (by omega))
  exact Goes.forEach hgoes (fun b entry _ => print_entry_writes b entry) hfuel ()

/-- A table of which entry `k` is the first that cannot. -/
theorem print_table_raises (hspace : IPCSpace.at m space = some (some table))
    (hvalid : m.x_g space = some v) {k : ℕ} (hk : k < table.is_table_size.toNat)
    (hread : ∀ i < k, (entryAt m table i).isSome) (hentry : entryAt m table k = none)
    (hfuel : (typedEntries m table k).length < fuel) :
    ∃ e, (entryAddress table k = NULL_PTR → e = .AttributeError)
      ∧ Writes m.session (print_ipc_space_table space fuel) (.error e)
        (tableHead (some table) ++ (typedEntries m table k).flatMap entryTexts) := by
  obtain ⟨e, hnull, hnext⟩ := next_raises (by omega) hentry
  refine ⟨e, hnull, ?_⟩
  refine print_ipc_space_table_writes hspace ((iterator_init_writes hspace hvalid).bind_silent ?_)
  have hgoes := table_goesTo hk.le hread hnext
  exact hgoes.forEach_error (fun b entry _ => print_entry_writes b entry) hfuel ()

end Table

/-! ## The output -/

section Command

variable {int0 : String → Option ℤ} {argv : List String} {space : ℤ} {notice : List String}
  {fuel : ℕ}

/-- Two arguments with a pointer that can be read. -/
theorem entry_list_argv_writes {kind text : String} {ptr v : ℤ} (htext : int0 text = some ptr)
    (hvalid : m.x_g ptr = some v) {r : Except Exn (Option Unit)} {out : List String}
    (hselected : Writes m.session (print_selected int0 kind text fuel) r out) :
    Writes m.session (entry_list_argv int0 [kind, text] fuel) r out :=
  (int_writes htext).bind_silent ((is_valid_ptr_writes hvalid).bind_silent hselected)

/-- A task, up to where it is used. -/
theorem print_of_task_writes {text : String} {ptr first : ℤ} {tasks : List ℤ}
    (htext : int0 text = some ptr) (hfirst : m.x_g GLOBAL_TASKS_PTR = some first)
    (hwalk : TaskWalk m first tasks GLOBAL_TASKS_PTR) (hfuel : tasks.length < fuel)
    {r : Except Exn (Option Unit)} {out : List String}
    (hobject : Writes m.session (do
      let object ← attr (← Task.init ptr)
      print_ipc_space_table object.ipc_space fuel) r out) :
    Writes m.session (print_selected int0 "-task" text fuel) r
      ((if ptr ∈ tasks then [] else [no_such_task text]) ++ out) := by
  refine (int_writes htext).bind_silent ?_
  refine (is_task_exist_writes hfirst hwalk hfuel ptr).bind_silent ?_
  by_cases hmem : ptr ∈ tasks
  · simp only [hmem, decide_true, if_true]
    exact hobject
  · simp only [hmem, decide_false, if_false]
    exact (write_writes _).bind hobject

/-- What is printed of the space that has been selected. -/
theorem Selects.writes (hselects : Selects m int0 fuel argv space notice)
    {r : Except Exn (Option Unit)} {out : List String}
    (htable : Writes m.session (print_ipc_space_table space fuel) r out) :
    Writes m.session (entry_list_argv int0 argv fuel) r (notice ++ out) := by
  cases hselects with
  | space htext hvalid =>
      exact entry_list_argv_writes htext hvalid ((int_writes htext).bind_silent htable)
  | task htext hvalid hfirst hwalk hfuel htask =>
      refine entry_list_argv_writes htext hvalid
        (print_of_task_writes htext hfirst hwalk hfuel ?_)
      have hread := (task_init_fetches _).writes (Option.join_eq_some_iff.mp htask)
      exact hread.bind_silent ((attr_writes _).bind_silent htable)

theorem Fails.raises (hfails : Fails m int0 fuel argv notice) :
    ∃ e, Writes m.session (entry_list_argv int0 argv fuel) (.error e) notice := by
  cases hfails with
  | pointer htext hptr =>
      exact ⟨_, (int_writes htext).bind_silent (is_valid_ptr_raises hptr).bind_error⟩
  | list htext hvalid hfirst hwalk hfuel hne hbad =>
      obtain ⟨e, hraise⟩ := is_task_exist_raises hfirst hwalk hne hbad hfuel _
      exact ⟨e, entry_list_argv_writes htext hvalid
        ((int_writes htext).bind_silent hraise.bind_error)⟩
  | @task text ptr v first tasks htext hvalid hfirst hwalk hfuel htask =>
      obtain ⟨e, -, hraise⟩ := init_fails (task_init_fetches ptr) htask
      refine ⟨e, ?_⟩
      rw [← List.append_nil (ite _ _ _)]
      exact entry_list_argv_writes htext hvalid
        (print_of_task_writes htext hfirst hwalk hfuel (hraise _))

variable {string_to_argv : String → List String} {arg : String}

/-- What is raised reaches gdb as its own error. -/
theorem entry_list_writes {v : ℤ} (hkernel : m.x_g GLOBAL_TASKS_PTR = some v)
    {r : Except Exn (Option Unit)} {out : List String}
    (hargv : Writes m.session (entry_list_argv int0 (string_to_argv arg) fuel) r out) :
    Writes m.session (xnu_ipc_entry_list string_to_argv int0 arg fuel)
      (r.mapError fun e => .GdbError (format_exc e)) out :=
  in_kernel_ends (in_kernel_space_writes hkernel) hargv

/-- **The output of `xnu-ipc_entry-list`** on a memory that can be read in part. In user space
it is a notice. A pointer or a task that cannot be read raises, with no table written. Else the
command writes the head of the table of the space, given itself or by a task, and then, in the
order of the table, one text for each entry that has a type and for no other. If an entry is
at the null pointer or cannot be read, with a type or not, it raises at the first such entry,
having written those before it. -/
theorem entries_printed (m : PartialMemory) (string_to_argv : String → List String)
    (int0 : String → Option ℤ) (arg : String) (fuel : ℕ) :
    (m.x_g GLOBAL_TASKS_PTR = none →
      Writes m.session (xnu_ipc_entry_list string_to_argv int0 arg fuel) (.ok (some ()))
        [in_user_space])
    ∧ ∀ v, m.x_g GLOBAL_TASKS_PTR = some v →
      (∀ notice, Fails m int0 fuel (string_to_argv arg) notice →
        ∃ message, Writes m.session (xnu_ipc_entry_list string_to_argv int0 arg fuel)
          (.error (.GdbError message)) notice)
      ∧ ∀ space notice, Selects m int0 fuel (string_to_argv arg) space notice →
        (IPCSpace.at m space = none →
          ∃ message, Writes m.session (xnu_ipc_entry_list string_to_argv int0 arg fuel)
            (.error (.GdbError message))
            (notice ++ ["=================================================\n"]))
        ∧ (∀ o, IPCSpace.at m space = some o → o = none ∨ m.x_g space = none →
          ∃ message, Writes m.session (xnu_ipc_entry_list string_to_argv int0 arg fuel)
            (.error (.GdbError message)) (notice ++ tableHead o))
        ∧ ∀ table u, IPCSpace.at m space = some (some table) → m.x_g space = some u →
          ((∀ i < table.is_table_size.toNat, (entryAt m table i).isSome) →
            (typedEntries m table table.is_table_size.toNat).length < fuel →
            Writes m.session (xnu_ipc_entry_list string_to_argv int0 arg fuel) (.ok (some ()))
              (notice ++ (tableHead (some table)
                ++ (typedEntries m table table.is_table_size.toNat).flatMap entryTexts)))
          ∧ ∀ k < table.is_table_size.toNat, (∀ i < k, (entryAt m table i).isSome) →
            entryAt m table k = none → (typedEntries m table k).length < fuel →
            ∃ message, (entryAddress table k = NULL_PTR → message = "AttributeError")
              ∧ Writes m.session (xnu_ipc_entry_list string_to_argv int0 arg fuel)
                (.error (.GdbError message))
                (notice ++ (tableHead (some table)
                  ++ (typedEntries m table k).flatMap entryTexts)) := by
  refine ⟨fun huser => ?_, fun v hkernel => ⟨fun notice hfails => ?_,
    fun space notice hselects => ⟨fun hspace => ?_, fun o hspace hinvalid => ?_,
      fun table u hspace hvalid => ⟨fun hread hfuel => ?_, fun k hk hread hentry hfuel => ?_⟩⟩⟩⟩
  · exact (in_user_space_writes huser).bind_silent ((write_writes _).bind (writes_pure _))
  · obtain ⟨e, hraise⟩ := hfails.raises
    exact ⟨_, entry_list_writes hkernel hraise⟩
  · obtain ⟨e, hraise⟩ := print_ipc_space_table_unreadable hspace
    exact ⟨_, entry_list_writes hkernel (hselects.writes hraise)⟩
  · obtain ⟨e, hraise⟩ := print_ipc_space_table_invalid hspace hinvalid
    exact ⟨_, entry_list_writes hkernel (hselects.writes hraise)⟩
  · exact entry_list_writes hkernel
      (hselects.writes (print_table_writes hspace hvalid hread hfuel))
  · obtain ⟨e, hnull, hraise⟩ := print_table_raises hspace hvalid hk hread hentry hfuel
    refine ⟨_, fun haddress => ?_, entry_list_writes hkernel (hselects.writes hraise)⟩
    rw [hnull haddress]
    rfl

end Command

/-- Two spaces at 0x1000 and 0x2000 have a table of four entries in common, of which the first
and the third have a type and the last cannot be read. The table of the first space ends before
that. The second belongs to a task at 0x200, and the list of tasks has a task at 0x100 only. -/
def lastUnreadable : PartialMemory where
  x_g addr :=
    if addr = 0x8048 then none
    else if addr = GLOBAL_TASKS_PTR then some 0x100
    else if addr = 0x128 then some GLOBAL_TASKS_PTR
    else if addr = 0x500 then some 0x2000
    else if addr = 0x1020 ∨ addr = 0x2020 then some 0x8000
    else if addr = 0x8000 then some 0x9000
    else some 0
  x_w addr :=
    if addr = 0x1014 then some 3
    else if addr = 0x2014 then some 4
    else if addr = 0x8008 ∨ addr = 0x8038 then some 0x00010001
    else some 0
  x_s _ := some ""

/-- The two are printed for both, and for the second space the command raises then. -/
theorem entries_printed_lastUnreadable :
    (typedEntries lastUnreadable ⟨0x8000, 4, 0⟩ 3).length = 2
    ∧ Writes lastUnreadable.session
        (xnu_ipc_entry_list (fun _ => ["-space", "0x1000"]) (fun _ => some 0x1000) "" 3)
        (.ok (some ()))
        (tableHead (some ⟨0x8000, 3, 0⟩)
          ++ (typedEntries lastUnreadable ⟨0x8000, 3, 0⟩ 3).flatMap entryTexts)
    ∧ ∃ message, Writes lastUnreadable.session
        (xnu_ipc_entry_list (fun _ => ["-task", "0x200"]) (fun _ => some 0x200) "" 3)
        (.error (.GdbError message))
        ([no_such_task "0x200"] ++ (tableHead (some ⟨0x8000, 4, 0⟩)
          ++ (typedEntries lastUnreadable ⟨0x8000, 4, 0⟩ 3).flatMap entryTexts)) := by
  have hwalk : TaskWalk lastUnreadable 0x100 [0x100] GLOBAL_TASKS_PTR :=
    .step (by decide) rfl rfl (.here _)
  have hlength : [(0x100 : ℤ)].length < 3 := by decide
  have htask : (Task.at lastUnreadable 0x200).join
      = some ⟨0x200, 0x228, 0x240, 0, 0, 0x2000, some ⟨0x8000, 4, 0⟩, none⟩ := rfl
  have hselects : Selects lastUnreadable (fun _ => some 0x200) 3 ["-task", "0x200"] 0x2000
      [no_such_task "0x200"] :=
    @Selects.task lastUnreadable _ 3 "0x200" 0x200 0 0x100 [0x100] _ rfl rfl rfl hwalk hlength
      htask
  refine ⟨by decide, ?_, ?_⟩
  · have hall := ((entries_printed lastUnreadable (fun _ => ["-space", "0x1000"])
      (fun _ => some 0x1000) "" 3).2 0x100 rfl).2 0x1000 [] (.space rfl rfl)
    exact (hall.2.2 ⟨0x8000, 3, 0⟩ 0 rfl rfl).1 (by decide) (by decide)
  · have hall := ((entries_printed lastUnreadable (fun _ => ["-task", "0x200"])
      (fun _ => some 0x200) "" 3).2 0x100 rfl).2 0x2000 [no_such_task "0x200"] hselects
    obtain ⟨message, -, hwrites⟩ :=
      (hall.2.2 ⟨0x8000, 4, 0⟩ 0 rfl rfl).2 3 (by decide) (by decide) rfl (by decide)
    exact ⟨message, hwrites⟩

end XnuQemuTools.IpcEntries
