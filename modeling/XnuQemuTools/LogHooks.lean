/-
The two hooks that write the message log (`function-hooks/ipc_kmsg_send` and
`function-hooks/ipc_mqueue_send`), and all interleavings of their invocations.

An invocation appends by asking for the size of the log and then writing there. What
makes the two calls one is a mutex in a fixed slot of the kernel, which is empty at
boot and which the first invocation fills. The test of the slot and the store into
it are two steps, "not really protected" in the words of the source. So two
invocations may both find the slot empty, and the second store then replaces a
mutex that may already be in use.

`log_complete` is what the protocol does give: as long as no store replaces a mutex
that some invocation holds or is about to take, the log is what it was, followed by
every message written, whole and once, in the order of the writes. The proof goes
by an automaton. `next` says what each step does to the place an invocation has
reached (`Place`), `Obeys` that a program only ever takes steps the automaton
knows, and `Stands` what is true of the shared state while an invocation is there.
`log_incomplete` is the other kind of run.

What `print_ipc_kmsg` appends to the message is an answer from outside, like the
fields of the message it prints.
-/
import XnuQemuTools.CString
import XnuQemuTools.Interleave
import Mathlib.Data.Fintype.Basic

set_option autoImplicit false

namespace XnuQemuTools.LogHooks

open Calls Calls.Prog CString Interleave

/-! ## The hooks -/

/-- The steps of an invocation: its accesses to the slot, what it calls, and the
fields it reads. -/
inductive HookOp where
  | load_global_mtx
  | store_global_mtx (m : UInt64)
  | lck_grp_alloc_init (name : List UInt8)
  | lck_mtx_alloc_init (mtx_grp : UInt64)
  | lck_mtx_lock (m : UInt64)
  | lck_mtx_unlock (m : UInt64)
  | read_x19
  | msgh_bits (kmsg : UInt64)
  | msgh_remote_port (kmsg : UInt64)
  | io_bits (port : UInt64)
  | receiver (port : UInt64)
  | is_task (space : UInt64)
  | kern_os_malloc (size : UInt64)
  | print_ipc_kmsg (kmsg : UInt64) (message : List UInt8) (size : UInt64)
  | qc_size_file (index : UInt64)
  | qc_write_file (message : List UInt8) (length offset index : UInt64)
  | kern_os_free (message : UInt64)
  deriving DecidableEq

/-- What each step answers; `print_ipc_kmsg` with what it appends. -/
abbrev HookRes : HookOp → Type
  | .load_global_mtx => UInt64
  | .store_global_mtx _ => Unit
  | .lck_grp_alloc_init _ => UInt64
  | .lck_mtx_alloc_init _ => UInt64
  | .lck_mtx_lock _ => Unit
  | .lck_mtx_unlock _ => Unit
  | .read_x19 => UInt64
  | .msgh_bits _ => UInt32
  | .msgh_remote_port _ => UInt64
  | .io_bits _ => UInt32
  | .receiver _ => UInt64
  | .is_task _ => UInt64
  | .kern_os_malloc _ => UInt64
  | .print_ipc_kmsg _ _ _ => List UInt8
  | .qc_size_file _ => Int64
  | .qc_write_file _ _ _ _ => Int64
  | .kern_os_free _ => Unit

/-- An invocation of a hook. -/
abbrev HookProg : Type := Prog HookOp HookRes Unit

/-- `size`, the bytes allocated for a message. -/
def size : UInt64 := 16384

/-- The first line of a message, in `ipc_kmsg_send`. -/
def kmsg_banner : List UInt8 := ascii "^^^^^^^^^^^^^^^^^^^^^^^^ ipc_kmsg_send()\n"

/-- The first line of a message, in `ipc_mqueue_send`. -/
def mqueue_banner : List UInt8 := ascii "^^^^^^^^^^^^^^^^^^^^^^^^ ipc_mqueue_send()\n"

/-- `MACH_MSGH_BITS_REMOTE`. -/
def MACH_MSGH_BITS_REMOTE (bits : UInt32) : UInt32 := bits &&& 0x1f

/-- `if (NULL == *global_mtx)`, with its body. -/
def init_global_mtx : HookProg := do
  let m ← perform HookOp.load_global_mtx
  if m = 0 then
    let mtx_grp ← perform (HookOp.lck_grp_alloc_init (ascii "log_file_mutex"))
    let mtx ← perform (HookOp.lck_mtx_alloc_init mtx_grp)
    perform (HookOp.store_global_mtx mtx)
  else
    return ()

/-- `lck_mtx_lock(*global_mtx)`. -/
def lock_global_mtx : HookProg := do
  let m ← perform HookOp.load_global_mtx
  perform (HookOp.lck_mtx_lock m)

/-- `lck_mtx_unlock(*global_mtx)`. -/
def unlock_global_mtx : HookProg := do
  let m ← perform HookOp.load_global_mtx
  perform (HookOp.lck_mtx_unlock m)

/-- `qc_write_file(message, strlen(message), (uint64_t)qc_size_file(2), 2)`; the answer
of the write is dropped. -/
def write_message (message : List UInt8) : HookProg := do
  let offset ← perform (HookOp.qc_size_file 2)
  let _ ← perform (HookOp.qc_write_file message (UInt64.ofNat message.length) offset.toUInt64 2)
  return ()

/-- What `ipc_kmsg_send` does while it holds the mutex. -/
def log_kmsg (kmsg : UInt64) : HookProg := do
  let bits ← perform (HookOp.msgh_bits kmsg)
  if MACH_MSGH_BITS_REMOTE bits ≠ 0 then
    let port ← perform (HookOp.msgh_remote_port kmsg)
    let io_bits : UInt32 ← perform (HookOp.io_bits port)
    if (io_bits >>> 31) &&& 1 ≠ 0 then
      let space ← perform (HookOp.receiver port)
      if space ≠ 0 then
        let space ← perform (HookOp.receiver port)
        let message ← perform (HookOp.kern_os_malloc size)
        let is_task ← perform (HookOp.is_task space)
        if is_task = 0 then
          let text ← perform (HookOp.print_ipc_kmsg kmsg kmsg_banner size)
          write_message (kmsg_banner ++ text)
          perform (HookOp.kern_os_free message)
        else
          write_message kmsg_banner
          perform (HookOp.kern_os_free message)
      else return ()
    else return ()
  else return ()

/-- `_start` of the hook `ipc_kmsg_send`. -/
def ipc_kmsg_send (kmsg : UInt64) : HookProg := do
  init_global_mtx
  lock_global_mtx
  log_kmsg kmsg
  unlock_global_mtx

/-- `_start` of the hook `ipc_mqueue_send`, which finds the message in `x19`. -/
def ipc_mqueue_send : HookProg := do
  init_global_mtx
  let kmsg ← perform HookOp.read_x19
  lock_global_mtx
  let message ← perform (HookOp.kern_os_malloc size)
  let text ← perform (HookOp.print_ipc_kmsg kmsg mqueue_banner size)
  write_message (mqueue_banner ++ text)
  perform (HookOp.kern_os_free message)
  unlock_global_mtx

/-- An invocation of either hook. -/
def Hook (p : HookProg) : Prop := p = ipc_mqueue_send ∨ ∃ kmsg, p = ipc_kmsg_send kmsg

/-! ## What the invocations share -/

/-- The slot, the mutexes held and by whom, those made so far, and the host's files;
`written` records the messages written to the log, oldest first, and no step reads
it. -/
structure Kernel (T : Type) where
  slot : UInt64
  held : List (UInt64 × T)
  made : List UInt64
  files : UInt64 → List UInt8
  written : List (T × List UInt8)

variable {T : Type}

/-- The kernel at boot: no mutex has been made, and the slot is empty. -/
def Kernel.boot (files : UInt64 → List UInt8) : Kernel T := ⟨0, [], [], files, []⟩

/-- `bytes` written at `offset`; a gap before them reads as zeros. -/
def writeAt (file : List UInt8) (offset : ℕ) (bytes : List UInt8) : List UInt8 :=
  file.take offset ++ List.replicate (offset - file.length) 0 ++ bytes
    ++ file.drop (offset + bytes.length)

/-- At the end of the file, writing is appending. -/
theorem writeAt_length (file bytes : List UInt8) :
    writeAt file file.length bytes = file ++ bytes := by
  rw [writeAt, List.take_length, Nat.sub_self, List.replicate_zero, List.append_nil,
    List.drop_of_length_le (Nat.le_add_right _ _), List.append_nil]

/-- Invocation `t` writes to file `index`; the log is file 2. -/
def Kernel.write (s : Kernel T) (t : T) (message : List UInt8) (length offset index : UInt64) :
    Kernel T :=
  { s with
    files := Function.update s.files index
      (writeAt (s.files index) offset.toNat (message.take length.toNat))
    written := if index = 2 then s.written ++ [(t, message)] else s.written }

/-- What an answer may be whatever the state: a mutex is not NULL, and no string fills
half of memory. -/
def Sensible : (op : HookOp) → HookRes op → Prop
  | .lck_mtx_alloc_init _, m => m ≠ 0
  | .print_ipc_kmsg _ _ _, text => text.length < 2 ^ 63
  | _, _ => True

/-- How the kernel and the host answer. Only a free mutex can be locked, a new mutex
is none of the earlier ones, and host calls succeed. An unlock frees the mutex it is
given, whoever holds it: what the kernel does when it is not the caller is not in
these sources. -/
def kernelEnv : SharedEnv HookOp HookRes (Kernel T) T
  | t, op, s, r, s' => Sensible op r ∧
    match op, r with
    | .load_global_mtx, m => m = s.slot ∧ s' = s
    | .store_global_mtx m, _ => s' = { s with slot := m }
    | .lck_mtx_alloc_init _, m => m ∉ s.made ∧ s' = { s with made := m :: s.made }
    | .lck_mtx_lock m, _ => (∀ x ∈ s.held, x.1 ≠ m) ∧ s' = { s with held := (m, t) :: s.held }
    | .lck_mtx_unlock m, _ => s' = { s with held := s.held.filter fun x => x.1 ≠ m }
    | .qc_size_file index, n => n.toInt = (s.files index).length ∧ s' = s
    | .qc_write_file message length offset index, n =>
        n = length.toInt64 ∧ s' = s.write t message length offset index
    | _, _ => s' = s

/-- A state of the system. -/
abbrev State (T : Type) : Type := Config HookOp HookRes Unit (Kernel T) T

/-! ## The automaton -/

/-- How far an invocation has got. `wrote` says whether it has written its message. -/
inductive Place where
  | test
  | create
  | enter
  | locking (m : UInt64)
  | inside (m : UInt64) (wrote : Bool)
  | sized (m : UInt64) (n : Int64)
  | leaving (m : UInt64)
  | done
  deriving DecidableEq

/-- A step that changes nothing the invocations share. -/
def HookOp.Quiet : HookOp → Prop
  | .lck_grp_alloc_init _ | .read_x19 | .msgh_bits _ | .msgh_remote_port _ | .io_bits _
  | .receiver _ | .is_task _ | .kern_os_malloc _ | .print_ipc_kmsg _ _ _ | .kern_os_free _ => True
  | _ => False

/-- Places at which the hooks take quiet steps. -/
def Place.Working : Place → Prop
  | .create | .enter | .inside _ _ => True
  | _ => False

/-- What each step does to the place. -/
inductive Goes : Place → (op : HookOp) → HookRes op → Place → Prop where
  | found {m : UInt64} (hm : m ≠ 0) : Goes .test .load_global_mtx m .enter
  | empty : Goes .test .load_global_mtx 0 .create
  | make (mtx_grp m : UInt64) : Goes .create (.lck_mtx_alloc_init mtx_grp) m .create
  | fill (m : UInt64) : Goes .create (.store_global_mtx m) () .enter
  | fetch (m : UInt64) : Goes .enter .load_global_mtx m (.locking m)
  | lock (m : UInt64) : Goes (.locking m) (.lck_mtx_lock m) () (.inside m false)
  | size (m : UInt64) (n : Int64) : Goes (.inside m false) (.qc_size_file 2) n (.sized m n)
  | write (m : UInt64) (n a : Int64) {message : List UInt8} {length : UInt64}
      (hlength : length.toNat = message.length) :
      Goes (.sized m n) (.qc_write_file message length n.toUInt64 2) a (.inside m true)
  | refetch (m : UInt64) (wrote : Bool) (m' : UInt64) :
      Goes (.inside m wrote) .load_global_mtx m' (.leaving m')
  | unlock (m : UInt64) : Goes (.leaving m) (.lck_mtx_unlock m) () .done
  | quiet {pl : Place} (hpl : pl.Working) {op : HookOp} (hop : op.Quiet) (r : HookRes op) :
      Goes pl op r pl

/-- The program takes the steps of the automaton, and ends where `Q` holds. -/
abbrev HookObeys (Q : Place → Prop) : Place → HookProg → Prop :=
  Obeys Goes Sensible fun _ pl => Q pl

theorem hookObeys_quiet {Q : Place → Prop} {pl : Place} {op : HookOp} {k : HookRes op → HookProg}
    (hpl : pl.Working) (hop : op.Quiet) (hk : ∀ r, Sensible op r → HookObeys Q pl (k r)) :
    HookObeys Q pl (perform op >>= k) :=
  fun r hr => ⟨pl, .quiet hpl hop r, hk r hr⟩

theorem init_global_mtx_obeys : HookObeys (· = .enter) .test init_global_mtx := by
  refine obeys_perform.mpr fun m _ => ?_
  by_cases hm : m = 0
  · subst hm
    refine ⟨.create, .empty, hookObeys_quiet trivial trivial fun mtx_grp _ => ?_⟩
    exact fun mtx _ => ⟨.create, .make mtx_grp mtx, fun _ _ => ⟨.enter, .fill mtx, rfl⟩⟩
  · refine ⟨.enter, .found hm, ?_⟩
    rw [if_neg hm]
    exact rfl

theorem lock_global_mtx_obeys :
    HookObeys (fun pl => ∃ m, pl = .inside m false) .enter lock_global_mtx :=
  fun m _ => ⟨.locking m, .fetch m, fun _ _ => ⟨.inside m false, .lock m, m, rfl⟩⟩

theorem unlock_global_mtx_obeys (m : UInt64) (wrote : Bool) :
    HookObeys (· = .done) (.inside m wrote) unlock_global_mtx :=
  fun m' _ => ⟨.leaving m', .refetch m wrote m', fun _ _ => ⟨.done, .unlock m', rfl⟩⟩

/-- `strlen` is exact for a string that fits into memory. -/
theorem write_message_obeys (m : UInt64) {message : List UInt8} (h : message.length < 2 ^ 64) :
    HookObeys (· = .inside m true) (.inside m false) (write_message message) := by
  have hlength : (UInt64.ofNat message.length).toNat = message.length :=
    UInt64.toNat_ofNat_of_lt' h
  exact fun n _ => ⟨.sized m n, .size m n, fun a _ => ⟨.inside m true, .write m n a hlength, rfl⟩⟩

theorem append_lt {banner text : List UInt8} (hbanner : banner.length < 2 ^ 63)
    (htext : text.length < 2 ^ 63) : (banner ++ text).length < 2 ^ 64 := by
  rw [List.length_append]
  omega

/-- The message is sent off, and the buffer given back. -/
theorem send_obeys (m : UInt64) {message : List UInt8} (buffer : UInt64)
    (h : message.length < 2 ^ 64) :
    HookObeys (fun pl => ∃ wrote, pl = .inside m wrote) (.inside m false)
      (write_message message >>= fun _ => perform (HookOp.kern_os_free buffer)) := by
  refine (write_message_obeys m h).bind fun _ pl hpl => ?_
  subst hpl
  exact hookObeys_quiet trivial trivial fun _ _ => ⟨true, rfl⟩

theorem log_kmsg_obeys (m kmsg : UInt64) :
    HookObeys (fun pl => ∃ wrote, pl = .inside m wrote) (.inside m false) (log_kmsg kmsg) := by
  have skip : HookObeys (fun pl => ∃ wrote, pl = .inside m wrote) (.inside m false)
      (return () : HookProg) := ⟨false, rfl⟩
  refine hookObeys_quiet trivial trivial fun bits _ => ?_
  refine iteInduction (fun _ => ?_) fun _ => skip
  refine hookObeys_quiet trivial trivial fun port _ => ?_
  refine hookObeys_quiet trivial trivial fun io_bits _ => ?_
  refine iteInduction (fun _ => ?_) fun _ => skip
  refine hookObeys_quiet trivial trivial fun space _ => ?_
  refine iteInduction (fun _ => ?_) fun _ => skip
  refine hookObeys_quiet trivial trivial fun space _ => ?_
  refine hookObeys_quiet trivial trivial fun buffer _ => ?_
  refine hookObeys_quiet trivial trivial fun is_task _ => ?_
  -- the message is the banner alone unless the kernel is the receiver
  refine iteInduction (fun _ => ?_) fun _ => send_obeys m buffer (by decide)
  refine hookObeys_quiet trivial trivial fun text htext => ?_
  exact send_obeys m buffer (append_lt (by decide) htext)

/-- Both hooks take the steps of the automaton. -/
theorem Hook.obeys {p : HookProg} (h : Hook p) : HookObeys (· = .done) .test p := by
  rcases h with rfl | ⟨kmsg, rfl⟩
  · refine init_global_mtx_obeys.bind fun _ pl hpl => ?_
    subst hpl
    refine hookObeys_quiet trivial trivial fun kmsg _ => ?_
    refine lock_global_mtx_obeys.bind fun _ pl ⟨m, hpl⟩ => ?_
    subst hpl
    refine hookObeys_quiet trivial trivial fun buffer _ => ?_
    refine hookObeys_quiet trivial trivial fun text htext => ?_
    have hlength : (mqueue_banner ++ text).length < 2 ^ 64 := append_lt (by decide) htext
    refine (write_message_obeys m hlength).bind fun _ pl hpl => ?_
    subst hpl
    exact hookObeys_quiet trivial trivial fun _ _ => unlock_global_mtx_obeys m true
  · refine init_global_mtx_obeys.bind fun _ pl hpl => ?_
    subst hpl
    refine lock_global_mtx_obeys.bind fun _ pl ⟨m, hpl⟩ => ?_
    subst hpl
    refine (log_kmsg_obeys m kmsg).bind fun _ pl ⟨wrote, hpl⟩ => ?_
    subst hpl
    exact unlock_global_mtx_obeys m wrote

/-! ## The log -/

/-- The invocations that have written, oldest first. -/
def Kernel.writers (s : Kernel T) : List T := s.written.map Prod.fst

/-- The log is `initial`, then every message written, each from another invocation. -/
structure Logged (initial : List UInt8) (s : Kernel T) : Prop where
  log : s.files 2 = initial ++ (s.written.map Prod.snd).flatten
  once : s.writers.Nodup

/-- `t` holds the mutex of the slot, and nobody holds another. -/
def Owns (t : T) (m : UInt64) (s : Kernel T) : Prop := s.slot = m ∧ s.held = [(m, t)]

/-- What is true of the kernel while invocation `t` is at a place. -/
def Stands (t : T) : Place → Kernel T → Prop
  | .test, s | .create, s | .enter, s => t ∉ s.writers
  | .locking m, s => s.slot = m ∧ t ∉ s.writers
  | .inside m wrote, s => Owns t m s ∧ (wrote = false → t ∉ s.writers)
  | .sized m n, s => Owns t m s ∧ n.toInt = (s.files 2).length ∧ t ∉ s.writers
  | .leaving m, s => Owns t m s
  | .done, _ => True

/-- The invocation is about to take a mutex it has read from the slot. -/
def beforeLock : HookProg → Bool
  | call (.lck_mtx_lock _) _ => true
  | _ => false

/-- The step writes the slot. -/
def HookOp.fillsSlot : HookOp → Bool
  | .store_global_mtx _ => true
  | _ => false

/-- No store replaces a mutex in use: when the slot is written, no mutex is held, and
no invocation is about to take one. -/
def RaceFree (c : State T) (_ : T) (op : HookOp) : Prop :=
  op.fillsSlot = true → c.shared.held = [] ∧ ∀ u, ∀ p ∈ c.threads u, beforeLock p = false

instance [DecidableEq T] [Fintype T] (c : State T) (t : T) (op : HookOp) :
    Decidable (RaceFree c t op) :=
  inferInstanceAs (Decidable (_ → _ ∧ ∀ u, ∀ p ∈ c.threads u, _))

theorem Kernel.files_write (s : Kernel T) (t : T) (message : List UInt8)
    (length offset index : UInt64) :
    (s.write t message length offset index).files index
      = writeAt (s.files index) offset.toNat (message.take length.toNat) :=
  Function.update_self ..

theorem Kernel.written_write (s : Kernel T) (t : T) (message : List UInt8)
    (length offset : UInt64) :
    (s.write t message length offset 2).written = s.written ++ [(t, message)] := rfl

theorem Kernel.writers_write (s : Kernel T) (t : T) (message : List UInt8)
    (length offset : UInt64) :
    (s.write t message length offset 2).writers = s.writers ++ [t] := by
  rw [Kernel.writers, Kernel.written_write, List.map_append]
  rfl

/-- `(uint64_t)` of a size. -/
theorem toNat_toUInt64_of_toInt {n : Int64} {k : ℕ} (h : n.toInt = k) : n.toUInt64.toNat = k := by
  have hn : 0 ≤ n := by
    rw [Int64.le_iff_toInt_le, h]
    exact Int.natCast_nonneg k
  rw [Int64.toNat_toUInt64_of_le hn, Int64.toNatClampNeg, h, Int.toNat_natCast]

theorem kernelEnv_quiet {t : T} {op : HookOp} {s s' : Kernel T} {r : HookRes op} (hop : op.Quiet)
    (h : kernelEnv t op s r s') : s' = s := by
  cases op with
  | load_global_mtx | store_global_mtx | lck_mtx_alloc_init | lck_mtx_lock | lck_mtx_unlock
  | qc_size_file | qc_write_file => exact hop.elim
  | _ => exact h.2

/-- An invocation at `locking` is about to lock. -/
theorem beforeLock_of_isAt {m : UInt64} {p : HookProg}
    (h : HookObeys (· = .done) (.locking m) p) : beforeLock p = true := by
  cases p with
  | ret a => cases h
  | call op k =>
      -- whatever it calls, some answer is sensible
      have hr : ∃ r, Sensible op r := by
        cases op with
        | lck_mtx_alloc_init mtx_grp => exact ⟨(1 : UInt64), show (1 : UInt64) ≠ 0 by decide⟩
        | print_ipc_kmsg kmsg message size => exact ⟨[], Nat.two_pow_pos 63⟩
        | _ => exact ⟨default, trivial⟩
      obtain ⟨r, hr⟩ := hr
      obtain ⟨pl', hgoes, -⟩ := h r hr
      cases hgoes with
      | lock => rfl
      | quiet hpl => exact hpl.elim

theorem own_step {initial : List UInt8} {c : State T} {t : T} {pl pl' : Place} {op : HookOp}
    {r : HookRes op} {s : Kernel T} (hlog : Logged initial c.shared) (hpl : Stands t pl c.shared)
    (hheld : ∀ x ∈ c.shared.held, x.1 = c.shared.slot) (hok : RaceFree c t op)
    (henv : kernelEnv t op c.shared r s) (hgoes : Goes pl op r pl') :
    (Logged initial s ∧ ∀ x ∈ s.held, x.1 = s.slot) ∧ Stands t pl' s := by
  cases hgoes with
  | found hm =>
      obtain ⟨-, -, rfl⟩ := henv
      exact ⟨⟨hlog, hheld⟩, hpl⟩
  | empty =>
      obtain ⟨-, -, rfl⟩ := henv
      exact ⟨⟨hlog, hheld⟩, hpl⟩
  | make =>
      obtain ⟨-, -, rfl⟩ := henv
      exact ⟨⟨⟨hlog.log, hlog.once⟩, hheld⟩, hpl⟩
  | fill =>
      obtain ⟨-, rfl⟩ := henv
      refine ⟨⟨⟨hlog.log, hlog.once⟩, fun x hx => ?_⟩, hpl⟩
      rw [(hok rfl).1] at hx
      cases hx
  | fetch =>
      obtain ⟨-, rfl, rfl⟩ := henv
      exact ⟨⟨hlog, hheld⟩, rfl, hpl⟩
  | lock =>
      obtain ⟨-, hfree, rfl⟩ := henv
      obtain ⟨rfl, hnew⟩ := hpl
      -- every mutex held would be the one that is free
      have hnone : c.shared.held = [] :=
        List.eq_nil_iff_forall_not_mem.mpr fun x hx => hfree x hx (hheld x hx)
      refine ⟨⟨⟨hlog.log, hlog.once⟩, fun x hx => ?_⟩, ⟨rfl, ?_⟩, fun _ => hnew⟩
      · rcases List.mem_cons.mp hx with rfl | hx
        · rfl
        · exact hheld x hx
      · rw [hnone]
  | size =>
      obtain ⟨-, hn, rfl⟩ := henv
      exact ⟨⟨hlog, hheld⟩, hpl.1, hn, hpl.2 rfl⟩
  | @write m n a message length hlength =>
      obtain ⟨-, -, rfl⟩ := henv
      obtain ⟨howns, hn, hnew⟩ := hpl
      refine ⟨⟨⟨?_, ?_⟩, hheld⟩, howns, fun h => nomatch h⟩
      · rw [Kernel.files_write, hlength, List.take_length, toNat_toUInt64_of_toInt hn,
          writeAt_length, Kernel.written_write, hlog.log, List.map_append, List.flatten_append,
          List.append_assoc]
        exact congrArg _ (congrArg _ (List.append_nil message).symm)
      · rw [Kernel.writers_write]
        exact hlog.once.append (List.nodup_singleton t) (by simpa using hnew)
  | refetch =>
      obtain ⟨-, rfl, rfl⟩ := henv
      obtain ⟨⟨rfl, hholds⟩, -⟩ := hpl
      exact ⟨⟨hlog, hheld⟩, rfl, hholds⟩
  | unlock =>
      obtain ⟨-, rfl⟩ := henv
      refine ⟨⟨⟨hlog.log, hlog.once⟩, fun x hx => ?_⟩, trivial⟩
      exact hheld x (List.mem_of_mem_filter hx)
  | quiet hwork hop =>
      obtain rfl := kernelEnv_quiet hop henv
      exact ⟨⟨hlog, hheld⟩, hpl⟩

/-- An invocation that owns nothing notices only what happens to the slot it has read,
and to its own place in the log. -/
theorem Stands.of_not_owns {u : T} {plu : Place} {s s' : Kernel T} (h : Stands u plu s)
    (hidle : ∀ m, ¬ Owns u m s) (hslot : ∀ m, plu = .locking m → s'.slot = s.slot)
    (hwriters : u ∉ s.writers → u ∉ s'.writers) : Stands u plu s' := by
  cases plu with
  | test | create | enter => exact hwriters h
  | locking m => exact ⟨(hslot m rfl).trans h.1, hwriters h.2⟩
  | inside m wrote => exact (hidle m h.1).elim
  | sized m n => exact (hidle m h.1).elim
  | leaving m => exact (hidle m h).elim
  | done => trivial

theorem Owns.unique {t u : T} {m m' : UInt64} {s : Kernel T} (ht : Owns t m s) (hu : Owns u m' s) :
    u = t := by
  have hsame : [(m, t)] = [(m', u)] := ht.2.symm.trans hu.2
  exact (Prod.mk.inj (List.singleton_inj.mp hsame)).2.symm

theorem others_step {c : State T} {t u : T} {pl pl' plu : Place} {op : HookOp} {r : HookRes op}
    {s : Kernel T} (hu : u ≠ t) (hpl : Stands t pl c.shared) (hok : RaceFree c t op)
    (henv : kernelEnv t op c.shared r s) (hgoes : Goes pl op r pl')
    (hat : IsAt Goes Sensible .test (fun _ => (· = .done)) plu (c.threads u))
    (hplu : Stands u plu c.shared) : Stands u plu s := by
  cases hgoes with
  | found | empty | fetch | size | refetch =>
      obtain ⟨-, -, rfl⟩ := henv
      exact hplu
  | make =>
      obtain ⟨-, -, rfl⟩ := henv
      cases plu <;> exact hplu
  | fill =>
      obtain ⟨-, rfl⟩ := henv
      obtain ⟨hnone, hbefore⟩ := hok rfl
      refine hplu.of_not_owns (fun m howns => ?_) (fun m hm => ?_) id
      · rw [Owns, hnone] at howns
        cases howns.2
      · -- `u` would be about to lock
        subst hm
        rcases hthread : c.threads u with - | p
        · rw [hthread] at hat
          cases hat
        · rw [hthread] at hat
          have hbusy := hbefore u p hthread
          rw [beforeLock_of_isAt hat] at hbusy
          cases hbusy
  | lock m =>
      obtain ⟨-, hfree, rfl⟩ := henv
      refine hplu.of_not_owns (fun m' howns => ?_) (fun _ _ => rfl) id
      refine hfree (m', u) ?_ (howns.1.symm.trans hpl.1)
      rw [howns.2]
      exact List.mem_singleton_self _
  | write =>
      obtain ⟨-, -, rfl⟩ := henv
      refine hplu.of_not_owns (fun m' howns => hu (hpl.1.unique howns)) (fun _ _ => rfl) ?_
      rw [Kernel.writers_write, List.mem_append, List.mem_singleton]
      exact fun hnew hmem => hmem.elim hnew hu
  | unlock =>
      obtain ⟨-, rfl⟩ := henv
      exact hplu.of_not_owns (fun m' howns => hu (hpl.unique howns)) (fun _ _ => rfl) id
  | quiet hwork hop =>
      obtain rfl := kernelEnv_quiet hop henv
      exact hplu

section Runs

variable [DecidableEq T]

/-- **The log is complete in runs without the race.** However the invocations of the
two hooks interleave, as long as no store replaces a mutex in use, the log is at
every moment what it was, followed by the messages written so far, each whole, once,
and one an invocation. -/
theorem log_complete {files : UInt64 → List UInt8} {c : State T}
    (hc : Reachable kernelEnv Hook RaceFree (Kernel.boot files) c) : Logged (files 2) c.shared := by
  have hboot : Logged (files 2) (Kernel.boot files : Kernel T) :=
    ⟨(List.append_nil _).symm, List.nodup_nil⟩
  have htest : ∀ t : T, Stands t .test (Kernel.boot files) := fun _ => List.not_mem_nil
  have hplaces := hc.places (S := Stands)
    (G := fun s => Logged (files 2) s ∧ ∀ x ∈ s.held, x.1 = s.slot)
    ⟨hboot, List.forall_mem_nil _⟩ htest (fun p hp => hp.obeys) (fun t op s r s' h => h.1)
    (fun c t pl pl' op r s hG hpl hok henv hgoes => own_step hG.1 hpl hG.2 hok henv hgoes)
    fun c t u pl pl' plu op r s hu hpl hok henv hgoes hat hplu =>
      others_step hu hpl hok henv hgoes hat hplu
  exact hplaces.1.1

/-! ## Runs

The kernel below answers like `kernelEnv`: it makes mutexes numbered in order, finds
every message sent to the kernel over an active port, and has nothing to say about it. -/

/-- An answer of the kernel. -/
def Kernel.answer (t : T) : Handler HookOp HookRes (Kernel T)
  | .load_global_mtx, s => some (s.slot, s)
  | .store_global_mtx m, s => some ((), { s with slot := m })
  | .lck_mtx_alloc_init _, s =>
      let m := UInt64.ofNat (s.made.length + 1)
      if m ≠ 0 ∧ m ∉ s.made then some (m, { s with made := m :: s.made }) else none
  | .lck_mtx_lock m, s =>
      if ∀ x ∈ s.held, x.1 ≠ m then some ((), { s with held := (m, t) :: s.held }) else none
  | .lck_mtx_unlock m, s => some ((), { s with held := s.held.filter fun x => x.1 ≠ m })
  | .qc_size_file index, s =>
      let n := Int64.ofNat (s.files index).length
      if n.toInt = (s.files index).length then some (n, s) else none
  | .qc_write_file message length offset index, s =>
      some (length.toInt64, s.write t message length offset index)
  | .lck_grp_alloc_init _, s => some (0, s)
  | .read_x19, s => some (0, s)
  | .msgh_bits _, s => some (1, s)
  | .msgh_remote_port _, s => some (1, s)
  | .io_bits _, s => some (0x80000000, s)
  | .receiver _, s => some (1, s)
  | .is_task _, s => some (0, s)
  | .kern_os_malloc _, s => some (0, s)
  | .print_ipc_kmsg _ _ _, s => some ([], s)
  | .kern_os_free _, s => some ((), s)

omit [DecidableEq T] in
theorem Kernel.env_of_answer (t : T) (op : HookOp) (s : Kernel T) (r : HookRes op) (s' : Kernel T)
    (h : Kernel.answer t op s = some (r, s')) : kernelEnv t op s r s' := by
  cases op with
  | lck_mtx_alloc_init mtx_grp =>
      obtain ⟨hfresh, h⟩ := Option.ite_none_right_eq_some.mp h
      obtain ⟨rfl, rfl⟩ := Prod.mk.inj (Option.some.inj h)
      exact ⟨hfresh.1, hfresh.2, rfl⟩
  | lck_mtx_lock m =>
      obtain ⟨hfree, h⟩ := Option.ite_none_right_eq_some.mp h
      obtain ⟨rfl, rfl⟩ := Prod.mk.inj (Option.some.inj h)
      exact ⟨trivial, hfree, rfl⟩
  | qc_size_file index =>
      obtain ⟨hsize, h⟩ := Option.ite_none_right_eq_some.mp h
      obtain ⟨rfl, rfl⟩ := Prod.mk.inj (Option.some.inj h)
      exact ⟨trivial, hsize, rfl⟩
  | print_ipc_kmsg kmsg message size =>
      obtain ⟨rfl, rfl⟩ := Prod.mk.inj (Option.some.inj h)
      exact ⟨Nat.two_pow_pos 63, rfl⟩
  | load_global_mtx =>
      obtain ⟨rfl, rfl⟩ := Prod.mk.inj (Option.some.inj h)
      exact ⟨trivial, rfl, rfl⟩
  | qc_write_file message length offset index =>
      obtain ⟨rfl, rfl⟩ := Prod.mk.inj (Option.some.inj h)
      exact ⟨trivial, rfl, rfl⟩
  | _ =>
      obtain ⟨rfl, rfl⟩ := Prod.mk.inj (Option.some.inj h)
      exact ⟨trivial, rfl⟩

end Runs

/-- An invocation of `ipc_mqueue_send`, and one of `ipc_kmsg_send` that starts once the
slot has been filled. -/
def inTurn : List (Move HookOp HookRes Unit Bool) :=
  .start false ipc_mqueue_send :: List.replicate 4 (.call false)
    ++ .start true (ipc_kmsg_send 0) :: List.replicate 2 (.call true)
    ++ List.replicate 10 (.call false) ++ List.replicate 14 (.call true)

/-- The two invocations find the slot empty at the same time; each goes on with a mutex
of its own, and both ask for the size of the log before either writes. -/
def raced : List (Move HookOp HookRes Unit Bool) :=
  .start false ipc_mqueue_send :: .call false :: .start true (ipc_kmsg_send 0) :: .call true
    :: List.replicate 9 (.call false) ++ List.replicate 14 (.call true)
    ++ [.call true, .call false]

/-- What is left of them then: free the message, fetch the mutex, unlock it. -/
def unlocked : List (Move HookOp HookRes Unit Bool) :=
  List.replicate 3 (.call false) ++ List.replicate 3 (.call true)

/-- What there is to see of a state; `returned` if every invocation has. -/
structure Seen where
  held : List (UInt64 × Bool)
  log : List UInt8
  written : List (Bool × List UInt8)
  returned : Bool
  deriving DecidableEq

/-- See a state. -/
def see (c : State Bool) : Seen :=
  ⟨c.shared.held, c.shared.files 2, c.shared.written, decide (∀ t, returned (c.threads t) = true)⟩

theorem Hook.starts_replicate (n : ℕ) (t : Bool) :
    ∀ m ∈ List.replicate n (Move.call t), m.Starts Hook := by
  intro m hm
  rw [List.eq_of_mem_replicate hm]
  trivial

/-- Both messages are in the log, in the order of the writes. -/
theorem log_complete_inTurn : ∃ c : State Bool, Logged [] c.shared ∧ c.Finished
    ∧ c.shared.written = [(false, mqueue_banner), (true, kmsg_banner)] := by
  have hrun : ((Config.boot (Kernel.boot fun _ => [])).play RaceFree Kernel.answer inTurn).map see
      = some ⟨[], mqueue_banner ++ kmsg_banner,
        [(false, mqueue_banner), (true, kmsg_banner)], true⟩ := by
    decide +kernel
  obtain ⟨c, hplay, hsee⟩ := Option.map_eq_some_iff.mp hrun
  have hstarts : ∀ m ∈ inTurn, m.Starts Hook := by
    simp only [inTurn, List.forall_mem_append, List.forall_mem_cons]
    exact ⟨⟨⟨⟨Or.inl rfl, Hook.starts_replicate 4 _⟩, Or.inr ⟨0, rfl⟩, Hook.starts_replicate 2 _⟩,
      Hook.starts_replicate 10 _⟩, Hook.starts_replicate 14 _⟩
  have hc : Reachable kernelEnv Hook RaceFree (Kernel.boot fun _ => []) c :=
    Config.steps_of_play Kernel.env_of_answer inTurn hstarts hplay
  exact ⟨c, log_complete hc,
    Config.finished_of_returned (of_decide_eq_true (congrArg Seen.returned hsee)),
    congrArg Seen.written hsee⟩

/-- A message can be lost. Both invocations have written, neither has met anything but
a free mutex, and each still holds one; the log is the second message alone. Nothing
they do from there brings the first back. -/
theorem log_incomplete : ∃ c₁ c : State Bool,
    Reachable kernelEnv Hook (fun _ _ _ => True) (Kernel.boot fun _ => []) c₁
    ∧ Relation.ReflTransGen (Step kernelEnv Hook fun _ _ _ => True) c₁ c
    ∧ c₁.shared.written = [(true, kmsg_banner), (false, mqueue_banner)]
    ∧ c₁.shared.held = [(2, true), (1, false)] ∧ c₁.shared.files 2 = mqueue_banner
    ∧ c.Finished ∧ c.shared.written = c₁.shared.written ∧ c.shared.files 2 = mqueue_banner
    ∧ ¬ ∃ order : List (Bool × List UInt8), order.Perm c.shared.written
      ∧ c.shared.files 2 = (order.map Prod.snd).flatten := by
  have hrun : ((Config.boot (Kernel.boot fun _ => [])).play (fun _ _ _ => True) Kernel.answer
      raced).bind (fun c₁ => (c₁.play (fun _ _ _ => True) Kernel.answer unlocked).map fun c =>
        (see c₁, see c))
      = some (⟨[(2, true), (1, false)], mqueue_banner,
          [(true, kmsg_banner), (false, mqueue_banner)], false⟩,
        ⟨[(1, false)], mqueue_banner, [(true, kmsg_banner), (false, mqueue_banner)], true⟩) := by
    decide +kernel
  obtain ⟨c₁, hplay₁, hrest⟩ := Option.bind_eq_some_iff.mp hrun
  obtain ⟨c, hplay, hsee⟩ := Option.map_eq_some_iff.mp hrest
  obtain ⟨hsee₁, hsee⟩ := Prod.mk.inj hsee
  have hwritten : c.shared.written = [(true, kmsg_banner), (false, mqueue_banner)] :=
    congrArg Seen.written hsee
  have hlog : c.shared.files 2 = mqueue_banner := congrArg Seen.log hsee
  refine ⟨c₁, c, ?_, ?_, congrArg Seen.written hsee₁, congrArg Seen.held hsee₁,
    congrArg Seen.log hsee₁, Config.finished_of_returned
      (of_decide_eq_true (congrArg Seen.returned hsee)), ?_, hlog, ?_⟩
  · refine Config.steps_of_play Kernel.env_of_answer raced ?_ hplay₁
    simp only [raced, List.forall_mem_append, List.forall_mem_cons]
    exact ⟨⟨⟨Or.inl rfl, trivial, Or.inr ⟨0, rfl⟩, trivial, Hook.starts_replicate 9 _⟩,
      Hook.starts_replicate 14 _⟩, trivial, trivial, List.forall_mem_nil _⟩
  · refine Config.steps_of_play Kernel.env_of_answer unlocked ?_ hplay
    simp only [unlocked, List.forall_mem_append]
    exact ⟨Hook.starts_replicate 3 _, Hook.starts_replicate 3 _⟩
  · exact hwritten.trans (congrArg Seen.written hsee₁).symm
  · rintro ⟨order, hperm, hfile⟩
    -- the log is too short for both messages
    have hboth : (order.map Prod.snd).flatten.Perm (kmsg_banner ++ mqueue_banner) := by
      rw [hwritten] at hperm
      exact (hperm.map Prod.snd).flatten
    have hlength := hboth.length_eq
    rw [← hfile, hlog] at hlength
    exact absurd hlength (by decide +kernel)

end XnuQemuTools.LogHooks
