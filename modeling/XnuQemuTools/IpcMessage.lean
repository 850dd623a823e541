/-
The text of a log message, `common_hooks/src/ipc-obj.c`.

Both hooks allocate 16384 bytes, and each `strncat` is given this size again, and not what
is left of it: that the text fits is a matter of how much there can be. The printers are
statement by statement here, with a read of a field as a call (`RecordOp`) that may find
anything, so that no relation between the records is assumed. The buffer is the text in it.

`Adds n` is that a printer appends at most `n` lines, a line being 100 bytes: it has a rule
for each kind of statement, and the bound on a printer is the number of its statements.
-/
import XnuQemuTools.Itoa
import XnuQemuTools.LogHooks

set_option autoImplicit false

namespace XnuQemuTools.IpcMessage

open Calls Calls.Prog CString LogHooks

/-! ## Reads -/

/-- The fields the printers read, of the record at an address. `digitsFault` is an access
outside `digits` in `my_itoa`. -/
inductive RecordOp where
  | current_task
  | bsd_info (task : UInt64)
  | p_pid (bsd_info : UInt64)
  | p_name (bsd_info : UInt64)
  | is_table_size (space : UInt64)
  | is_table_free (space : UInt64)
  | is_table (space : UInt64)
  | is_task (space : UInt64)
  | io_bits (port : UInt64)
  | io_references (port : UInt64)
  | io_lock_data (port : UInt64)
  | receiver (port : UInt64)
  | size (kmsg : UInt64)
  | next (kmsg : UInt64)
  | prev (kmsg : UInt64)
  | hdr (kmsg : UInt64)
  | msgh_bits (hdr : UInt64)
  | hdr_size (hdr : UInt64)
  | msgh_remote_port (hdr : UInt64)
  | msgh_local_port (hdr : UInt64)
  | msgh_voucher_port_name (hdr : UInt64)
  | msgh_id (hdr : UInt64)
  | digitsFault

/-- What they find; `p_name` is an array of 256 bytes. -/
abbrev RecordRes : RecordOp → Type
  | .p_pid _ => UInt32
  | .p_name _ => List UInt8
  | .is_table_size _ => UInt32
  | .is_table_free _ => UInt32
  | .io_bits _ => UInt32
  | .io_references _ => UInt32
  | .size _ => UInt32
  | .msgh_bits _ => UInt32
  | .hdr_size _ => UInt32
  | .msgh_voucher_port_name _ => UInt32
  | .msgh_id _ => UInt32
  | .digitsFault => Empty
  | _ => UInt64

/-- A printer: what is in the buffer behind it. -/
abbrev Printer : Type := Prog RecordOp RecordRes (List UInt8)

/-! ## Appending -/

/-- `strncat(message, source, size)`. -/
def strncat (message source : List UInt8) (size : UInt64) : Printer :=
  pure (message ++ (source.takeWhile (· ≠ 0)).take size.toNat)

/-- `strncat_int64`. -/
def strncat_int64 (message source : List UInt8) (size num : UInt64) : Printer := do
  let message ← strncat message source size
  match Itoa.my_itoa (List.replicate 64 0) num with
  | some (.ok str) =>
      let message ← strncat message str size
      strncat message (ascii "\n") size
  | _ =>
      let never ← perform RecordOp.digitsFault
      never.elim

/-! ## The printers -/

/-- `if (NULL != task->bsd_info)`, with its body. -/
def print_bsd_info (task : UInt64) (message : List UInt8) (size : UInt64) : Printer := do
  let bsd_info ← perform (RecordOp.bsd_info task)
  if bsd_info ≠ 0 then
    let bsd_info ← perform (RecordOp.bsd_info task)
    let p_pid ← perform (RecordOp.p_pid bsd_info)
    let message ← strncat_int64 message (ascii "task->bsd_info->p_pid: ") size p_pid.toUInt64
    let message ← strncat message (ascii "task name: ") size
    let bsd_info ← perform (RecordOp.bsd_info task)
    let p_name ← perform (RecordOp.p_name bsd_info)
    let message ← strncat message p_name size
    strncat message (ascii "\n") size
  else pure message

def print_task (task : UInt64) (message : List UInt8) (size : UInt64) : Printer := do
  let message ← strncat message (ascii "@@@@@@@@@@@@@@@@@@@@@@@@@@@@@@@@@@@@@@@\n") size
  let bsd_info ← perform (RecordOp.bsd_info task)
  let message ← strncat_int64 message (ascii "task->bsd_info: ") size bsd_info
  let message ← print_bsd_info task message size
  strncat message (ascii "@@@@@@@@@@@@@@@@@@@@@@@@@@@@@@@@@@@@@@@\n") size

/-- `if (NULL != space->is_task)`, with its body. -/
def print_is_task (space : UInt64) (message : List UInt8) (size : UInt64) : Printer := do
  let is_task ← perform (RecordOp.is_task space)
  if is_task ≠ 0 then
    let is_task ← perform (RecordOp.is_task space)
    print_task is_task message size
  else pure message

def print_ipc_space (space : UInt64) (message : List UInt8) (size : UInt64) : Printer := do
  let message ← strncat message (ascii "!!!!!!!!!!!!!!!!!!!!!!!!!!!!!!!!!!!!!!!!!\n") size
  let is_table_size ← perform (RecordOp.is_table_size space)
  let message ← strncat_int64 message (ascii "space->is_table_size: ") size is_table_size.toUInt64
  let is_table_free ← perform (RecordOp.is_table_free space)
  let message ← strncat_int64 message (ascii "space->is_table_free: ") size is_table_free.toUInt64
  let is_table ← perform (RecordOp.is_table space)
  let message ← strncat_int64 message (ascii "space->is_table: ") size is_table
  let is_task ← perform (RecordOp.is_task space)
  let message ← strncat_int64 message (ascii "space->is_task: ") size is_task
  let message ← print_is_task space message size
  strncat message (ascii "!!!!!!!!!!!!!!!!!!!!!!!!!!!!!!!!!!!!!!!!!\n") size

/-- The texts of `switch (otype)`. -/
def otypeText (otype : UInt32) : List UInt8 :=
  if otype = 0 then ascii "(IOT_PORT)\n"
  else if otype = 1 then ascii "(IOT_PORT_SET)\n"
  else if otype = 2 then ascii "(IOT_NUMBER)\n"
  else ascii "(OTHER TYPE)\n"

/-- The texts of `switch (kotype)`. -/
def kotypeText (kotype : UInt32) : List UInt8 :=
  if kotype = 0 then ascii "(IKOT_NONE)\n"
  else if kotype = 1 then ascii "(IKOT_THREAD)\n"
  else if kotype = 2 then ascii "(IKOT_TASK)\n"
  else if kotype = 3 then ascii "(IKOT_HOST)\n"
  else if kotype = 4 then ascii "(IKOT_HOST_PRIV)\n"
  else if kotype = 41 then ascii "(IKOT_UNKNOWN)\n"
  else ascii "(OTHER TYPE)\n"

/-- `if (is_active && (NULL != port->receiver))`, with its body. -/
def print_receiver (is_active : UInt32) (port : UInt64) (message : List UInt8) (size : UInt64) :
    Printer :=
  if is_active ≠ 0 then do
    let receiver ← perform (RecordOp.receiver port)
    if receiver ≠ 0 then
      let receiver ← perform (RecordOp.receiver port)
      print_ipc_space receiver message size
    else pure message
  else pure message

def print_ipc_port (port : UInt64) (message : List UInt8) (size : UInt64) : Printer := do
  let io_bits : UInt32 ← perform (RecordOp.io_bits port)
  let is_active := (io_bits >>> 31) &&& 1
  let io_bits : UInt32 ← perform (RecordOp.io_bits port)
  let otype := (io_bits >>> 16) &&& 0x7fff
  let io_bits : UInt32 ← perform (RecordOp.io_bits port)
  let is_preallocated := (io_bits >>> 15) &&& 1
  let io_bits : UInt32 ← perform (RecordOp.io_bits port)
  let kotype := io_bits &&& 0xfff
  let message ← strncat message
    (ascii "===========================================================\n") size
  let io_bits : UInt32 ← perform (RecordOp.io_bits port)
  let message ← strncat_int64 message (ascii "port->ip_object.io_bits: ") size io_bits.toUInt64
  let message ← strncat_int64 message (ascii "is_active: ") size is_active.toUInt64
  let message ← strncat_int64 message (ascii "otype: ") size otype.toUInt64
  let message ← strncat message (otypeText otype) size
  let message ← strncat_int64 message (ascii "is_preallocated: ") size is_preallocated.toUInt64
  let message ← strncat_int64 message (ascii "kotype: ") size kotype.toUInt64
  let message ← strncat message (kotypeText kotype) size
  let io_references ← perform (RecordOp.io_references port)
  let message ← strncat_int64 message (ascii "port->ip_object.io_references: ") size
    io_references.toUInt64
  let io_lock_data ← perform (RecordOp.io_lock_data port)
  let message ← strncat_int64 message (ascii "port->ip_object.io_lock_data: ") size io_lock_data
  let receiver ← perform (RecordOp.receiver port)
  let message ← strncat_int64 message (ascii "port->receiver: ") size receiver
  let message ← print_receiver is_active port message size
  strncat message (ascii "===========================================================\n") size

/-- The texts of `print_port_bits_text`. -/
def portBitsText (bits : UInt64) : List UInt8 :=
  if bits = 16 then ascii "(MACH_MSG_TYPE_MOVE_RECEIVE)\n"
  else if bits = 17 then ascii "(MACH_MSG_TYPE_MOVE_SEND)\n"
  else if bits = 18 then ascii "(MACH_MSG_TYPE_MOVE_SEND_ONCE)\n"
  else if bits = 19 then ascii "(MACH_MSG_TYPE_COPY_SEND)\n"
  else if bits = 20 then ascii "(MACH_MSG_TYPE_MAKE_SEND)\n"
  else if bits = 21 then ascii "(MACH_MSG_TYPE_MAKE_SEND_ONCE)\n"
  else if bits = 22 then ascii "(MACH_MSG_TYPE_COPY_RECEIVE)\n"
  else if bits = 24 then ascii "(MACH_MSG_TYPE_DISPOSE_RECEIVE)\n"
  else if bits = 25 then ascii "(MACH_MSG_TYPE_DISPOSE_SEND)\n"
  else if bits = 26 then ascii "(MACH_MSG_TYPE_DISPOSE_SEND_ONCE)\n"
  else ascii "(OTHER TYPE)\n"

def print_port_bits_text (bits : UInt64) (message : List UInt8) (size : UInt64) : Printer :=
  strncat message (portBitsText bits) size

/-- `MACH_MSGH_BITS_LOCAL`. -/
def MACH_MSGH_BITS_LOCAL (bits : UInt32) : UInt32 := (bits &&& 0x1f00) >>> 8

/-- `MACH_MSGH_BITS_VOUCHER`. -/
def MACH_MSGH_BITS_VOUCHER (bits : UInt32) : UInt32 := (bits &&& 0x1f0000) >>> 16

/-- The tests of one bit: `MACH_MSGH_BITS_IS_COMPLEX` and those after it. -/
def hasBit (bits mask : UInt32) : UInt64 := if bits &&& mask ≠ 0 then 1 else 0

/-- `if (0 != bits)`, with its body: the port that is found in the header. -/
def print_port_content (bits : UInt64) (kmsg : UInt64) (title : List UInt8)
    (port : UInt64 → Prog RecordOp RecordRes UInt64) (message : List UInt8) (size : UInt64) :
    Printer :=
  if bits ≠ 0 then do
    let message ← strncat message title size
    let hdr ← perform (RecordOp.hdr kmsg)
    let port ← port hdr
    print_ipc_port port message size
  else pure message

/-- `kmsg->hdr->msgh_bits`. -/
def read_msgh_bits (kmsg : UInt64) : Prog RecordOp RecordRes UInt32 := do
  let hdr ← perform (RecordOp.hdr kmsg)
  perform (RecordOp.msgh_bits hdr)

/-- The line around a message. -/
def starLine : List UInt8 := List.replicate 93 0x2a ++ ascii "\n"

def print_ipc_kmsg (kmsg : UInt64) (message : List UInt8) (size : UInt64) : Printer := do
  let message ← strncat message starLine size
  let cur_task ← perform RecordOp.current_task
  let message ← strncat_int64 message (ascii "current task: ") size cur_task
  let message ← print_task cur_task message size
  let message ← strncat_int64 message (ascii "ipc_kmsg_send() kmsg: ") size kmsg
  let kmsg_size ← perform (RecordOp.size kmsg)
  let message ← strncat_int64 message (ascii "kmsg->size: ") size kmsg_size.toUInt64
  let next ← perform (RecordOp.next kmsg)
  let message ← strncat_int64 message (ascii "kmsg->next: ") size next
  let prev ← perform (RecordOp.prev kmsg)
  let message ← strncat_int64 message (ascii "kmsg->prev: ") size prev
  let hdr ← perform (RecordOp.hdr kmsg)
  let message ← strncat_int64 message (ascii "kmsg->hdr: ") size hdr
  let local_bits ← MACH_MSGH_BITS_LOCAL <$> read_msgh_bits kmsg
  let remote_bits ← MACH_MSGH_BITS_REMOTE <$> read_msgh_bits kmsg
  let voucher_bits ← MACH_MSGH_BITS_VOUCHER <$> read_msgh_bits kmsg
  let is_complex_bits ← (hasBit · 0x80000000) <$> read_msgh_bits kmsg
  let is_raiseimp_bits ← (hasBit · 0x20000000) <$> read_msgh_bits kmsg
  let is_impholdasrt_bits ← (hasBit · 0x10000000) <$> read_msgh_bits kmsg
  let is_circular_bits ← (hasBit · 0x10000000) <$> read_msgh_bits kmsg
  let message ← strncat_int64 message (ascii "kmsg->hdr->msgh_bits(local): ") size
    local_bits.toUInt64
  let message ← print_port_bits_text local_bits.toUInt64 message size
  let message ← strncat_int64 message (ascii "kmsg->hdr->msgh_bits(remote): ") size
    remote_bits.toUInt64
  let message ← print_port_bits_text remote_bits.toUInt64 message size
  let message ← strncat_int64 message (ascii "kmsg->hdr->msgh_bits(voucher): ") size
    voucher_bits.toUInt64
  let message ← print_port_bits_text voucher_bits.toUInt64 message size
  let message ← strncat_int64 message (ascii "kmsg->hdr->msgh_bits(is_complex): ") size
    is_complex_bits
  let message ← strncat_int64 message (ascii "kmsg->hdr->msgh_bits(is_raiseimp_bits): ") size
    is_raiseimp_bits
  let message ← strncat_int64 message (ascii "kmsg->hdr->msgh_bits(is_impholdasrt_bits): ") size
    is_impholdasrt_bits
  let message ← strncat_int64 message (ascii "kmsg->hdr->msgh_bits(is_circular_bits): ") size
    is_circular_bits
  let hdr ← perform (RecordOp.hdr kmsg)
  let hdr_size ← perform (RecordOp.hdr_size hdr)
  let message ← strncat_int64 message (ascii "kmsg->hdr->size: ") size hdr_size.toUInt64
  let hdr ← perform (RecordOp.hdr kmsg)
  let remote_port ← perform (RecordOp.msgh_remote_port hdr)
  let message ← strncat_int64 message (ascii "kmsg->hdr->msgh_remote_port: ") size remote_port
  let hdr ← perform (RecordOp.hdr kmsg)
  let local_port ← perform (RecordOp.msgh_local_port hdr)
  let message ← strncat_int64 message (ascii "kmsg->hdr->msgh_local_port: ") size local_port
  let hdr ← perform (RecordOp.hdr kmsg)
  let voucher_port_name ← perform (RecordOp.msgh_voucher_port_name hdr)
  let message ← strncat_int64 message (ascii "kmsg->hdr->msgh_voucher_port_name: ") size
    voucher_port_name.toUInt64
  let hdr ← perform (RecordOp.hdr kmsg)
  let msgh_id ← perform (RecordOp.msgh_id hdr)
  let message ← strncat_int64 message (ascii "kmsg->hdr->msgh_id: ") size msgh_id.toUInt64
  let message ← print_port_content remote_bits.toUInt64 kmsg
    (ascii "kmsg->hdr->msgh_remote_port CONTENT: \n")
    (fun hdr => perform (RecordOp.msgh_remote_port hdr)) message size
  let message ← print_port_content local_bits.toUInt64 kmsg
    (ascii "kmsg->hdr->msgh_local_port CONTENT: \n")
    (fun hdr => perform (RecordOp.msgh_local_port hdr)) message size
  strncat message starLine size

/-! ## The messages of the hooks -/

/-- The message of `ipc_kmsg_send`, whose receiver is `space`. -/
def kmsg_message (kmsg space : UInt64) : Printer := do
  let message ← strncat [] kmsg_banner LogHooks.size
  let is_task ← perform (RecordOp.is_task space)
  if is_task = 0 then print_ipc_kmsg kmsg message LogHooks.size
  else pure message

/-- The message of `ipc_mqueue_send`. -/
def mqueue_message (kmsg : UInt64) : Printer := do
  let message ← strncat [] mqueue_banner LogHooks.size
  print_ipc_kmsg kmsg message LogHooks.size

/-! ## How much is appended -/

/-- The records may hold anything, but a name ends within its array. -/
def recordEnv : Env RecordOp RecordRes Unit
  | .p_name _, _, p_name, _ => p_name.length = 256 ∧ 0 ∈ p_name
  | _, _, _, _ => True

/-- The array of `my_itoa` is not left. -/
def NoFault (o : Option RecordOp) (_ : Unit) : Prop := o ≠ some .digitsFault

/-- `p` appends at most `n` lines to `message`. -/
def Adds (n : ℕ) (message : List UInt8) (p : Printer) : Prop :=
  Always recordEnv NoFault
    (fun message' _ => ∃ text, message' = message ++ text ∧ text.length ≤ 100 * n) p ()

section Rules

variable {message : List UInt8} {size : UInt64}

theorem Adds.mono {n n' : ℕ} {p : Printer} (hle : n ≤ n') (h : Adds n message p) :
    Adds n' message p :=
  Always.mono (fun _ _ h => h) (fun _ _ _ ⟨text, htext, hlen⟩ =>
    ⟨text, htext, hlen.trans (Nat.mul_le_mul_left 100 hle)⟩) h

theorem adds_pure : Adds 0 message (pure message) :=
  always_ret.mpr ⟨by rintro ⟨⟩, [], (List.append_nil message).symm, Nat.le_refl 0⟩

/-- One printer after another. -/
theorem Adds.bind {n k : ℕ} {p : Printer} {f : List UInt8 → Printer} (hp : Adds n message p)
    (hf : ∀ message', Adds k message' (f message')) : Adds (k + n) message (p >>= f) := by
  refine always_bind p f () (Always.mono (fun _ _ h => h) ?_ hp)
  rintro message' - - ⟨text, rfl, hlen⟩
  refine Always.mono (fun _ _ h => h) ?_ (hf (message ++ text))
  rintro message'' - - ⟨text', rfl, hlen'⟩
  refine ⟨text ++ text', List.append_assoc .., ?_⟩
  rw [List.length_append]
  omega

/-- What a read finds does not matter. -/
theorem Adds.read {n : ℕ} {op : RecordOp} {k : RecordRes op → Printer}
    (hk : ∀ r, Adds n message (k r)) (hop : op ≠ .digitsFault := by rintro ⟨⟩) :
    Adds n message (perform op >>= k) :=
  always_call.mpr ⟨fun h => hop (Option.some.inj h), fun r _ _ => hk r⟩

/-- A name is three lines at most. -/
theorem Adds.name {n : ℕ} {bsd_info : UInt64} {k : List UInt8 → Printer}
    (hk : ∀ p_name : List UInt8, (p_name.takeWhile (· ≠ 0)).length ≤ 100 * 3 →
      Adds n message (k p_name)) :
    Adds n message (perform (RecordOp.p_name bsd_info) >>= k) := by
  refine always_call.mpr ⟨by rintro ⟨⟩, ?_⟩
  rintro p_name - ⟨hlen, -⟩
  exact hk p_name ((List.takeWhile_prefix _).length_le.trans (by omega))

/-- `strncat` appends no more than its source has before the zero. -/
theorem strncat_adds {n : ℕ} {source : List UInt8}
    (hlen : (source.takeWhile (· ≠ 0)).length ≤ 100 * n) :
    Adds n message (strncat message source size) :=
  always_ret.mpr ⟨by rintro ⟨⟩, _, rfl, (List.length_take_le' ..).trans hlen⟩

/-- A literal is one line. -/
theorem Adds.literal {n : ℕ} {source : List UInt8} {f : List UInt8 → Printer}
    (hf : ∀ message', Adds n message' (f message')) (hlen : source.length ≤ 100 := by decide) :
    Adds (n + 1) message (strncat message source size >>= f) :=
  (strncat_adds ((List.takeWhile_prefix _).length_le.trans hlen)).bind hf

/-- A number and its title are one line. -/
theorem Adds.int64 {n : ℕ} {source : List UInt8} {num : UInt64} {f : List UInt8 → Printer}
    (hf : ∀ message', Adds n message' (f message')) (hlen : source.length ≤ 79 := by decide) :
    Adds (n + 1) message (strncat_int64 message source size num >>= f) := by
  refine Adds.bind (n := 1) ?_ hf
  have hpart : ∀ b : List UInt8, ((b.takeWhile (· ≠ 0)).take size.toNat).length ≤ b.length :=
    fun b => (List.length_take_le' ..).trans (List.takeWhile_prefix _).length_le
  have htitle := hpart source
  have hnumber := (hpart (decimal num.toNat)).trans (Itoa.decimal_length_le num.toNat_lt)
  have hend := hpart (ascii "\n")
  have hone : (ascii "\n").length = 1 := by decide
  unfold strncat_int64
  rw [Itoa.my_itoa_eq List.length_replicate]
  refine always_ret.mpr ⟨by rintro ⟨⟩, _, by rw [List.append_assoc, List.append_assoc], ?_⟩
  rw [List.length_append, List.length_append]
  omega

/-- The last literal. -/
theorem Adds.last {source : List UInt8} (hlen : source.length ≤ 100 := by decide) :
    Adds 1 message (strncat message source size) :=
  strncat_adds ((List.takeWhile_prefix _).length_le.trans hlen)

/-- A section that may be left out. -/
theorem Adds.optional {n : ℕ} {c : Prop} [Decidable c] {p : Printer} (hp : c → Adds n message p) :
    Adds n message (if c then p else pure message) := by
  by_cases hc : c
  · rw [if_pos hc]
    exact hp hc
  · rw [if_neg hc]
    exact adds_pure.mono (Nat.zero_le n)

/-- Bits of the header. -/
theorem Adds.bits {n : ℕ} {β : Type} {g : UInt32 → β} {kmsg : UInt64} {f : β → Printer}
    (hf : ∀ b, Adds n message (f b)) : Adds n message ((g <$> read_msgh_bits kmsg) >>= f) := by
  show Adds n message (perform (.hdr kmsg) >>= fun hdr =>
    perform (.msgh_bits hdr) >>= fun b => f (g b))
  exact .read fun hdr => .read fun b => hf (g b)

end Rules

/-! ## The printers -/

section Printers

variable {message : List UInt8} {size : UInt64}

theorem print_bsd_info_adds (task : UInt64) :
    Adds 6 message (print_bsd_info task message size) := by
  refine .read fun bsd_info => .optional fun _ => ?_
  refine .read fun bsd_info => .read fun p_pid => ?_
  refine .int64 fun message => .literal fun message => ?_
  refine .read fun bsd_info => .name fun p_name hshort => ?_
  exact (strncat_adds (n := 3) hshort).bind (k := 1) fun message => .last

theorem print_task_adds (task : UInt64) : Adds 9 message (print_task task message size) := by
  refine .literal fun message => .read fun bsd_info => .int64 fun message => ?_
  exact (print_bsd_info_adds task).bind (k := 1) fun message => .last

theorem print_ipc_space_adds (space : UInt64) :
    Adds 15 message (print_ipc_space space message size) := by
  refine .literal fun message => ?_
  refine .read fun is_table_size => .int64 fun message => ?_
  refine .read fun is_table_free => .int64 fun message => ?_
  refine .read fun is_table => .int64 fun message => ?_
  refine .read fun is_task => .int64 fun message => ?_
  refine Adds.bind (n := 9) (k := 1) ?_ fun message => .last
  exact .read fun is_task => .optional fun _ => .read fun is_task => print_task_adds is_task

theorem otypeText_length (otype : UInt32) : (otypeText otype).length ≤ 100 := by
  unfold otypeText
  split_ifs <;> decide

theorem kotypeText_length (kotype : UInt32) : (kotypeText kotype).length ≤ 100 := by
  unfold kotypeText
  split_ifs <;> decide

theorem print_ipc_port_adds (port : UInt64) :
    Adds 27 message (print_ipc_port port message size) := by
  refine .read fun io_bits => .read fun io_bits' => .read fun io_bits'' => .read fun io_bits₃ => ?_
  refine .literal fun message => .read fun io_bits₄ => .int64 fun message => ?_
  refine .int64 fun message => .int64 fun message => ?_
  refine .literal (fun message => ?_) (otypeText_length _)
  refine .int64 fun message => .int64 fun message => ?_
  refine .literal (fun message => ?_) (kotypeText_length _)
  refine .read fun io_references => .int64 fun message => ?_
  refine .read fun io_lock_data => .int64 fun message => ?_
  refine .read fun receiver => .int64 fun message => ?_
  refine Adds.bind (n := 15) (k := 1) ?_ fun message => .last
  exact .optional fun _ => .read fun receiver => .optional fun _ => .read fun receiver =>
    print_ipc_space_adds receiver

theorem portBitsText_length (bits : UInt64) : (portBitsText bits).length ≤ 100 := by
  unfold portBitsText
  split_ifs <;> decide

theorem starLine_length : starLine.length ≤ 100 := by decide

theorem print_port_content_adds (bits kmsg : UInt64) {title : List UInt8}
    {port : UInt64 → Prog RecordOp RecordRes UInt64} (hlen : title.length ≤ 100)
    (hport : ∀ hdr (f : UInt64 → Printer) message', (∀ p, Adds 27 message' (f p)) →
      Adds 27 message' (port hdr >>= f)) :
    Adds 28 message (print_port_content bits kmsg title port message size) :=
  .optional fun _ => .literal (fun message => .read fun hdr => hport hdr _ message fun p =>
    print_ipc_port_adds p) hlen

/-- **The text of a message** is 88 lines at most. -/
theorem print_ipc_kmsg_adds (kmsg : UInt64) :
    Adds 88 message (print_ipc_kmsg kmsg message size) := by
  refine .literal (fun message => ?_) starLine_length
  refine .read fun cur_task => .int64 fun message => ?_
  refine Adds.bind (n := 9) (print_task_adds cur_task) fun message => ?_
  refine .int64 fun message => .read fun kmsg_size => .int64 fun message => ?_
  refine .read fun next => .int64 fun message => .read fun prev => .int64 fun message => ?_
  refine .read fun hdr => .int64 fun message => ?_
  refine .bits fun local_bits => .bits fun remote_bits => .bits fun voucher_bits => ?_
  refine .bits fun is_complex_bits => .bits fun is_raiseimp_bits => ?_
  refine .bits fun is_impholdasrt_bits => .bits fun is_circular_bits => ?_
  refine .int64 fun message => .literal (fun message => ?_) (portBitsText_length _)
  refine .int64 fun message => .literal (fun message => ?_) (portBitsText_length _)
  refine .int64 fun message => .literal (fun message => ?_) (portBitsText_length _)
  refine .int64 fun message => .int64 fun message => ?_
  refine .int64 fun message => .int64 fun message => ?_
  refine .read fun hdr => .read fun hdr_size => .int64 fun message => ?_
  refine .read fun hdr => .read fun remote_port => .int64 fun message => ?_
  refine .read fun hdr => .read fun local_port => .int64 fun message => ?_
  refine .read fun hdr => .read fun voucher_port_name => .int64 fun message => ?_
  refine .read fun hdr => .read fun msgh_id => .int64 fun message => ?_
  -- the two ports
  refine Adds.bind (n := 28) (print_port_content_adds _ kmsg (by decide) fun hdr f message' hf =>
    .read hf) fun message => ?_
  refine Adds.bind (n := 28) (print_port_content_adds _ kmsg (by decide) fun hdr f message' hf =>
    .read hf) fun message => ?_
  exact .last starLine_length

/-- What `print_ipc_kmsg` appends is as the protocol of the hooks wants it. -/
theorem print_ipc_kmsg_sensible (kmsg : UInt64) : Always recordEnv NoFault
    (fun message' _ => ∃ text, message' = message ++ text
      ∧ Sensible (.print_ipc_kmsg kmsg message size) text)
    (print_ipc_kmsg kmsg message size) () := by
  refine Always.mono (fun _ _ h => h) ?_ (print_ipc_kmsg_adds kmsg)
  rintro message' - - ⟨text, htext, hlen⟩
  exact ⟨text, htext, show text.length < 2 ^ 63 by omega⟩

theorem kmsg_message_adds (kmsg space : UInt64) : Adds 89 [] (kmsg_message kmsg space) := by
  refine .literal fun message => .read fun is_task => ?_
  by_cases hnull : is_task = 0
  · rw [if_pos hnull]
    exact print_ipc_kmsg_adds kmsg
  · rw [if_neg hnull]
    exact adds_pure.mono (by decide)

theorem mqueue_message_adds (kmsg : UInt64) : Adds 89 [] (mqueue_message kmsg) :=
  .literal fun _ => print_ipc_kmsg_adds kmsg

/-- **The message fits into its buffer**, with the zero behind it, in both hooks and whatever is
in the records. -/
theorem messages_fit (kmsg space : UInt64) :
    Always recordEnv NoFault (fun message _ => message.length + 1 ≤ LogHooks.size.toNat)
        (kmsg_message kmsg space) ()
      ∧ Always recordEnv NoFault (fun message _ => message.length + 1 ≤ LogHooks.size.toNat)
        (mqueue_message kmsg) () := by
  have hfits : ∀ {p : Printer}, Adds 89 [] p →
      Always recordEnv NoFault (fun message _ => message.length + 1 ≤ LogHooks.size.toNat)
        p () := by
    refine fun h => Always.mono (fun _ _ h => h) ?_ h
    rintro message - - ⟨text, rfl, hlen⟩
    have hsize : LogHooks.size.toNat = 16384 := rfl
    omega
  exact ⟨hfits (kmsg_message_adds kmsg space), hfits (mqueue_message_adds kmsg)⟩

end Printers

end XnuQemuTools.IpcMessage
