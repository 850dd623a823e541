/-
The block device driver, `aleph_bdev_drv/src/aleph_block_dev.c`.

Everything the driver does to the outside goes through a call: the mutex, the
memory descriptor it is handed (`buffer` in the source, reached through its
vtable), the two host calls `qc_read_file` and `qc_write_file` on the backing
file, the completion action, and `cancel()`, which does not come back. `BdevOp`
lists them and `doAsyncReadWrite` is the function over them, statement by
statement. Its arithmetic is on `UInt64`, so it wraps exactly where the code's
does.

The two host calls move data between the backing file and `dev_buf`, the 4 KiB
bounce buffer inside the device object; `readBytes` and `writeBytes` move data
between `dev_buf` and the descriptor. `dev_buf` is `get_bdev_buffer(this)` in
every call, so the operations do not repeat it.

`serve` is the environment the driver relies on: host calls and descriptor
copies move exactly the length they are given. It has no answer for a call that
leaves the bounce buffer or the file, so a run it completes never did either.
-/
import XnuQemuTools.Calls
import XnuQemuTools.Memory

set_option autoImplicit false

namespace XnuQemuTools.BlockDev

open Calls Calls.Prog Memory

/-! ## Constants and records -/

/-- `BLOCK_SIZE`. -/
def BLOCK_SIZE : UInt64 := 0x1000

/-- `ALEPH_BDEV_BUFFER_SIZE`, the bytes of the bounce buffer. -/
def ALEPH_BDEV_BUFFER_SIZE : ℕ := 0x1000

/-- `VENDOR_NAME_SIZE`. -/
def VENDOR_NAME_SIZE : ℕ := 64

/-- `kIODirectionIn`: user land reads. -/
def kIODirectionIn : UInt64 := 1

/-- `kIODirectionOut`: user land writes. -/
def kIODirectionOut : UInt64 := 2

/-- `AlephBDevMembers`. Pointers are their addresses. -/
structure AlephBDevMembers where
  mtx_grp : UInt64
  lck_mtx : UInt64
  size : UInt64
  block_count : UInt64
  qc_file_index : UInt64
  vendor_name : List UInt8
  product_name : List UInt8
  mutex_name : List UInt8

/-- The three words behind `void **completion`. -/
structure Completion where
  target : UInt64
  action : UInt64
  parameter : UInt64
  deriving DecidableEq

/-! ## The calls of a request -/

/-- The calls `AlephBlockDevice_doAsyncReadWrite` makes. -/
inductive BdevOp where
  | lck_mtx_lock (lck_mtx : UInt64)
  | lck_mtx_unlock (lck_mtx : UInt64)
  | getDirection
  | qc_read_file (length offset index : UInt64)
  | qc_write_file (length offset index : UInt64)
  | readBytes (offset length : UInt64)
  | writeBytes (offset length : UInt64)
  | completionAction (action target parameter status byteCount : UInt64)
  | cancel
  deriving DecidableEq

/-- What each call answers. `cancel()` writes to address 0 and never answers. -/
abbrev BdevRes : BdevOp → Type
  | .lck_mtx_lock _ => Unit
  | .lck_mtx_unlock _ => Unit
  | .getDirection => UInt64
  | .qc_read_file _ _ _ => Int64
  | .qc_write_file _ _ _ => Int64
  | .readBytes _ _ => UInt64
  | .writeBytes _ _ => UInt64
  | .completionAction _ _ _ _ _ => Unit
  | .cancel => Empty

/-- The calls that move data: host calls and descriptor copies. -/
def BdevOp.isTransfer : BdevOp → Bool
  | .qc_read_file _ _ _ => true
  | .qc_write_file _ _ _ => true
  | .readBytes _ _ => true
  | .writeBytes _ _ => true
  | _ => false

/-- A piece of the driver. -/
abbrev BdevProg : Type → Type := Prog BdevOp BdevRes

/-- `cancel()`. -/
def cancel {α : Type} : BdevProg α := do
  let never ← perform BdevOp.cancel
  never.elim

/-! ## `AlephBlockDevice_doAsyncReadWrite` -/

/-- The length both loops use: a whole block, cut back when it passes the end. -/
def blockLength (size offset : UInt64) : UInt64 :=
  if offset + BLOCK_SIZE > size then size - offset else BLOCK_SIZE

/-- The guard both loops test before they transfer. -/
def pastEnd (size offset length : UInt64) : Bool :=
  offset + length ≥ size + BLOCK_SIZE

/-- The loop for `kIODirectionIn`, with `n` iterations left. -/
def readLoop (members : AlephBDevMembers) (block : UInt64) :
    ℕ → UInt64 → UInt64 → BdevProg UInt64
  | 0, _, byte_count => pure byte_count
  | n + 1, i, byte_count => do
      let offset := BLOCK_SIZE * (i + block)
      let length := blockLength members.size offset
      if pastEnd members.size offset length then
        cancel
      else
        -- file to bounce buffer, bounce buffer to descriptor
        let _ ← perform (BdevOp.qc_read_file length offset members.qc_file_index)
        let moved ← perform (BdevOp.writeBytes (i * BLOCK_SIZE) length)
        readLoop members block n (i + 1) (byte_count + moved)

/-- The loop for `kIODirectionOut`, with `n` iterations left. -/
def writeLoop (members : AlephBDevMembers) (block : UInt64) :
    ℕ → UInt64 → UInt64 → BdevProg UInt64
  | 0, _, byte_count => pure byte_count
  | n + 1, i, byte_count => do
      let offset := BLOCK_SIZE * (i + block)
      let length := blockLength members.size offset
      if pastEnd members.size offset length then
        cancel
      else
        -- descriptor to bounce buffer, bounce buffer to file
        let moved ← perform (BdevOp.readBytes (i * BLOCK_SIZE) length)
        let _ ← perform (BdevOp.qc_write_file length offset members.qc_file_index)
        writeLoop members block n (i + 1) (byte_count + moved)

/-- The two loops behind the test of the descriptor's direction. -/
def transfer (members : AlephBDevMembers) (block nblks direction : UInt64) : BdevProg UInt64 :=
  if kIODirectionIn = direction then
    readLoop members block nblks.toNat 0 0
  else if kIODirectionOut = direction then
    writeLoop members block nblks.toNat 0 0
  else
    cancel

/-- The call of the completion action, if the request has one. -/
def complete (completion : Option Completion) (byte_count : UInt64) : BdevProg Unit :=
  match completion with
  | none => pure ()
  | some c => perform (BdevOp.completionAction c.action c.target c.parameter 0 byte_count)

/-- `AlephBlockDevice_doAsyncReadWrite`. -/
def doAsyncReadWrite (members : AlephBDevMembers) (block nblks : UInt64)
    (completion : Option Completion) : BdevProg UInt64 := do
  perform (BdevOp.lck_mtx_lock members.lck_mtx)
  let direction ← perform BdevOp.getDirection
  let byte_count ← transfer members block nblks direction
  complete completion byte_count
  perform (BdevOp.lck_mtx_unlock members.lck_mtx)
  return 0

/-! ## `create_new_aleph_bdev` and the reports -/

/-- The calls that build a device and publish it. -/
inductive SetupOp where
  | allocClassWithName
  | init (bdev : UInt64)
  | lck_grp_alloc_init (name : List UInt8)
  | lck_mtx_alloc_init (mtx_grp : UInt64)
  | qc_size_file (index : UInt64)
  | attach (bdev parent_service : UInt64)
  | registerService (bdev : UInt64)
  | cancel
  deriving DecidableEq

/-- What each of them answers. -/
abbrev SetupRes : SetupOp → Type
  | .allocClassWithName => UInt64
  | .init _ => Unit
  | .lck_grp_alloc_init _ => UInt64
  | .lck_mtx_alloc_init _ => UInt64
  | .qc_size_file _ => Int64
  | .attach _ _ => UInt64
  | .registerService _ => Unit
  | .cancel => Empty

/-- `strncpy` of a C string into a field of `n` bytes. -/
def strncpy (src : List UInt8) (n : ℕ) : List UInt8 :=
  (src.takeWhile (· ≠ 0) ++ List.replicate n 0).take n

/-- `name[0] += bdev_file_index`, in the type `char`. -/
def bumpFirst (name : List UInt8) (bdev_file_index : UInt64) : List UInt8 :=
  name.modify 0 (· + bdev_file_index.toUInt8)

/-- `(size + BLOCK_SIZE - 1) / BLOCK_SIZE`. -/
def blockCount (size : UInt64) : UInt64 := (size + BLOCK_SIZE - 1) / BLOCK_SIZE

/-- `create_new_aleph_bdev`, with the members the new object ends up with. -/
def create_new_aleph_bdev (prod_name vendor_name mutex_name : List UInt8)
    (bdev_file_index parent_service : UInt64) : Prog SetupOp SetupRes AlephBDevMembers := do
  let bdev ← perform SetupOp.allocClassWithName
  if bdev = 0 then
    let never ← perform SetupOp.cancel
    never.elim
  else
    perform (SetupOp.init bdev)
    let mutexName := bumpFirst (strncpy mutex_name VENDOR_NAME_SIZE) bdev_file_index
    let mtx_grp ← perform (SetupOp.lck_grp_alloc_init mutexName)
    let lck_mtx ← perform (SetupOp.lck_mtx_alloc_init mtx_grp)
    let fileSize ← perform (SetupOp.qc_size_file bdev_file_index)
    let members : AlephBDevMembers :=
      { mtx_grp := mtx_grp
        lck_mtx := lck_mtx
        size := fileSize.toUInt64
        block_count := blockCount fileSize.toUInt64
        qc_file_index := bdev_file_index
        vendor_name := bumpFirst (strncpy vendor_name VENDOR_NAME_SIZE) bdev_file_index
        product_name := strncpy prod_name VENDOR_NAME_SIZE
        mutex_name := mutexName }
    if parent_service = 0 then
      let never ← perform SetupOp.cancel
      never.elim
    else
      let _ ← perform (SetupOp.attach bdev parent_service)
      perform (SetupOp.registerService bdev)
      return members

/-- `AlephBlockDevice_reportBlockSize`: the value stored through `param`. -/
def reportBlockSize : UInt64 := BLOCK_SIZE

/-- `AlephBlockDevice_reportMaxValidBlock`: the value stored through `param`. -/
def reportMaxValidBlock (members : AlephBDevMembers) : UInt64 := members.block_count - 1

/-- `members` are those of a device that `create_new_aleph_bdev` made for file
`index`, for which the host reported the size `fileSize`. -/
def Made (index : UInt64) (fileSize : Int64) (members : AlephBDevMembers) : Prop :=
  ∃ prod_name vendor_name mutex_name parent_service tr,
    Returns (create_new_aleph_bdev prod_name vendor_name mutex_name index parent_service) tr members
      ∧ ⟨.qc_size_file index, fileSize⟩ ∈ tr

/-- What a made device holds that its requests read. -/
theorem Made.fields {index : UInt64} {fileSize : Int64} {members : AlephBDevMembers}
    (h : Made index fileSize members) :
    members.size = fileSize.toUInt64 ∧ members.block_count = blockCount fileSize.toUInt64
      ∧ members.qc_file_index = index := by
  obtain ⟨prod_name, vendor_name, mutex_name, parent_service, tr, hret, hmem⟩ := h
  unfold create_new_aleph_bdev at hret
  simp only [perform_bind, returns_call] at hret
  obtain ⟨bdev, tr₁, rfl, hret⟩ := hret
  -- `cancel` does not return, so neither the object nor its parent was null
  by_cases hb : bdev = 0
  · simp only [hb, if_true, returns_call] at hret
    obtain ⟨never, -⟩ := hret
    exact never.elim
  simp only [hb, if_false, returns_call] at hret
  obtain ⟨_, tr₂, rfl, mtx_grp, tr₃, rfl, lck_mtx, tr₄, rfl, reported, tr₅, rfl, hret⟩ := hret
  by_cases hp : parent_service = 0
  · simp only [hp, if_true, returns_call] at hret
    obtain ⟨never, -⟩ := hret
    exact never.elim
  simp only [hp, if_false, returns_call, pure_eq, returns_ret] at hret
  obtain ⟨_, tr₆, rfl, _, tr₇, rfl, rfl, rfl⟩ := hret
  -- the only answer to `qc_size_file` in the run is the one the size came from
  have hrep : fileSize = reported := by simpa using hmem
  subst hrep
  exact ⟨rfl, rfl, rfl⟩

/-- The members of a device made with empty names, whose allocations answered
`mtx_grp` and `lck_mtx`. -/
def newDevice (index : UInt64) (fileSize : Int64) (mtx_grp lck_mtx : UInt64) : AlephBDevMembers where
  mtx_grp := mtx_grp
  lck_mtx := lck_mtx
  size := fileSize.toUInt64
  block_count := blockCount fileSize.toUInt64
  qc_file_index := index
  vendor_name := bumpFirst (strncpy [] VENDOR_NAME_SIZE) index
  product_name := strncpy [] VENDOR_NAME_SIZE
  mutex_name := bumpFirst (strncpy [] VENDOR_NAME_SIZE) index

theorem newDevice_made (index : UInt64) (fileSize : Int64) (mtx_grp lck_mtx : UInt64) :
    Made index fileSize (newDevice index fileSize mtx_grp lck_mtx) := by
  refine ⟨[], [], [], 1, [⟨.allocClassWithName, (1 : UInt64)⟩, ⟨.init 1, ()⟩,
    ⟨.lck_grp_alloc_init (bumpFirst (strncpy [] VENDOR_NAME_SIZE) index), mtx_grp⟩,
    ⟨.lck_mtx_alloc_init mtx_grp, lck_mtx⟩, ⟨.qc_size_file index, fileSize⟩,
    ⟨.attach 1 1, (1 : UInt64)⟩, ⟨.registerService 1, ()⟩], ?_, by simp⟩
  exact (Follows.refl _).step.step.step.step.step.step.step

/-! ## What the driver relies on -/

/-- The two memories a request of one device shares with that device's other
requests: the backing file and the bounce buffer. -/
structure Part where
  file : Mem
  buffer : Mem

/-- What belongs to one request: its descriptor, the direction the descriptor
reports, and (for the statements only) the calls made so far. -/
structure Client where
  desc : Mem
  direction : UInt64
  calls : List BdevOp

/-- The client after one more call. -/
def Client.note (c : Client) (op : BdevOp) : Client := { c with calls := c.calls ++ [op] }

/-- A transfer of `length` bytes between the bounce buffer and bytes
`[offset, offset + length)` of a file of `size` bytes stays inside both. -/
def fits (size : ℕ) (length offset : UInt64) : Bool :=
  length.toNat ≤ ALEPH_BDEV_BUFFER_SIZE && offset.toNat + length.toNat ≤ size

/-- The calls of a request on the device of file `index`, of `size` bytes: each
copy moves exactly the length it is given. -/
def serve (index : UInt64) (size : ℕ) : Handler BdevOp BdevRes (Part × Client)
  | .lck_mtx_lock m, (p, c) => some ((), p, c.note (.lck_mtx_lock m))
  | .lck_mtx_unlock m, (p, c) => some ((), p, c.note (.lck_mtx_unlock m))
  | .getDirection, (p, c) => some (c.direction, p, c.note .getDirection)
  | .qc_read_file length offset i, (p, c) =>
      if i = index ∧ fits size length offset then
        some (length.toInt64, { p with buffer := copy p.buffer 0 p.file offset.toNat length.toNat },
          c.note (.qc_read_file length offset i))
      else none
  | .qc_write_file length offset i, (p, c) =>
      if i = index ∧ fits size length offset then
        some (length.toInt64, { p with file := copy p.file offset.toNat p.buffer 0 length.toNat },
          c.note (.qc_write_file length offset i))
      else none
  | .readBytes offset length, (p, c) =>
      if length.toNat ≤ ALEPH_BDEV_BUFFER_SIZE then
        some (length, { p with buffer := copy p.buffer 0 c.desc offset.toNat length.toNat },
          c.note (.readBytes offset length))
      else none
  | .writeBytes offset length, (p, c) =>
      if length.toNat ≤ ALEPH_BDEV_BUFFER_SIZE then
        some (length, p,
          { c with desc := copy c.desc offset.toNat p.buffer 0 length.toNat }.note
            (.writeBytes offset length))
      else none
  | .completionAction a t q s n, (p, c) => some ((), p, c.note (.completionAction a t q s n))
  | .cancel, _ => none

section Serve

variable {index : UInt64} {size : ℕ} {length offset : UInt64} (p : Part) (c : Client)

theorem serve_qc_read_file (h : fits size length offset = true) :
    serve index size (.qc_read_file length offset index) (p, c)
      = some (length.toInt64, ⟨p.file, copy p.buffer 0 p.file offset.toNat length.toNat⟩,
          c.note (.qc_read_file length offset index)) := if_pos ⟨rfl, h⟩

theorem serve_qc_write_file (h : fits size length offset = true) :
    serve index size (.qc_write_file length offset index) (p, c)
      = some (length.toInt64, ⟨copy p.file offset.toNat p.buffer 0 length.toNat, p.buffer⟩,
          c.note (.qc_write_file length offset index)) := if_pos ⟨rfl, h⟩

theorem serve_readBytes (h : length.toNat ≤ ALEPH_BDEV_BUFFER_SIZE) :
    serve index size (.readBytes offset length) (p, c)
      = some (length, ⟨p.file, copy p.buffer 0 c.desc offset.toNat length.toNat⟩,
          c.note (.readBytes offset length)) := if_pos h

theorem serve_writeBytes (h : length.toNat ≤ ALEPH_BDEV_BUFFER_SIZE) :
    serve index size (.writeBytes offset length) (p, c)
      = some (length, p, ⟨copy c.desc offset.toNat p.buffer 0 length.toNat, c.direction,
          c.calls ++ [.writeBytes offset length]⟩) := if_pos h

end Serve

end XnuQemuTools.BlockDev
