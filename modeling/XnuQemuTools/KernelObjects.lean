/-
The IPC objects and the voucher of `gdb/xnu/xnu_types.py`.

As in `KernelLists`, a constructor reads its fields through gdb, and the object that is made
of the null pointer is `none`. `Int.land` is Python's `&`.
-/
import XnuQemuTools.KernelLists
import Mathlib.Data.Int.Bitwise

set_option autoImplicit false

namespace XnuQemuTools.KernelObjects

open Calls Calls.Prog Exceptions Gdb KernelLists

/-! ## Offsets -/

namespace IPCEntryOffsets

def IE_BITS : ℤ := 0x08
def IE_INDEX : ℤ := 0x0C
def INDEX : ℤ := 0x10

end IPCEntryOffsets

namespace IPCObjectOffsets

def IO_REFS : ℤ := 0x04
def IO_LOCK_DATA : ℤ := 0x08

end IPCObjectOffsets

namespace IPCPortOffsets

def IP_MSG : ℤ := 0x18
def DATA : ℤ := 0x60
def KDATA : ℤ := 0x68
def KDATA2 : ℤ := 0x88
def IP_CTXT : ℤ := 0x90
def IP_SPREQ : ℤ := 0x98
def IP_MSCNT : ℤ := 0x9C
def IP_SRIGHTS : ℤ := 0xA0
def IP_SORIGHTS : ℤ := 0xA4

end IPCPortOffsets

/-! ## Objects -/

structure IPCObject where
  io_bits : ℤ
  io_references : ℤ
  io_lock_data_1 : ℤ
  io_lock_data_2 : ℤ

/-- `ie_object_object` is an attribute only where `ie_object` is not null. -/
structure IPCEntry where
  address : ℤ
  ie_object : ℤ
  ie_bits : ℤ
  ie_index : ℤ
  index : ℤ
  ie_object_object : Option (Option IPCObject)

structure IPCPort where
  ip_object_object : Option IPCObject
  ip_messages : ℤ
  data : ℤ
  kdata : ℤ
  kdata2 : ℤ
  ip_context : ℤ
  ip_sprequests : ℤ
  ip_spimportant : ℤ
  ip_impdonation : ℤ
  ip_tempowner : ℤ
  ip_guarded : ℤ
  ip_strict_guard : ℤ
  ip_specialreply : ℤ
  ip_sync_link_state : ℤ
  ip_impcount : ℤ
  ip_mscount : ℤ
  ip_srights : ℤ
  ip_sorights : ℤ

structure ThreadVoucher where
  iv_hash : ℤ
  iv_sum : ℤ
  iv_refs : ℤ
  iv_table_size : ℤ
  iv_inline_table : ℤ
  iv_table : ℤ
  iv_port : ℤ
  iv_hash_link : ℤ

/-! ## Constructors -/

/-- `IPCObject.__init__`. -/
def IPCObject.init (address : ℤ) : Script (Option IPCObject) := do
  if address ≠ NULL_PTR then
    let io_bits ← get_4_byte_at address
    let io_references ← get_4_byte_at (address + IPCObjectOffsets.IO_REFS)
    let io_lock_data_1 ← get_8_byte_at (address + IPCObjectOffsets.IO_LOCK_DATA)
    let io_lock_data_2 ← get_8_byte_at (address + IPCObjectOffsets.IO_LOCK_DATA + 0x08)
    return some ⟨io_bits, io_references, io_lock_data_1, io_lock_data_2⟩
  else return none

/-- `if self.ie_object: …`. -/
def IPCEntry.find_object (ie_object : ℤ) : Script (Option (Option IPCObject)) := do
  if ie_object ≠ 0 then
    let ie_object_object ← IPCObject.init ie_object
    return some ie_object_object
  else return none

/-- `IPCEntry.__init__`. -/
def IPCEntry.init (address : ℤ) : Script (Option IPCEntry) := do
  if address ≠ NULL_PTR then
    let ie_object ← get_8_byte_at address
    let ie_bits ← get_4_byte_at (address + IPCEntryOffsets.IE_BITS)
    let ie_index ← get_4_byte_at (address + IPCEntryOffsets.IE_INDEX)
    let index ← get_4_byte_at (address + IPCEntryOffsets.INDEX)
    let ie_object_object ← IPCEntry.find_object ie_object
    return some ⟨address, ie_object, ie_bits, ie_index, index, ie_object_object⟩
  else return none

/-- `IPCPort.__init__`. -/
def IPCPort.init (address : ℤ) : Script (Option IPCPort) := do
  if address ≠ NULL_PTR then
    let ip_object_object ← IPCObject.init address
    let ip_messages ← get_8_byte_at (address + IPCPortOffsets.IP_MSG)
    let data ← get_8_byte_at (address + IPCPortOffsets.DATA)
    let kdata ← get_8_byte_at (address + IPCPortOffsets.KDATA)
    let kdata2 ← get_8_byte_at (address + IPCPortOffsets.KDATA2)
    let ip_context ← get_8_byte_at (address + IPCPortOffsets.IP_CTXT)
    let four_byte_data ← get_4_byte_at (address + IPCPortOffsets.IP_SPREQ)
    let ip_mscount ← get_4_byte_at (address + IPCPortOffsets.IP_MSCNT)
    let ip_srights ← get_4_byte_at (address + IPCPortOffsets.IP_SRIGHTS)
    let ip_sorights ← get_4_byte_at (address + IPCPortOffsets.IP_SORIGHTS)
    return some
      { ip_object_object := ip_object_object
        ip_messages := ip_messages
        data := data
        kdata := kdata
        kdata2 := kdata2
        ip_context := ip_context
        ip_sprequests := Int.land four_byte_data (1 <<< 0)
        ip_spimportant := Int.land four_byte_data (1 <<< 1)
        ip_impdonation := Int.land four_byte_data (1 <<< 2)
        ip_tempowner := Int.land four_byte_data (1 <<< 3)
        ip_guarded := Int.land four_byte_data (1 <<< 4)
        ip_strict_guard := Int.land four_byte_data (1 <<< 5)
        ip_specialreply := Int.land four_byte_data (1 <<< 6)
        ip_sync_link_state := Int.land four_byte_data 0x000001ff
        ip_impcount := Int.land four_byte_data 0xfffffe00
        ip_mscount := ip_mscount
        ip_srights := ip_srights
        ip_sorights := ip_sorights }
  else return none

/-- `ThreadVoucher.__init__`. -/
def ThreadVoucher.init (address : ℤ) : Script (Option ThreadVoucher) := do
  if address ≠ NULL_PTR then
    let iv_hash ← get_8_byte_at address
    let iv_sum ← get_8_byte_at (address + 0x04)
    let iv_refs ← get_8_byte_at (address + 0x08)
    let iv_table_size ← get_8_byte_at (address + 0x0c)
    let iv_inline_table ← get_8_byte_at (address + 0x10)
    let iv_table ← get_8_byte_at (address + 0x30)
    let iv_port ← get_8_byte_at (address + 0x38)
    let iv_hash_link ← get_8_byte_at (address + 0x40)
    return some ⟨iv_hash, iv_sum, iv_refs, iv_table_size, iv_inline_table, iv_table, iv_port,
      iv_hash_link⟩
  else return none

/-! ## What they read -/

/-- Reads succeed, `m` is what eight bytes at an address hold, and `w` what four hold. -/
structure ReadsBoth {σ : Type} (h : Session σ) (I : σ → Prop) (m w : ℤ → ℤ) : Prop
    extends Reads h I m where
  x_w_at : ∀ addr s, I s → ∃ s', h (.x_w addr) s = some (.ok (w addr), s') ∧ I s'

section Yields

variable {σ : Type} {h : Session σ} {I : σ → Prop} {m w : ℤ → ℤ} (hr : ReadsBoth h I m w)

include hr

theorem four_bytes_yields (addr : ℤ) : Yields h I (get_4_byte_at addr) fun v => v = w addr := by
  refine Yields.catch (yields_request fun s hs => ?_)
  obtain ⟨s', hop, hs'⟩ := hr.x_w_at addr s hs
  exact ⟨w addr, s', hop, hs', rfl⟩

/-- An object that is there has the bits that are in memory. -/
theorem ipcObject_init_yields {address : ℤ} (ha : address ≠ NULL_PTR) :
    Yields h I (IPCObject.init address) fun o => ∃ object, o = some object
      ∧ object.io_bits = w address := by
  rw [IPCObject.init, if_pos ha]
  refine (four_bytes_yields hr _).bind fun io_bits hbits => ?_
  refine (four_bytes_yields hr _).bind fun _ _ => ?_
  refine (get_8_byte_at_yields hr.toReads _).bind fun _ _ => ?_
  refine (get_8_byte_at_yields hr.toReads _).bind fun _ _ => ?_
  exact yields_pure ⟨_, rfl, hbits⟩

theorem find_object_yields (ie_object : ℤ) :
    Yields h I (IPCEntry.find_object ie_object) fun _ => True := by
  unfold IPCEntry.find_object
  split
  · rename_i hobject
    exact (ipcObject_init_yields hr hobject).bind fun _ _ => yields_pure trivial
  · exact yields_pure trivial

theorem ipcEntry_init_yields {address : ℤ} (ha : address ≠ NULL_PTR) :
    Yields h I (IPCEntry.init address) fun e => ∃ entry, e = some entry := by
  rw [IPCEntry.init, if_pos ha]
  refine (get_8_byte_at_yields hr.toReads _).bind fun _ _ => ?_
  refine (four_bytes_yields hr _).bind fun _ _ => ?_
  refine (four_bytes_yields hr _).bind fun _ _ => ?_
  refine (four_bytes_yields hr _).bind fun _ _ => ?_
  refine (find_object_yields hr _).bind fun _ _ => ?_
  exact yields_pure ⟨_, rfl⟩

/-- The nine values that are made of the word at `IP_SPREQ`. -/
def IPCPort.flags (port : IPCPort) : List ℤ :=
  [port.ip_sprequests, port.ip_spimportant, port.ip_impdonation, port.ip_tempowner,
    port.ip_guarded, port.ip_strict_guard, port.ip_specialreply, port.ip_sync_link_state,
    port.ip_impcount]

/-- Their masks. -/
def flagMasks : List ℤ := [1, 2, 4, 8, 16, 32, 64, 0x1ff, 0xfffffe00]

theorem ipcPort_init_yields {address : ℤ} (ha : address ≠ NULL_PTR) :
    Yields h I (IPCPort.init address) fun p => ∃ port object, p = some port
      ∧ port.ip_object_object = some object ∧ object.io_bits = w address
      ∧ port.flags = flagMasks.map (Int.land (w (address + IPCPortOffsets.IP_SPREQ))) := by
  rw [IPCPort.init, if_pos ha]
  refine (ipcObject_init_yields hr ha).bind fun o ho => ?_
  obtain ⟨object, rfl, hbits⟩ := ho
  refine (get_8_byte_at_yields hr.toReads _).bind fun _ _ => ?_
  refine (get_8_byte_at_yields hr.toReads _).bind fun _ _ => ?_
  refine (get_8_byte_at_yields hr.toReads _).bind fun _ _ => ?_
  refine (get_8_byte_at_yields hr.toReads _).bind fun _ _ => ?_
  refine (get_8_byte_at_yields hr.toReads _).bind fun _ _ => ?_
  refine (four_bytes_yields hr _).bind fun word hword => ?_
  refine (four_bytes_yields hr _).bind fun _ _ => ?_
  refine (four_bytes_yields hr _).bind fun _ _ => ?_
  refine (four_bytes_yields hr _).bind fun _ _ => ?_
  exact yields_pure ⟨_, object, rfl, rfl, hbits, hword ▸ rfl⟩

/-- Each field of a voucher is eight bytes. -/
theorem threadVoucher_init_yields {address : ℤ} (ha : address ≠ NULL_PTR) :
    Yields h I (ThreadVoucher.init address) (· = some
      { iv_hash := m address
        iv_sum := m (address + 0x04)
        iv_refs := m (address + 0x08)
        iv_table_size := m (address + 0x0c)
        iv_inline_table := m (address + 0x10)
        iv_table := m (address + 0x30)
        iv_port := m (address + 0x38)
        iv_hash_link := m (address + 0x40) }) := by
  rw [ThreadVoucher.init, if_pos ha]
  refine (get_8_byte_at_yields hr.toReads _).bind fun _ hhash => ?_
  refine (get_8_byte_at_yields hr.toReads _).bind fun _ hsum => ?_
  refine (get_8_byte_at_yields hr.toReads _).bind fun _ hrefs => ?_
  refine (get_8_byte_at_yields hr.toReads _).bind fun _ hsize => ?_
  refine (get_8_byte_at_yields hr.toReads _).bind fun _ hinline => ?_
  refine (get_8_byte_at_yields hr.toReads _).bind fun _ htable => ?_
  refine (get_8_byte_at_yields hr.toReads _).bind fun _ hport => ?_
  refine (get_8_byte_at_yields hr.toReads _).bind fun _ hlink => ?_
  subst hhash hsum hrefs hsize hinline htable hport hlink
  exact yields_pure rfl

end Yields

end XnuQemuTools.KernelObjects
