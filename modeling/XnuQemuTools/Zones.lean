/-
`xnu-zones`, the zones of the kernel's allocator (`gdb/xnu/zone.py`).

The command reads the zones of an array one after the other, valid or not, each with its name,
and prints those that are valid. It has no `try` block, so where memory cannot be read what is
left is everything up to the first zone that cannot be read (`zones_printed`), which includes
zones that would not be printed.
-/
import XnuQemuTools.KernelReads
import XnuQemuTools.ThreadCommands

set_option autoImplicit false

namespace XnuQemuTools.Zones

open Calls Calls.Prog Exceptions Gdb KernelPrinters KernelReads Output
open SwitchThread (in_user_space)

/-! ## Zones -/

def max_zones_ptr : ℤ := 0xfffffff00763df48
def zone_array : ℤ := 0xfffffff007624ef0
def zone_struct_size : ℤ := 0x140

namespace ZoneOffsets

def zone_name : ℤ := 0x118
def index : ℤ := 0x114
def flags : ℤ := 0x110
def flags_valid_shift : ℕ := 26
def flags_valid_mask : ℤ := 1
def sum_count : ℤ := 0x108
def page_count : ℤ := 0x100
def alloc_size : ℤ := 0xf8
def elem_size : ℤ := 0xf0
def max_size : ℤ := 0xe8
def cur_size : ℤ := 0xe0

end ZoneOffsets

structure StructZone where
  addr : ℤ
  cur_size : ℤ
  max_size : ℤ
  elem_size : ℤ
  alloc_size : ℤ
  page_count : ℤ
  sum_count : ℤ
  flags : ℤ
  index : ℤ
  zone_name : String

/-- `StructZone.__init__`. -/
def StructZone.init (addr : ℤ) : Script StructZone := do
  let cur_size ← get_8_byte_at (addr + ZoneOffsets.cur_size)
  let max_size ← get_8_byte_at (addr + ZoneOffsets.max_size)
  let elem_size ← get_8_byte_at (addr + ZoneOffsets.elem_size)
  let alloc_size ← get_8_byte_at (addr + ZoneOffsets.alloc_size)
  let page_count ← get_8_byte_at (addr + ZoneOffsets.page_count)
  let sum_count ← get_8_byte_at (addr + ZoneOffsets.sum_count)
  let flags ← get_4_byte_at (addr + ZoneOffsets.flags)
  let index ← get_4_byte_at (addr + ZoneOffsets.index)
  let name_ptr ← get_8_byte_at (addr + ZoneOffsets.zone_name)
  let zone_name ← get_string_at name_ptr
  return ⟨addr, cur_size, max_size, elem_size, alloc_size, page_count, sum_count, flags, index,
    zone_name⟩

/-- `StructZone.is_valid`. -/
def StructZone.is_valid (self : StructZone) : Bool :=
  Int.land (self.flags >>> ZoneOffsets.flags_valid_shift) ZoneOffsets.flags_valid_mask != 0

/-! ## The command -/

/-- A number in a format `0<width>x`. -/
def format_0x (width : ℕ) (n : ℤ) : String :=
  let sign := if n < 0 then "-" else ""
  let digits := String.ofList (Nat.toDigits 16 n.natAbs)
  sign ++ String.join (List.replicate (width - sign.length - digits.length) "0") ++ digits

/-- What is printed of a valid zone. -/
def zone_text (zone_addr : ℤ) (i : ℕ) (zone : StructZone) : String :=
  "Valid zone at 0x" ++ format_0x 16 zone_addr ++ " at index " ++ toString i ++ "\n"
    ++ line "        zone_name" zone.zone_name
    ++ line "        elem_size" (toString zone.elem_size)
    ++ line "        index" (toString zone.index)
    ++ line "        flags" ("0x" ++ format_0x 8 zone.flags)
    ++ line "        sum_count" (toString zone.sum_count)
    ++ line "        page_count" (toString zone.page_count)
    ++ line "        alloc_size" ("0x" ++ format_0x 16 zone.alloc_size)
    ++ line "        max_size" ("0x" ++ format_0x 16 zone.max_size)
    ++ line "        cur_size" ("0x" ++ format_0x 16 zone.cur_size)

/-- The text before the zones. -/
def zones_head (max_zones : ℤ) : String :=
  "Printing zones info:\n"
    ++ line "zone_arr_addr" ("0x" ++ format_0x 16 zone_array)
    ++ line "max_zones" (toString max_zones)

/-- The address of zone `i`. -/
def zone_addr (i : ℕ) : ℤ := zone_array + zone_struct_size * i

/-- The loop body of `print_zones`. -/
def print_zone (_ : Unit) (i : ℕ) : Script Unit := do
  let zone ← StructZone.init (zone_addr i)
  if !zone.is_valid then return ()
  else write (zone_text (zone_addr i) i zone)

/-- `PrintZoneInformationCommand.print_zones`. -/
def print_zones : Script Unit := do
  let max_zones ← get_4_byte_at max_zones_ptr
  write (zones_head max_zones)
  (List.range max_zones.toNat).foldlM print_zone ()

/-- `PrintZoneInformationCommand.invoke`. -/
def xnu_zones (_arg : String) : Script Unit := do
  if ← is_in_kernel_space then print_zones
  else write in_user_space

/-! ## What the memory says -/

/-- The zone at an address, if all of it can be read. -/
def StructZone.at (m : PartialMemory) (addr : ℤ) : Option StructZone := do
  let cur_size ← m.x_g (addr + ZoneOffsets.cur_size)
  let max_size ← m.x_g (addr + ZoneOffsets.max_size)
  let elem_size ← m.x_g (addr + ZoneOffsets.elem_size)
  let alloc_size ← m.x_g (addr + ZoneOffsets.alloc_size)
  let page_count ← m.x_g (addr + ZoneOffsets.page_count)
  let sum_count ← m.x_g (addr + ZoneOffsets.sum_count)
  let flags ← m.x_w (addr + ZoneOffsets.flags)
  let index ← m.x_w (addr + ZoneOffsets.index)
  let name_ptr ← m.x_g (addr + ZoneOffsets.zone_name)
  let zone_name ← m.x_s name_ptr
  return ⟨addr, cur_size, max_size, elem_size, alloc_size, page_count, sum_count, flags, index,
    zone_name⟩

/-- What zone `i` contributes to the output. -/
def zoneTexts (m : PartialMemory) (i : ℕ) : List String :=
  match StructZone.at m (zone_addr i) with
  | some zone => if zone.is_valid then [zone_text (zone_addr i) i zone] else []
  | none => []

/-! ## Reading a zone -/

variable {m : PartialMemory}

theorem structZone_init_fetches (addr : ℤ) :
    Fetches m (StructZone.init addr) (StructZone.at m addr) := by
  refine (get_8_byte_at_fetches _).bind fun _ => ?_
  refine (get_8_byte_at_fetches _).bind fun _ => ?_
  refine (get_8_byte_at_fetches _).bind fun _ => ?_
  refine (get_8_byte_at_fetches _).bind fun _ => ?_
  refine (get_8_byte_at_fetches _).bind fun _ => ?_
  refine (get_8_byte_at_fetches _).bind fun _ => ?_
  refine (get_4_byte_at_fetches _).bind fun _ => ?_
  refine (get_4_byte_at_fetches _).bind fun _ => ?_
  refine (get_8_byte_at_fetches _).bind fun _ => ?_
  exact (get_string_at_fetches _).bind fun _ => fetches_pure _

/-! ## Printing -/

/-- One step of the loop at a zone that can be read. -/
theorem print_zone_writes {i : ℕ} {zone : StructZone}
    (hzone : StructZone.at m (zone_addr i) = some zone) (b : Unit) :
    Writes m.session (print_zone b i) (.ok b) (zoneTexts m i) := by
  rw [zoneTexts, hzone]
  refine ((structZone_init_fetches _).writes hzone).bind_silent ?_
  by_cases hvalid : zone.is_valid = true
  · simp only [hvalid, Bool.not_true, Bool.false_eq_true, if_false, if_true]
    exact writes_request fun _ => rfl
  · simp only [hvalid, Bool.not_false, Bool.false_eq_true, if_false, if_true]
    exact writes_pure ()

/-- And at one that cannot. -/
theorem print_zone_raises {i : ℕ} (hzone : StructZone.at m (zone_addr i) = none) :
    ∃ message, ∀ b, Writes m.session (print_zone b i) (.error (.GdbError message)) [] := by
  obtain ⟨message, hraise⟩ := (structZone_init_fetches _).raises hzone
  exact ⟨message, fun _ => hraise.bind_error⟩

/-- Zones that can all be read. -/
theorem print_range_writes {l : List ℕ}
    (hread : ∀ i ∈ l, (StructZone.at m (zone_addr i)).isSome) :
    Writes m.session (l.foldlM print_zone ()) (.ok ()) (l.flatMap (zoneTexts m)) := by
  refine writes_foldlM (f := fun b _ => b) l (fun b i hi => ?_) ()
  obtain ⟨zone, hzone⟩ := Option.isSome_iff_exists.mp (hread i hi)
  exact print_zone_writes hzone b

/-- Zones of which number `k` is the first that cannot be read. -/
theorem print_range_raises {n k : ℕ} (hk : k < n)
    (hread : ∀ i < k, (StructZone.at m (zone_addr i)).isSome)
    (hzone : StructZone.at m (zone_addr k) = none) :
    ∃ message, Writes m.session ((List.range n).foldlM print_zone ())
      (.error (.GdbError message)) ((List.range k).flatMap (zoneTexts m)) := by
  obtain ⟨message, hraise⟩ := print_zone_raises hzone
  have hsplit : List.range n = List.range k ++ k :: List.range' (k + 1) (n - k - 1) := by
    have hlen : n = k + ((n - k - 1) + 1) := by omega
    rw [List.range_eq_range', List.range_eq_range']
    conv_lhs => rw [hlen]
    rw [← List.range'_append_1, Nat.zero_add, List.range'_succ]
  refine ⟨message, ?_⟩
  rw [hsplit, ← List.append_nil ((List.range k).flatMap _)]
  refine writes_foldlM_error (f := fun b _ => b) (fun b i hi => ?_) hraise ()
  obtain ⟨zone, hz⟩ := Option.isSome_iff_exists.mp (hread i (List.mem_range.mp hi))
  exact print_zone_writes hz b

/-- The zones behind their head. -/
theorem print_zones_writes {n : ℤ} (hn : m.x_w max_zones_ptr = some n) {r : Except Exn Unit}
    {out : List String}
    (hrange : Writes m.session ((List.range n.toNat).foldlM print_zone ()) r out) :
    Writes m.session print_zones r (zones_head n :: out) :=
  ((get_4_byte_at_fetches _).writes hn).bind_silent ((write_writes _).bind hrange)

theorem xnu_zones_writes {v : ℤ} (hkernel : m.x_g GLOBAL_TASKS_PTR = some v) {r : Except Exn Unit}
    {out : List String} (hzones : Writes m.session print_zones r out) (arg : String) :
    Writes m.session (xnu_zones arg) r out :=
  (in_kernel_space_writes hkernel).bind_silent hzones

/-- **The output of `xnu-zones`** on a memory that can be read in part. If all zones of the
array can be read, the command prints those that are valid, in the order of the array. Else
it raises at the first that cannot be read, valid or not, having printed the valid ones
before it. In user space it prints a notice, and without their number no zone. -/
theorem zones_printed (m : PartialMemory) (arg : String) :
    (m.x_g GLOBAL_TASKS_PTR = none →
      Writes m.session (xnu_zones arg) (.ok ()) [in_user_space])
    ∧ ∀ v, m.x_g GLOBAL_TASKS_PTR = some v →
      (m.x_w max_zones_ptr = none →
        ∃ message, Writes m.session (xnu_zones arg) (.error (.GdbError message)) [])
      ∧ ∀ n, m.x_w max_zones_ptr = some n →
        ((∀ i < n.toNat, (StructZone.at m (zone_addr i)).isSome) →
          Writes m.session (xnu_zones arg) (.ok ())
            (zones_head n :: (List.range n.toNat).flatMap (zoneTexts m)))
        ∧ ∀ k < n.toNat, (∀ i < k, (StructZone.at m (zone_addr i)).isSome) →
          StructZone.at m (zone_addr k) = none →
          ∃ message, Writes m.session (xnu_zones arg) (.error (.GdbError message))
            (zones_head n :: (List.range k).flatMap (zoneTexts m)) := by
  refine ⟨fun huser => ?_, fun v hkernel => ⟨fun hmax => ?_, fun n hn => ⟨fun hread => ?_,
    fun k hk hread hzone => ?_⟩⟩⟩
  · exact (in_user_space_writes huser).bind_silent (write_writes _)
  · obtain ⟨message, hraise⟩ := (get_4_byte_at_fetches _).raises hmax
    exact ⟨message, xnu_zones_writes hkernel hraise.bind_error arg⟩
  · exact xnu_zones_writes hkernel (print_zones_writes hn (print_range_writes fun i hi =>
      hread i (List.mem_range.mp hi))) arg
  · obtain ⟨message, hraise⟩ := print_range_raises hk hread hzone
    exact ⟨message, xnu_zones_writes hkernel (print_zones_writes hn hraise) arg⟩

/-- Three zones are in the array. The first is valid, the second is not, and of the third
the name cannot be read. -/
def thirdUnreadable : PartialMemory where
  x_g addr := if addr = zone_addr 2 + ZoneOffsets.zone_name then none else some 0
  x_w addr :=
    if addr = max_zones_ptr then some 3
    else if addr = zone_addr 0 + ZoneOffsets.flags then some 0x04000000
    else some 0
  x_s _ := some "zones"

/-- Only the first is printed. -/
theorem zones_printed_thirdUnreadable :
    ((List.range 2).flatMap (zoneTexts thirdUnreadable)).length = 1
    ∧ ∃ message, Writes thirdUnreadable.session (xnu_zones "") (.error (.GdbError message))
        (zones_head 3 :: (List.range 2).flatMap (zoneTexts thirdUnreadable)) := by
  refine ⟨by decide, (((zones_printed thirdUnreadable "").2 0 (by decide)).2 3 (by decide)).2 2
    (by decide) ?_ (by decide)⟩
  decide

end XnuQemuTools.Zones
