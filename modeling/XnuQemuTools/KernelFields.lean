/-
Which bytes of the memory a decoded field depends on.

The fields of a voucher are read eight bytes at a time. Its first four fields are four bytes
apart, so what is decoded as one of them has the next one in its upper half; the last three
are eight bytes apart and independent (`voucher_decoded`, `load_eq_iff`). In the same way the
nine values that a port makes of its flag word are cut out of it with nine masks, of which the
eighth, for `ip_sync_link_state`, takes in the seven flags as well as its own two bits.

`fields_independent_iff` says how far the fields are independent all the same: where the bytes
behind a four-byte field follow from the field, and where no flag is set.
-/
import XnuQemuTools.KernelPrinters
import XnuQemuTools.Words
import Mathlib.Data.Nat.Bitwise

set_option autoImplicit false

namespace XnuQemuTools.KernelFields

open Calls Calls.Prog Exceptions Gdb KernelLists KernelObjects KernelPrinters Memory Words

/-! ## Masks -/

/-- Two masked words have the bits of the word in both masks. -/
theorem land_land_land (w a b : ℕ) : (w &&& a) &&& (w &&& b) = w &&& (a &&& b) := by
  rw [Nat.and_assoc, Nat.and_left_comm a w b, ← Nat.and_assoc, Nat.and_self]

/-- Masks that overlap in `low` only cut disjoint values out of a word without bits there. -/
theorem pairwise_disjoint {w low : ℕ} {masks : List ℕ}
    (hmasks : masks.Pairwise fun a b => low &&& (a &&& b) = a &&& b) (hw : w &&& low = 0) :
    (masks.map (w &&& ·)).Pairwise fun a b => a &&& b = 0 := by
  refine List.pairwise_map.mpr (hmasks.imp fun {a b} hab => ?_)
  rw [land_land_land, ← hab, ← Nat.and_assoc, hw, Nat.zero_and]

/-- What the masks cut out of a word makes up what all of them together do. -/
theorem foldr_lor (w : ℕ) (masks : List ℕ) :
    (masks.map (w &&& ·)).foldr (· ||| ·) 0 = w &&& masks.foldr (· ||| ·) 0 := by
  induction masks with
  | nil => exact (Nat.and_zero w).symm
  | cons a masks ih =>
      rw [List.map_cons, List.foldr_cons, List.foldr_cons, ih, Nat.and_or_distrib_left]

/-- No bit below `n` is set if none of them is. -/
theorem land_low_eq_zero {w n : ℕ} (h : ∀ i < n, w &&& 2 ^ i = 0) : w &&& (2 ^ n - 1) = 0 := by
  apply Nat.eq_of_testBit_eq
  intro i
  rw [Nat.testBit_and, Nat.testBit_two_pow_sub_one, Nat.zero_testBit]
  by_cases hi : i < n
  · have hbit : w.testBit i = false := by
      have hand := h i hi
      rw [Nat.and_two_pow] at hand
      cases hw : w.testBit i with
      | false => rfl
      | true =>
          rw [hw, Bool.toNat_true, Nat.one_mul] at hand
          exact absurd hand (Nat.pow_pos (by decide)).ne'
    rw [hbit, Bool.false_and]
  · rw [decide_eq_false hi, Bool.and_false]

/-! ## Decoding -/

/-- A kernel memory whose answers are made of bytes, the low byte first. -/
structure ByteMemory extends KernelMemory where
  bytes : Mem
  x_g_bytes : ∀ addr : ℕ, x_g addr = load bytes addr 8
  x_w_bytes : ∀ addr : ℕ, x_w addr = load bytes addr 4

/-- What a constructor makes of the memory. -/
def Decoded {T : Type} (m : ByteMemory) (init : Script (Option T)) (object : T) : Prop :=
  ∃ out, Ends m.session init [] (.ok (some object)) out

/-- The bytes from `a` up to `b` are the same in both memories. -/
def AgreeOn (m m' : ByteMemory) (a b : ℕ) : Prop :=
  ∀ addr, a ≤ addr → addr < b → m.bytes addr = m'.bytes addr

/-- The fields of a voucher, less the inline table. -/
inductive VoucherField where
  | iv_hash
  | iv_sum
  | iv_refs
  | iv_table_size
  | iv_table
  | iv_port
  | iv_hash_link
  deriving DecidableEq

namespace VoucherField

/-- Where a field is. -/
def offset : VoucherField → ℕ
  | iv_hash => 0x00
  | iv_sum => 0x04
  | iv_refs => 0x08
  | iv_table_size => 0x0c
  | iv_table => 0x30
  | iv_port => 0x38
  | iv_hash_link => 0x40

/-- Where the field after it is; `iv_inline_table` is at 0x10, and after the last field nothing
is read. -/
def next : VoucherField → ℕ
  | iv_hash => 0x04
  | iv_sum => 0x08
  | iv_refs => 0x0c
  | iv_table_size => 0x10
  | iv_table => 0x38
  | iv_port => 0x40
  | iv_hash_link => 0x48

def value : VoucherField → ThreadVoucher → ℤ
  | iv_hash, voucher => voucher.iv_hash
  | iv_sum, voucher => voucher.iv_sum
  | iv_refs, voucher => voucher.iv_refs
  | iv_table_size, voucher => voucher.iv_table_size
  | iv_table, voucher => voucher.iv_table
  | iv_port, voucher => voucher.iv_port
  | iv_hash_link, voucher => voucher.iv_hash_link

/-- The fields of four bytes. -/
def narrow : List VoucherField := [iv_hash, iv_sum, iv_refs, iv_table_size]

theorem next_eq (field : VoucherField) :
    field.next = field.offset + if field ∈ narrow then 4 else 8 := by
  cases field <;> rfl

end VoucherField

/-- The word that the flags of a port are cut out of. -/
def ByteMemory.flagWord (m : ByteMemory) (address : ℕ) : ℕ := load m.bytes (address + 0x98) 4

/-- The masks that cut them out. -/
def masks : List ℕ := (List.range 7).map (2 ^ ·) ++ [0x1ff, 0xfffffe00]

theorem flagMasks_eq : flagMasks = masks.map Nat.cast := by decide

theorem decoded_of_yields {T : Type} {m : ByteMemory} {init : Script (Option T)} {P : T → Prop}
    (h : Yields m.session (fun _ => True) init fun r => ∃ object, r = some object ∧ P object) :
    ∃ object, Decoded m init object ∧ P object := by
  obtain ⟨r, out, hends, -, object, rfl, hP⟩ := h [] trivial
  exact ⟨object, ⟨out, hends⟩, hP⟩

section Decoded

variable (m : ByteMemory) {address : ℕ} (ha : address ≠ 0)

include ha

/-- Each field of a voucher is the eight bytes from its offset on. -/
theorem voucher_decoded : ∃ voucher, Decoded m (ThreadVoucher.init address) voucher
    ∧ ∀ field : VoucherField,
      field.value voucher = (load m.bytes (address + field.offset) 8 : ℕ) := by
  have haddress : (address : ℤ) ≠ NULL_PTR := Int.natCast_ne_zero.mpr ha
  refine decoded_of_yields ((threadVoucher_init_yields
    (kernelMemory_readsBoth m.toKernelMemory) haddress).mono fun r hr => ⟨_, hr, fun field => ?_⟩)
  cases field <;> exact m.x_g_bytes _

/-- Each value that is made of the flag word is the word under its mask. -/
theorem port_decoded : ∃ port, Decoded m (IPCPort.init address) port
    ∧ IPCPort.flags port = (masks.map (m.flagWord address &&& ·)).map Nat.cast := by
  have haddress : (address : ℤ) ≠ NULL_PTR := Int.natCast_ne_zero.mpr ha
  refine decoded_of_yields ((ipcPort_init_yields
    (kernelMemory_readsBoth m.toKernelMemory) haddress).mono ?_)
  rintro r ⟨port, object, rfl, -, -, hflags⟩
  have hword : m.x_w (address + IPCPortOffsets.IP_SPREQ) = (m.flagWord address : ℕ) :=
    m.x_w_bytes (address + 0x98)
  refine ⟨port, rfl, ?_⟩
  rw [hflags, hword, flagMasks_eq, List.map_map, List.map_map]
  rfl

end Decoded

/-! ## Independence -/

/-- A wide field is independent of the next one; a narrow one only if its four bytes decide
the four bytes after them. -/
theorem load_agrees_iff (m m' : ByteMemory) (address : ℕ) (field : VoucherField) :
    (AgreeOn m m' (address + field.offset) (address + field.next) →
      load m.bytes (address + field.offset) 8 = load m'.bytes (address + field.offset) 8)
    ↔ (field ∈ VoucherField.narrow →
      AgreeOn m m' (address + field.offset) (address + field.offset + 4) →
      AgreeOn m m' (address + field.offset + 4) (address + field.offset + 8)) := by
  rw [load_eq_iff, field.next_eq]
  by_cases hfield : field ∈ VoucherField.narrow
  · rw [if_pos hfield, ← Nat.add_assoc]
    constructor
    · intro hload _ hfirst addr hle hlt
      exact hload hfirst addr (by omega) hlt
    · intro hrest hfirst addr hle hlt
      by_cases hin : addr < address + field.offset + 4
      · exact hfirst addr hle hin
      · exact hrest hfield hfirst addr (Nat.not_lt.mp hin) hlt
  · rw [if_neg hfield, ← Nat.add_assoc]
    exact iff_of_true id fun h => absurd h hfield

/-- The values are disjoint where no flag is set. -/
theorem masked_disjoint_iff (w : ℕ) :
    (masks.map (w &&& ·)).Pairwise (fun a b => a &&& b = 0) ↔ w &&& 0x7f = 0 := by
  constructor
  · intro hpairs
    have happart := List.pairwise_append.mp (List.pairwise_map.mp hpairs)
    refine land_low_eq_zero (n := 7) fun i hi => ?_
    have hflag : 2 ^ i ∈ (List.range 7).map (2 ^ ·) :=
      List.mem_map.mpr ⟨i, List.mem_range.mpr hi, rfl⟩
    -- the mask of `ip_sync_link_state` takes in the flag
    have hin : ∀ i < 7, 2 ^ i &&& 0x1ff = 2 ^ i := by decide
    have hsync := happart.2.2 _ hflag 0x1ff (List.mem_cons_self)
    rwa [land_land_land, hin i hi] at hsync
  · exact pairwise_disjoint (by decide)

/-- They always make up the word. -/
theorem masked_cover {w : ℕ} (hw : w < 2 ^ 32) : (masks.map (w &&& ·)).foldr (· ||| ·) 0 = w := by
  have hall : masks.foldr (· ||| ·) 0 = 2 ^ 32 - 1 := by decide
  rw [foldr_lor, hall, Nat.and_two_pow_sub_one_of_lt_two_pow hw]

/-- One flag makes a difference to `ip_sync_link_state`. -/
theorem sync_link_state_ne {w w' i : ℕ} (hi : i < 7) (hflip : w ^^^ w' = 2 ^ i) :
    w &&& 0x1ff ≠ w' &&& 0x1ff := by
  intro heq
  have hxor : (w ^^^ w') &&& 0x1ff = 0 := by
    rw [Nat.and_xor_distrib_right, heq, Nat.xor_self]
  have hin : ∀ i < 7, 2 ^ i &&& 0x1ff ≠ 0 := by decide
  exact hin i hi (hflip ▸ hxor)

theorem foldr_lor_natCast (l : List ℕ) :
    (l.map Nat.cast).foldr Int.lor 0 = ((l.foldr (· ||| ·) 0 : ℕ) : ℤ) := by
  induction l with
  | nil => rfl
  | cons a l ih => rw [List.map_cons, List.foldr_cons, List.foldr_cons, ih]; rfl

theorem pairwise_natCast (l : List ℕ) :
    (l.map (Nat.cast : ℕ → ℤ)).Pairwise (fun a b => Int.land a b = 0)
      ↔ l.Pairwise fun a b => a &&& b = 0 := by
  rw [List.pairwise_map]
  exact ⟨fun h => h.imp Int.natCast_eq_zero.mp, fun h => h.imp Int.natCast_eq_zero.mpr⟩

/-- **How far the fields are independent.** The seven fields of a voucher are decoded alike in
two memories that agree on their own bytes just where agreement on one of the first four
extends to the four bytes after it. The nine values of a port are disjoint, and make up its
flag word, just where no flag is set; and two words that differ in one flag are never decoded
to the same eight other values. -/
theorem fields_independent_iff (m m' : ByteMemory) {address : ℕ} (ha : address ≠ 0) :
    (∃ voucher voucher', Decoded m (ThreadVoucher.init address) voucher
      ∧ Decoded m' (ThreadVoucher.init address) voucher'
      ∧ ((∀ field : VoucherField,
          AgreeOn m m' (address + field.offset) (address + field.next) →
          field.value voucher = field.value voucher')
        ↔ ∀ field ∈ VoucherField.narrow,
          AgreeOn m m' (address + field.offset) (address + field.offset + 4) →
          AgreeOn m m' (address + field.offset + 4) (address + field.offset + 8)))
    ∧ ∃ port port', Decoded m (IPCPort.init address) port
      ∧ Decoded m' (IPCPort.init address) port'
      ∧ ((IPCPort.flags port).Pairwise (fun a b => Int.land a b = 0)
          ∧ (IPCPort.flags port).foldr Int.lor 0 = m.flagWord address
        ↔ m.flagWord address &&& 0x7f = 0)
      ∧ ∀ i < 7, m.flagWord address ^^^ m'.flagWord address = 2 ^ i →
        ¬ ∀ j ≠ i, (IPCPort.flags port)[j]? = (IPCPort.flags port')[j]? := by
  constructor
  · obtain ⟨voucher, hvoucher, hvalue⟩ := voucher_decoded m ha
    obtain ⟨voucher', hvoucher', hvalue'⟩ := voucher_decoded m' ha
    refine ⟨voucher, voucher', hvoucher, hvoucher', forall_congr' fun field => ?_⟩
    rw [hvalue, hvalue', Int.natCast_inj]
    exact load_agrees_iff m m' address field
  · obtain ⟨port, hport, hflags⟩ := port_decoded m ha
    obtain ⟨port', hport', hflags'⟩ := port_decoded m' ha
    refine ⟨port, port', hport, hport', ?_, fun i hi hflip hsame => ?_⟩
    · have hword : m.flagWord address < 2 ^ 32 := load_lt (address + 0x98) 4
      rw [hflags, pairwise_natCast, foldr_lor_natCast, masked_cover hword, masked_disjoint_iff]
      exact and_iff_left rfl
    · have hsync := hsame 7 (Nat.ne_of_gt hi)
      rw [hflags, hflags'] at hsync
      exact sync_link_state_ne hi hflip (Int.natCast_inj.mp (Option.some.inj hsync))

/-- The memory with one byte 1 and all others 0. -/
def oneAt (place : ℕ) : ByteMemory where
  bytes := fun addr => if addr = place then 1 else 0
  x_g addr := load (fun addr => if addr = place then 1 else 0) addr.toNat 8
  x_w addr := load (fun addr => if addr = place then 1 else 0) addr.toNat 4
  x_s _ := ""
  print _ := 0
  x_g_bytes _ := rfl
  x_w_bytes _ := rfl

theorem oneAt_agree {place place' a b : ℕ} (h : place < a ∨ b ≤ place)
    (h' : place' < a ∨ b ≤ place') : AgreeOn (oneAt place) (oneAt place') a b := by
  intro addr hle hlt
  have hplace : addr ≠ place := by omega
  have hplace' : addr ≠ place' := by omega
  exact (if_neg hplace).trans (if_neg hplace').symm

/-- A voucher that has a port is otherwise decoded like one that has not. Of a port without
flags the values are disjoint; of one with the lowest flag they are not, nor are they those of
a port without it. -/
theorem fields_independent_iff_oneAt :
    (∃ voucher voucher', Decoded (oneAt 0x1038) (ThreadVoucher.init 0x1000) voucher
      ∧ Decoded (oneAt 0) (ThreadVoucher.init 0x1000) voucher'
      ∧ ∀ field : VoucherField,
        AgreeOn (oneAt 0x1038) (oneAt 0) (0x1000 + field.offset) (0x1000 + field.next) →
        field.value voucher = field.value voucher')
    ∧ (∃ port, Decoded (oneAt 0x1099) (IPCPort.init 0x1000) port
      ∧ (IPCPort.flags port).Pairwise (fun a b => Int.land a b = 0)
      ∧ (IPCPort.flags port).foldr Int.lor 0 = 0x100)
    ∧ ∃ port port', Decoded (oneAt 0x1098) (IPCPort.init 0x1000) port
      ∧ Decoded (oneAt 0) (IPCPort.init 0x1000) port'
      ∧ ¬ ∀ j ≠ 0, (IPCPort.flags port)[j]? = (IPCPort.flags port')[j]? := by
  have haddress : 0x1000 ≠ 0 := by decide
  refine ⟨?_, ?_, ?_⟩
  · obtain ⟨voucher, voucher', hvoucher, hvoucher', hiff⟩ :=
      (fields_independent_iff (oneAt 0x1038) (oneAt 0) haddress).1
    refine ⟨voucher, voucher', hvoucher, hvoucher', hiff.mpr fun field hfield _ => ?_⟩
    have hshort : ∀ field ∈ VoucherField.narrow, field.offset ≤ 0x0c := by decide
    have hoffset := hshort field hfield
    exact oneAt_agree (Or.inr (by omega)) (Or.inl (by omega))
  · obtain ⟨port, -, hport, -, hiff, -⟩ :=
      (fields_independent_iff (oneAt 0x1099) (oneAt 0) haddress).2
    have hword : (oneAt 0x1099).flagWord 0x1000 = 0x100 := by decide +kernel
    rw [hword] at hiff
    exact ⟨port, hport, hiff.mpr (by decide)⟩
  · obtain ⟨port, port', hport, hport', -, hflip⟩ :=
      (fields_independent_iff (oneAt 0x1098) (oneAt 0) haddress).2
    exact ⟨port, port', hport, hport', hflip 0 (by decide) (by decide +kernel)⟩

/-- The sum of a voucher is in its hash, and the lowest flag of a port in its sync link state. -/
theorem iv_hash_has_iv_sum :
    (∃ voucher voucher', Decoded (oneAt 0x1004) (ThreadVoucher.init 0x1000) voucher
      ∧ Decoded (oneAt 0) (ThreadVoucher.init 0x1000) voucher'
      ∧ AgreeOn (oneAt 0x1004) (oneAt 0) 0x1000 0x1004
      ∧ voucher.iv_hash = 0x100000000 ∧ voucher'.iv_hash = 0)
    ∧ ∃ port, Decoded (oneAt 0x1098) (IPCPort.init 0x1000) port
      ∧ port.ip_sprequests = 1 ∧ port.ip_sync_link_state = 1 := by
  have haddress : 0x1000 ≠ 0 := by decide
  constructor
  · obtain ⟨voucher, hvoucher, hvalue⟩ := voucher_decoded (oneAt 0x1004) haddress
    obtain ⟨voucher', hvoucher', hvalue'⟩ := voucher_decoded (oneAt 0) haddress
    refine ⟨voucher, voucher', hvoucher, hvoucher', ?_, ?_, ?_⟩
    · exact oneAt_agree (Or.inr (Nat.le_refl _)) (Or.inl (by decide))
    · exact (hvalue .iv_hash).trans (by decide +kernel)
    · exact (hvalue' .iv_hash).trans (by decide +kernel)
  · obtain ⟨port, hport, hflags⟩ := port_decoded (oneAt 0x1098) haddress
    have hword : (oneAt 0x1098).flagWord 0x1000 = 1 := by decide +kernel
    rw [hword] at hflags
    exact ⟨port, hport, Option.some.inj (congrArg (·[0]?) hflags),
      Option.some.inj (congrArg (·[7]?) hflags)⟩

end XnuQemuTools.KernelFields
