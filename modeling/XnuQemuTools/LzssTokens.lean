/-
The complzss format, and that `decompress_lzss` inverts it.

The format is stated without a decoder. A history is the output so far, newest byte
first, and output byte number `m` goes to cell `(4078 + m) % 4096` of the window, so
`cell` reads off a history what a cell of the window holds. `expand` is then all
there is to a token stream. `cell_eq` gives the other reading of a reference, by
distance: cell `p` is the byte output `distance n p` positions earlier.

`Slots k f ts bs` is the layout of the tokens `ts` in the bytes `bs` when `k` slots
of the flag byte `f` are used up. Its cases are the moves of the decoder: fill the
next slot, or open a group when all eight are used.

`Ring` ties the decoder's variables to the history. It holds after every `emit` by
the definition of `cell` alone: the ring *is* the map from cells to their last
writes. The flags register is `(f ||| 0xFF00) >>> k` in slot `k`, whose bit 8 is the
last bit of the sentinel (`register_refill`).
-/
import XnuQemuTools.Lzss
import Mathlib.Data.Nat.Bitwise

set_option autoImplicit false

namespace XnuQemuTools.Lzss

open Loop Memory Python

/-! ## Tokens and what they expand to -/

/-- A token: a byte, or a copy of `L` bytes from position `p` of the window. -/
inductive Token where
  | lit (b : UInt8)
  | ref (p L : ℕ) (hp : p < 4096) (hL : 3 ≤ L ∧ L ≤ 18)

/-- Where output byte number `m` goes in the window. -/
def position (m : ℕ) : ℕ := (4078 + m) % 4096

/-- What cell `q` of the window holds after an output, newest byte first: the last
byte that went there, or a space. -/
def cell : List UInt8 → ℕ → UInt8
  | [], _ => 0x20
  | b :: older, q => if position older.length = q % 4096 then b else cell older q

/-- The history after a copy of `L` bytes from position `p`, byte by byte. -/
def copyFrom : ℕ → ℕ → List UInt8 → List UInt8
  | _, 0, hist => hist
  | p, L + 1, hist => copyFrom (p + 1) L (cell hist p :: hist)

/-- The history after one more token. -/
def Token.apply (hist : List UInt8) : Token → List UInt8
  | .lit b => b :: hist
  | .ref p L _ _ => copyFrom p L hist

/-- The output of a list of tokens. -/
def expand (ts : List Token) : Bytes := (ts.foldl Token.apply []).reverse

/-- How many bytes a token stands for. -/
def Token.size : Token → ℕ
  | .lit _ => 1
  | .ref _ L _ _ => L

theorem length_copyFrom (L : ℕ) : ∀ (p : ℕ) (hist : List UInt8),
    (copyFrom p L hist).length = hist.length + L := by
  induction L with
  | zero => exact fun _ _ => rfl
  | succ L ih =>
      intro p hist
      rw [copyFrom, ih, List.length_cons]
      omega

theorem length_apply (hist : List UInt8) (t : Token) :
    (t.apply hist).length = hist.length + t.size := by
  cases t with
  | lit b => rfl
  | ref p L hp hL => exact length_copyFrom L p hist

/-! ## References by distance -/

/-- How far back position `p` is when `n` bytes have been output. -/
def distance (n p : ℕ) : ℕ := (4078 + n + (4096 - 1 - p % 4096)) % 4096 + 1

theorem distance_pos (n p : ℕ) : 1 ≤ distance n p := Nat.le_add_left 1 _

theorem distance_le (n p : ℕ) : distance n p ≤ 4096 := by
  unfold distance
  omega

/-- A copy keeps its distance: both ends move on together. -/
theorem distance_succ (n p : ℕ) : distance (n + 1) (p + 1) = distance n p := by
  unfold distance
  omega

/-- A cell holds the byte that is `distance` positions back. -/
theorem cell_eq (hist : List UInt8) (p : ℕ) :
    cell hist p = hist.getD (distance hist.length p - 1) 0x20 := by
  induction hist with
  | nil => rfl
  | cons b older ih =>
      rw [cell, List.length_cons]
      by_cases hpos : position older.length = p % 4096
      · -- the newest byte
        have hdist : distance (older.length + 1) p = 1 := by
          unfold distance
          unfold position at hpos
          omega
        rw [if_pos hpos, hdist]
        rfl
      · -- an older one, which is one position further back now
        have hdist : distance (older.length + 1) p - 1 = distance older.length p - 1 + 1 := by
          unfold distance
          unfold position at hpos
          omega
        rw [if_neg hpos, hdist, List.getD_cons_succ, ih]

/-! ## The layout -/

/-- The flag bit of a token. -/
def Token.isLiteral : Token → Bool
  | .lit _ => true
  | .ref _ _ _ _ => false

/-- The bytes of a token: a reference is the low byte of its position, and a byte
with the high nibble of the position and the length less 3. -/
def Token.bytes : Token → Bytes
  | .lit b => [b]
  | .ref p L _ _ => [UInt8.ofNat (p % 256), UInt8.ofNat (p / 256 * 16 + (L - 3))]

/-- The bytes of a list of tokens when `k` of the eight slots of flag byte `f` are
used up: the next token fills slot `k`, or the first slot of a new group. Flag bits
of slots that stay empty are arbitrary. -/
inductive Slots : ℕ → UInt8 → List Token → Bytes → Prop where
  | stop (k : ℕ) (f : UInt8) : Slots k f [] []
  | fill {k : ℕ} {f : UInt8} {t : Token} {ts : List Token} {bs : Bytes} (hk : k < 8)
      (hbit : f.toNat.testBit k = t.isLiteral) (h : Slots (k + 1) f ts bs) :
      Slots k f (t :: ts) (t.bytes ++ bs)
  | group {f g : UInt8} {t : Token} {ts : List Token} {bs : Bytes}
      (hbit : g.toNat.testBit 0 = t.isLiteral) (h : Slots 1 g ts bs) :
      Slots 8 f (t :: ts) (g :: (t.bytes ++ bs))

/-- The bytes of a token stream: groups of eight tokens, the last of up to eight,
each under its flag byte. -/
def Laid (ts : List Token) (bs : Bytes) : Prop := Slots 8 0 ts bs

/-- A complzss file: the tokens `ts`, laid out from offset 0x180 on, behind a header
with the magic, the size of the output and the size of the stream. -/
structure Packed (data : Bytes) (ts : List Token) : Prop where
  magic : slice data 0 8 = magic
  decompsize : unpackBE (slice data 12 16) = .ok (expand ts).length
  stream : ∃ bs rest, Laid ts bs ∧ data.drop 0x180 = bs ++ rest
    ∧ unpackBE (slice data 16 20) = .ok bs.length

/-- Only the flag bits from slot `k` on matter. -/
theorem Slots.congr {k : ℕ} {f f' : UInt8} {ts : List Token} {bs : Bytes} (h : Slots k f ts bs)
    (hbits : ∀ j, k ≤ j → j < 8 → f'.toNat.testBit j = f.toNat.testBit j) :
    Slots k f' ts bs := by
  induction h with
  | stop k f => exact Slots.stop k f'
  | fill hk hbit _ ih =>
      refine Slots.fill hk ?_ (ih fun j hj => hbits j (by omega))
      rw [hbits _ (Nat.le_refl _) hk, hbit]
  | group hbit h => exact Slots.group hbit h

/-- A flag byte with any one bit as wanted. -/
theorem exists_flagByte (f : UInt8) {k : ℕ} (hk : k < 8) (b : Bool) :
    ∃ g : UInt8, g.toNat.testBit k = b
      ∧ ∀ j, k + 1 ≤ j → j < 8 → g.toNat.testBit j = f.toNat.testBit j := by
  by_cases hb : f.toNat.testBit k = b
  · exact ⟨f, hb, fun _ _ _ => rfl⟩
  · -- the same byte with bit `k` flipped
    have hbit : ∀ j, (2 ^ k).testBit j = decide (k = j) := fun j => Nat.testBit_two_pow
    have hlt : f.toNat ^^^ 2 ^ k < 2 ^ 8 :=
      Nat.xor_lt_two_pow f.toNat_lt (Nat.pow_lt_pow_right (by decide) hk)
    have hbyte : (UInt8.ofNat (f.toNat ^^^ 2 ^ k)).toNat = f.toNat ^^^ 2 ^ k := by
      rw [UInt8.toNat_ofNat']
      exact Nat.mod_eq_of_lt hlt
    refine ⟨UInt8.ofNat (f.toNat ^^^ 2 ^ k), ?_, fun j hj _ => ?_⟩
    · rw [hbyte, Nat.testBit_xor, hbit]
      cases b <;> simp_all
    · rw [hbyte, Nat.testBit_xor, hbit]
      simp [show k ≠ j by omega]

/-- Every list of tokens has a layout. -/
theorem exists_laid (ts : List Token) : ∃ bs, Laid ts bs := by
  -- in any slot, for some flag byte: a token settles the bit of its own slot
  have hslots : ∀ k, k ≤ 8 → ∃ f bs, Slots k f ts bs := by
    induction ts with
    | nil => exact fun k _ => ⟨0, [], Slots.stop k 0⟩
    | cons t ts ih =>
        intro k hk
        rcases Nat.lt_or_eq_of_le hk with hlt | rfl
        · obtain ⟨f, bs, h⟩ := ih (k + 1) hlt
          obtain ⟨g, hbit, hrest⟩ := exists_flagByte f hlt t.isLiteral
          exact ⟨g, _, Slots.fill hlt hbit (h.congr hrest)⟩
        · obtain ⟨f, bs, h⟩ := ih 1 (by omega)
          obtain ⟨g, hbit, hrest⟩ := exists_flagByte f (by omega : 0 < 8) t.isLiteral
          exact ⟨0, _, Slots.group hbit (h.congr hrest)⟩
  obtain ⟨f, bs, h⟩ := hslots 8 (Nat.le_refl 8)
  exact ⟨bs, h.congr fun j hj hlt => absurd hlt (by omega)⟩

/-! ## Bits -/

theorem mask_N (x : ℕ) : x &&& (N - 1) = x % 4096 := Nat.and_two_pow_sub_one_eq_mod x 12

/-- The flags register in slot `k` under the flag byte `f`. -/
def register (f k : ℕ) : ℕ := (f ||| 0xFF00) >>> k

theorem register_succ (f k : ℕ) : register f k >>> 1 = register f (k + 1) :=
  (Nat.shiftRight_add ..).symm

/-- The sentinel: bits 8 to 15. -/
theorem testBit_sentinel (k : ℕ) :
    Nat.testBit 0xFF00 k = (decide (8 ≤ k) && decide (k < 16)) := by
  have h : 0xFF00 = (2 ^ 8 - 1) <<< 8 := rfl
  rw [h, Nat.testBit_shiftLeft, Nat.testBit_two_pow_sub_one]
  by_cases hk : 8 ≤ k
  · simp [hk]
    omega
  · simp [hk]

theorem testBit_register (f k j : ℕ) : (register f k).testBit j
    = (f.testBit (k + j) || (decide (8 ≤ k + j) && decide (k + j < 16))) := by
  rw [register, Nat.testBit_shiftRight, Nat.testBit_or, testBit_sentinel]

/-- Bit 8 of the register is the sentinel until all eight slots are used up. -/
theorem register_sentinel {f k : ℕ} (hf : f < 256) :
    register f k &&& 0x100 = 0 ↔ ¬ k < 8 := by
  have hbit : register f k &&& 0x100 = ((register f k).testBit 8).toNat * 2 ^ 8 :=
    Nat.and_two_pow _ 8
  -- the flag byte itself has nothing there
  have hbyte : f < 2 ^ (k + 8) := by
    have : 2 ^ 8 ≤ 2 ^ (k + 8) := Nat.pow_le_pow_right (by decide) (Nat.le_add_left 8 k)
    omega
  rw [hbit, testBit_register, Nat.testBit_lt_two_pow hbyte]
  by_cases hk : k < 8
  · simp [hk]
  · simp [show 8 ≤ k by omega]

/-- Bit 0 of the register is the flag of the slot. -/
theorem register_flag {f k : ℕ} (hk : k < 8) :
    register f k &&& 1 ≠ 0 ↔ f.testBit k = true := by
  have hbit : register f k &&& 1 = ((register f k).testBit 0).toNat := by
    rw [Nat.and_one_is_mod, Nat.testBit_zero]
    rcases Nat.mod_two_eq_zero_or_one (register f k) with h | h <;> simp [h]
  rw [hbit, testBit_register]
  simp [show ¬ 8 ≤ k by omega]

theorem toNat_ofNat_byte {n : ℕ} (h : n < 256) : (UInt8.ofNat n).toNat = n := by
  rw [UInt8.toNat_ofNat']
  exact Nat.mod_eq_of_lt h

theorem and_highNibble : ∀ j < 256, j &&& 0xF0 = j / 16 * 16 := by
  decide +kernel

/-- The position of a reference is put together again. -/
theorem unpack_position {p m : ℕ} (hp : p < 4096) (hm : m < 16) :
    (UInt8.ofNat (p % 256)).toNat
        ||| (((UInt8.ofNat (p / 256 * 16 + m)).toNat &&& 0xF0) <<< 4) = p := by
  have hshift : (p / 256 * 16) <<< 4 = (p / 256) <<< 8 := by
    simp only [Nat.shiftLeft_eq]
    omega
  have hnibble : (p / 256 * 16 + m) / 16 * 16 = p / 256 * 16 := by omega
  have hlow : p % 256 < 2 ^ 8 := by omega
  rw [toNat_ofNat_byte hlow, toNat_ofNat_byte (by omega), and_highNibble _ (by omega), hnibble,
    hshift, Nat.or_comm, ← Nat.shiftLeft_add_eq_or_of_lt hlow, Nat.shiftLeft_eq]
  omega

theorem unpack_length {p m : ℕ} (hp : p < 4096) (hm : m < 16) :
    (UInt8.ofNat (p / 256 * 16 + m)).toNat &&& 0x0F = m := by
  have hmask : (p / 256 * 16 + m) &&& 0x0F = (p / 256 * 16 + m) % 16 :=
    Nat.and_two_pow_sub_one_eq_mod _ 4
  rw [toNat_ofNat_byte (by omega), hmask]
  omega

/-! ## One token -/

section Token

variable {source : Source} {s : State} {hist : List UInt8} {D : ℕ}

/-- The decoder's variables when `hist` has been output. -/
structure Ring (s : State) (hist : List UInt8) (D : ℕ) : Prop where
  r : s.r = position hist.length
  dstidx : s.dstidx = hist.length
  size : s.dst.length = D
  dst : s.dst.take hist.length = hist.reverse
  text_buf : ∀ q, q < 4096 → s.text_buf q = cell hist q

/-- The other two variables may change. -/
theorem Ring.move (h : Ring s hist D) (srcidx flags : ℕ) :
    Ring { s with srcidx := srcidx, flags := flags } hist D :=
  ⟨h.r, h.dstidx, h.size, h.dst, h.text_buf⟩

/-- The stream from `srcidx` on is `bs`. -/
structure Remaining (source : Source) (srcidx : ℕ) (bs : Bytes) : Prop where
  drop : ∃ rest, source.src.drop srcidx = bs ++ rest
  srclen : srcidx + bs.length = source.srclen

/-- The flags register at the loop head, before it is shifted into slot `k`. -/
def SlotReady (flags f k : ℕ) : Prop :=
  (k < 8 ∧ flags >>> 1 = register f k) ∨ (k = 8 ∧ (flags >>> 1) &&& 0x100 = 0)

theorem start_ring (D : ℕ) : Ring (State.start D) [] D where
  r := rfl
  dstidx := rfl
  size := List.length_replicate
  dst := rfl
  text_buf _ _ := rfl

/-- No flag byte has been read at the start. -/
theorem start_flags (D : ℕ) : (State.start D).flags >>> 1 &&& 0x100 = 0 := by
  have hzero : (State.start D).flags = 0 := rfl
  rw [hzero]
  decide

theorem fetch_cons {c : UInt8} {bs : Bytes} (h : Remaining source s.srcidx (c :: bs)) :
    fetch source s = .ok (some (c, { s with srcidx := s.srcidx + 1 }))
      ∧ Remaining source (s.srcidx + 1) bs := by
  obtain ⟨⟨rest, hdrop⟩, hlen⟩ := h
  rw [List.length_cons] at hlen
  have hitem : item source.src s.srcidx = .ok c := item_of_drop hdrop
  have htail : source.src.drop (s.srcidx + 1) = bs ++ rest := by
    rw [← List.drop_drop, hdrop]
    rfl
  refine ⟨?_, ⟨rest, htail⟩, by omega⟩
  rw [fetch, if_neg (by omega), hitem]
  rfl

theorem fetch_nil (h : Remaining source s.srcidx []) : fetch source s = .ok none := by
  have hlen := h.srclen
  rw [List.length_nil] at hlen
  exact if_pos (by omega)

/-- **The ring.** Writing the next byte of the output is writing its cell. -/
theorem emit_ring (h : Ring s hist D) (hroom : hist.length < D) (c : UInt8) :
    ∃ s', emit c s = .ok s' ∧ Ring s' (c :: hist) D ∧ s'.srcidx = s.srcidx
      ∧ s'.flags = s.flags := by
  have hset : setItem s.dst s.dstidx c = .ok (s.dst.set s.dstidx c) :=
    setItem_of_lt (by rw [h.size, h.dstidx]; exact hroom)
  refine ⟨{ s with
    dst := s.dst.set s.dstidx c
    dstidx := s.dstidx + 1
    text_buf := Function.update s.text_buf s.r c
    r := (s.r + 1) &&& (N - 1) }, ?_, ⟨?_, ?_, ?_, ?_, ?_⟩, rfl, rfl⟩
  · rw [emit, hset]
    rfl
  · -- the next position
    show (s.r + 1) &&& (N - 1) = _
    rw [mask_N, h.r, List.length_cons]
    unfold position
    omega
  · rw [h.dstidx]
    rfl
  · rw [List.length_set, h.size]
  · -- the output has one byte more
    rw [List.length_cons, List.reverse_cons, ← h.dst, h.dstidx]
    have hlt : hist.length < s.dst.length := by rw [h.size]; exact hroom
    rw [List.take_succ_eq_append_getElem (by rw [List.length_set]; exact hlt),
      List.getElem_set_self, List.take_set_of_le (Nat.le_refl _)]
  · intro q hq
    -- the window has one cell changed
    rw [cell, h.r, Nat.mod_eq_of_lt hq]
    by_cases hpos : position hist.length = q
    · rw [if_pos hpos, hpos]
      exact Function.update_self ..
    · rw [if_neg hpos]
      exact (Function.update_of_ne (Ne.symm hpos) ..).trans (h.text_buf q hq)

theorem cell_mod (hist : List UInt8) (q : ℕ) : cell hist (q % 4096) = cell hist q := by
  rw [cell_eq, cell_eq]
  unfold distance
  rw [Nat.mod_mod]

/-- The copy loop may read what it has just written, and so does `copyFrom`. -/
theorem copyLoop_ring (i n : ℕ) :
    ∀ (k : ℕ) (s : State) (hist : List UInt8), Ring s hist D → hist.length + n ≤ D →
      ∃ s', copyLoop i n k s = .ok s' ∧ Ring s' (copyFrom (i + k) n hist) D
        ∧ s'.srcidx = s.srcidx ∧ s'.flags = s.flags := by
  induction n with
  | zero => exact fun k s hist h _ => ⟨s, rfl, h, rfl, rfl⟩
  | succ n ih =>
      intro k s hist h hroom
      have hread : s.text_buf ((i + k) &&& (N - 1)) = cell hist (i + k) := by
        rw [mask_N, h.text_buf _ (by omega), cell_mod]
      obtain ⟨s₁, hemit, h₁, hidx₁, hflags₁⟩ :=
        emit_ring h (by omega) (s.text_buf ((i + k) &&& (N - 1)))
      rw [hread] at h₁
      obtain ⟨s₂, hcopy, h₂, hidx₂, hflags₂⟩ := ih (k + 1) s₁ (cell hist (i + k) :: hist) h₁
        (by rw [List.length_cons]; omega)
      refine ⟨s₂, ?_, h₂, hidx₂.trans hidx₁, hflags₂.trans hflags₁⟩
      rw [copyLoop, hemit]
      exact hcopy

theorem SlotReady.empty {flags f : ℕ} (h : SlotReady flags f 8) :
    (flags >>> 1) &&& 0x100 = 0 := by
  rcases h with ⟨hk, -⟩ | ⟨-, hempty⟩
  · omega
  · exact hempty

/-- Without the sentinel, `refill` reads a flag byte. -/
theorem refill_empty (hempty : (s.flags >>> 1) &&& 0x100 = 0) :
    refill source s = (fetch source { s with flags := s.flags >>> 1 }).bind fun x =>
      match x with
      | none => .ok none
      | some (c, s) => .ok (some { s with flags := c.toNat ||| 0xFF00 }) := if_pos hempty

/-- Within a group the register is only shifted. -/
theorem refill_keep {f : UInt8} {k : ℕ} (hready : SlotReady s.flags f.toNat k) (hk : k < 8) :
    refill source s = .ok (some { s with flags := register f.toNat k }) := by
  have hshift : s.flags >>> 1 = register f.toNat k := by
    rcases hready with ⟨-, hshift⟩ | ⟨rfl, -⟩
    · exact hshift
    · omega
  have hsentinel : ¬ register f.toNat k &&& 0x100 = 0 := fun h =>
    (register_sentinel f.toNat_lt).mp h hk
  rw [refill, hshift]
  exact if_neg hsentinel

/-- When all slots are used up, the next byte is the flag byte of a new group. -/
theorem refill_group {f g : UInt8} {bs : Bytes} (hready : SlotReady s.flags f.toNat 8)
    (h : Remaining source s.srcidx (g :: bs)) :
    refill source s = .ok (some { s with flags := register g.toNat 0, srcidx := s.srcidx + 1 }) := by
  have hfetch : fetch source { s with flags := s.flags >>> 1 }
      = .ok (some (g, { s with flags := s.flags >>> 1, srcidx := s.srcidx + 1 })) :=
    (fetch_cons (s := { s with flags := s.flags >>> 1 }) h).1
  rw [refill_empty hready.empty, hfetch]
  rfl

theorem refill_stop {f : UInt8} (hready : SlotReady s.flags f.toNat 8)
    (h : Remaining source s.srcidx []) : refill source s = .ok none := by
  have hfetch : fetch source { s with flags := s.flags >>> 1 } = .ok none :=
    fetch_nil (s := { s with flags := s.flags >>> 1 }) h
  rw [refill_empty hready.empty, hfetch]
  rfl

/-- What a token does once its bytes are read. -/
def Token.write : Token → State → Except PyError State
  | .lit b, s => emit b s
  | .ref p L _ _, s => copyLoop p L 0 s

theorem bind_some (x : Except PyError State) :
    (x.bind fun s => .ok (some s)) = x.map some := by
  cases x <;> rfl

/-- In slot `k` the decoder takes the branch of the token and reads its bytes. -/
theorem token_eq {f : UInt8} {k : ℕ} {t : Token} {bs : Bytes}
    (hflags : s.flags = register f.toNat k) (hk : k < 8) (hbit : f.toNat.testBit k = t.isLiteral)
    (hsource : Remaining source s.srcidx (t.bytes ++ bs)) :
    token source s = (t.write { s with srcidx := s.srcidx + t.bytes.length }).map some
      ∧ Remaining source (s.srcidx + t.bytes.length) bs := by
  have hbranch : s.flags &&& 1 ≠ 0 ↔ t.isLiteral = true := by
    rw [hflags, register_flag hk, hbit]
  cases t with
  | lit b =>
      obtain ⟨hfetch, hrest⟩ := fetch_cons hsource
      refine ⟨?_, hrest⟩
      rw [token, if_pos (hbranch.mpr rfl), literal, hfetch]
      exact bind_some _
  | ref p L hp hL =>
      -- both bytes are read before the first one is copied
      obtain ⟨hfetch₁, hrest₁⟩ := fetch_cons hsource
      obtain ⟨hfetch₂, hrest₂⟩ := fetch_cons (s := { s with srcidx := s.srcidx + 1 }) hrest₁
      refine ⟨?_, hrest₂⟩
      have hnot : ¬ s.flags &&& 1 ≠ 0 := fun h => by cases hbranch.mp h
      have hcount : (UInt8.ofNat (p / 256 * 16 + (L - 3))).toNat &&& 0x0F = L - 3 :=
        unpack_length hp (by omega)
      have hlength : L - 3 + THRESHOLD + 1 = L := by
        unfold THRESHOLD
        omega
      rw [token, if_neg hnot, reference, hfetch₁]
      show (fetch source _).bind _ = _
      rw [hfetch₂]
      show (copyLoop (_ ||| _) ((_ &&& 0x0F) + THRESHOLD + 1) 0 _).bind _ = _
      rw [unpack_position hp (by omega), hcount, hlength]
      exact bind_some _

theorem Token.write_ring (t : Token) (hring : Ring s hist D) (hroom : hist.length + t.size ≤ D) :
    ∃ s', t.write s = .ok s' ∧ Ring s' (t.apply hist) D ∧ s'.srcidx = s.srcidx
      ∧ s'.flags = s.flags := by
  cases t with
  | lit b => exact emit_ring hring hroom b
  | ref p L hp hL => exact copyLoop_ring p L 0 s hist hring hroom

/-- **One token.** It extends the history by what it stands for. -/
theorem token_ring {f : UInt8} {k : ℕ} {t : Token} {bs : Bytes} (hring : Ring s hist D)
    (hflags : s.flags = register f.toNat k) (hk : k < 8)
    (hbit : f.toNat.testBit k = t.isLiteral)
    (hsource : Remaining source s.srcidx (t.bytes ++ bs)) (hroom : hist.length + t.size ≤ D) :
    ∃ s', token source s = .ok (some s') ∧ Ring s' (t.apply hist) D
      ∧ Remaining source s'.srcidx bs ∧ s'.flags = register f.toNat k := by
  obtain ⟨htoken, hrest⟩ := token_eq hflags hk hbit hsource
  have hring₁ : Ring { s with srcidx := s.srcidx + t.bytes.length } hist D := hring.move _ _
  obtain ⟨s', hwrite, hring', hidx, hflags'⟩ := t.write_ring hring₁ hroom
  refine ⟨s', ?_, hring', hidx ▸ hrest, hflags'.trans hflags⟩
  rw [htoken, hwrite]
  rfl

theorem token_stop (h : Remaining source s.srcidx []) : token source s = .ok none := by
  have hfetch := fetch_nil h
  rw [token]
  split
  · rw [literal, hfetch]
    rfl
  · rw [reference, hfetch]
    rfl

end Token

/-! ## The stream -/

section Stream

variable {source : Source} {D : ℕ}

/-- The slot after slot `k`. -/
theorem slotReady_succ {f k : ℕ} (hf : f < 256) (hk : k < 8) :
    SlotReady (register f k) f (k + 1) := by
  by_cases hlast : k + 1 < 8
  · exact Or.inl ⟨hlast, register_succ f k⟩
  · refine Or.inr ⟨by omega, ?_⟩
    rw [register_succ]
    exact (register_sentinel hf).mpr hlast

/-- An iteration at the end of the stream leaves the loop, whatever the flag bits of
the empty slots are. -/
theorem iteration_stop {s : State} {f : UInt8} {k : ℕ} (hk : k ≤ 8)
    (hready : SlotReady s.flags f.toNat k) (hsource : Remaining source s.srcidx []) :
    iteration source s = .ok (.stop s.dst) := by
  -- what is missing is a token, or the flag byte of another group
  rcases Nat.lt_or_eq_of_le hk with hlt | rfl
  · rw [iteration, refill_keep hready hlt]
    show (token source _).bind _ = _
    rw [token_stop (s := { s with flags := register f.toNat k }) hsource]
    rfl
  · rw [iteration, refill_stop hready hsource]
    rfl

theorem iteration_eq {s s₁ : State} (hrefill : refill source s = .ok (some s₁)) :
    iteration source s = (token source s₁).bind fun r =>
      match r with
      | none => .ok (.stop s.dst)
      | some s₂ => .ok (.next s₂) := by
  rw [iteration, hrefill]
  rfl

/-- An iteration with a token in slot `k` that there is room for. -/
theorem iteration_token {s s₁ : State} {hist : List UInt8} {f : UInt8} {k : ℕ} {t : Token}
    {bs : Bytes} (hrefill : refill source s = .ok (some s₁)) (hring : Ring s₁ hist D)
    (hflags : s₁.flags = register f.toNat k) (hk : k < 8) (hbit : f.toNat.testBit k = t.isLiteral)
    (hsource : Remaining source s₁.srcidx (t.bytes ++ bs)) (hroom : hist.length + t.size ≤ D) :
    ∃ s', iteration source s = .ok (.next s') ∧ Ring s' (t.apply hist) D
      ∧ Remaining source s'.srcidx bs ∧ SlotReady s'.flags f.toNat (k + 1) := by
  obtain ⟨s', htoken, hring', hsource', hflags'⟩ := token_ring hring hflags hk hbit hsource hroom
  refine ⟨s', ?_, hring', hsource', ?_⟩
  · rw [iteration_eq hrefill, htoken]
    rfl
  · rw [hflags']
    exact slotReady_succ f.toNat_lt hk

/-- An iteration that fills the next slot of the group. -/
theorem iteration_fill {s : State} {hist : List UInt8} {f : UInt8} {k : ℕ} {t : Token} {bs : Bytes}
    (hring : Ring s hist D) (hready : SlotReady s.flags f.toNat k) (hk : k < 8)
    (hbit : f.toNat.testBit k = t.isLiteral)
    (hsource : Remaining source s.srcidx (t.bytes ++ bs)) (hroom : hist.length + t.size ≤ D) :
    ∃ s', iteration source s = .ok (.next s') ∧ Ring s' (t.apply hist) D
      ∧ Remaining source s'.srcidx bs ∧ SlotReady s'.flags f.toNat (k + 1) :=
  iteration_token (refill_keep hready hk) (hring.move _ _) rfl hk hbit hsource hroom

/-- An iteration that opens a group and fills its first slot. -/
theorem iteration_group {s : State} {hist : List UInt8} {f g : UInt8} {t : Token} {bs : Bytes}
    (hring : Ring s hist D) (hready : SlotReady s.flags f.toNat 8)
    (hbit : g.toNat.testBit 0 = t.isLiteral)
    (hsource : Remaining source s.srcidx (g :: (t.bytes ++ bs)))
    (hroom : hist.length + t.size ≤ D) :
    ∃ s', iteration source s = .ok (.next s') ∧ Ring s' (t.apply hist) D
      ∧ Remaining source s'.srcidx bs ∧ SlotReady s'.flags g.toNat 1 :=
  iteration_token (refill_group hready hsource) (hring.move _ _) rfl (by decide) hbit
    (fetch_cons hsource).2 hroom

/-- The history only grows. -/
theorem length_foldl_apply (ts : List Token) :
    ∀ hist : List UInt8, hist.length ≤ (ts.foldl Token.apply hist).length := by
  induction ts with
  | nil => exact fun _ => Nat.le_refl _
  | cons t ts ih =>
      intro hist
      have hrest := ih (t.apply hist)
      rw [length_apply] at hrest
      rw [List.foldl_cons]
      omega

/-- **The decoder follows the layout**, one iteration a token, and one to find the
end of the stream. -/
theorem whileTrue_slots {k : ℕ} {f : UInt8} {ts : List Token} {bs : Bytes}
    (h : Slots k f ts bs) :
    ∀ (s : State) (hist : List UInt8), k ≤ 8 → Ring s hist D → SlotReady s.flags f.toNat k →
      Remaining source s.srcidx bs → (ts.foldl Token.apply hist).length = D →
      whileTrue (iteration source) (ts.length + 1) s
        = some (.ok (ts.foldl Token.apply hist).reverse) := by
  -- the token at hand fits, since the whole output does
  have hfits : ∀ (t : Token) (ts : List Token) (hist : List UInt8),
      ((t :: ts).foldl Token.apply hist).length = D → hist.length + t.size ≤ D := by
    intro t ts hist hD
    have hrest := length_foldl_apply ts (t.apply hist)
    rw [length_apply] at hrest
    rw [List.foldl_cons] at hD
    omega
  induction h with
  | stop k f =>
      intro s hist hk hring hready hsource hD
      rw [List.length_nil, whileTrue_stop (iteration_stop hk hready hsource)]
      -- the output is complete, so it is all of `dst`
      have hall := hring.dst
      rw [List.foldl_nil] at hD ⊢
      rw [hD, ← hring.size, List.take_length] at hall
      rw [hall]
  | fill hk hbit h ih =>
      intro s hist _ hring hready hsource hD
      obtain ⟨s', hiter, hring', hsource', hready'⟩ :=
        iteration_fill hring hready hk hbit hsource (hfits _ _ hist hD)
      rw [List.length_cons, whileTrue_next hiter]
      exact ih s' _ hk hring' hready' hsource' hD
  | group hbit h ih =>
      intro s hist _ hring hready hsource hD
      obtain ⟨s', hiter, hring', hsource', hready'⟩ :=
        iteration_group hring hready hbit hsource (hfits _ _ hist hD)
      rw [List.length_cons, whileTrue_next hiter]
      exact ih s' _ (by omega) hring' hready' hsource' hD

end Stream

/-! ## The loop ends -/

section Total

variable {source : Source} {s s' : State}

theorem fetch_srcidx {c : UInt8} (h : fetch source s = .ok (some (c, s'))) :
    s.srcidx < source.srclen ∧ s'.srcidx = s.srcidx + 1 := by
  unfold fetch at h
  split at h
  · cases h
  · rcases hitem : item source.src s.srcidx with e | c'
    · rw [hitem] at h
      cases h
    · rw [hitem] at h
      cases h
      exact ⟨by omega, rfl⟩

theorem emit_srcidx {c : UInt8} (h : emit c s = .ok s') : s'.srcidx = s.srcidx := by
  unfold emit at h
  rcases hset : setItem s.dst s.dstidx c with e | dst
  · rw [hset] at h
    cases h
  · rw [hset] at h
    cases h
    rfl

theorem copyLoop_srcidx (i n : ℕ) : ∀ (k : ℕ) (s s' : State),
    copyLoop i n k s = .ok s' → s'.srcidx = s.srcidx := by
  induction n with
  | zero =>
      intro k s s' h
      cases h
      rfl
  | succ n ih =>
      intro k s s' h
      rw [copyLoop] at h
      rcases hemit : emit (s.text_buf ((i + k) &&& (N - 1))) s with e | s₁
      · rw [hemit] at h
        cases h
      · rw [hemit] at h
        exact (ih (k + 1) s₁ s' h).trans (emit_srcidx hemit)

theorem refill_srcidx (h : refill source s = .ok (some s')) : s.srcidx ≤ s'.srcidx := by
  by_cases hempty : (s.flags >>> 1) &&& 0x100 = 0
  · rw [refill_empty hempty] at h
    rcases hfetch : fetch source { s with flags := s.flags >>> 1 } with e | _ | ⟨c, s₁⟩
    · rw [hfetch] at h
      cases h
    · rw [hfetch] at h
      cases h
    · rw [hfetch] at h
      cases h
      have hidx : s₁.srcidx = s.srcidx + 1 := (fetch_srcidx hfetch).2
      show s.srcidx ≤ s₁.srcidx
      omega
  · have hkeep : refill source s = .ok (some { s with flags := s.flags >>> 1 }) := if_neg hempty
    rw [hkeep] at h
    cases h
    exact Nat.le_refl _

/-- A token reads a byte at least, and none past `srclen`. -/
theorem token_srcidx (h : token source s = .ok (some s')) :
    s.srcidx < source.srclen ∧ s.srcidx < s'.srcidx := by
  unfold token literal reference at h
  rcases hfetch : fetch source s with e | _ | ⟨c, s₁⟩
  · simp only [hfetch] at h
    split at h <;> cases h
  · simp only [hfetch] at h
    split at h <;> cases h
  · obtain ⟨hlt, hidx⟩ := fetch_srcidx hfetch
    refine ⟨hlt, ?_⟩
    simp only [hfetch] at h
    split at h
    · rcases hemit : emit c s₁ with e | s₂
      · simp only [bind, Except.bind, hemit] at h
        cases h
      · simp only [bind, Except.bind, hemit] at h
        cases h
        have hsame := emit_srcidx hemit
        omega
    · -- a reference reads on
      rcases hfetch₂ : fetch source s₁ with e | _ | ⟨j, s₂⟩
      · simp only [bind, Except.bind, hfetch₂] at h
        cases h
      · simp only [bind, Except.bind, hfetch₂] at h
        cases h
      · obtain ⟨-, hidx₂⟩ := fetch_srcidx hfetch₂
        simp only [bind, Except.bind, hfetch₂] at h
        rcases hcopy : copyLoop (c.toNat ||| (j.toNat &&& 0xF0) <<< 4)
            ((j.toNat &&& 0x0F) + THRESHOLD + 1) 0 s₂ with e | s₃
        · simp only [hcopy] at h
          cases h
        · simp only [hcopy] at h
          cases h
          have hsame := copyLoop_srcidx _ _ _ _ _ hcopy
          omega

theorem iteration_srcidx (h : iteration source s = .ok (.next s')) :
    s.srcidx < source.srclen ∧ s.srcidx < s'.srcidx := by
  unfold iteration at h
  rcases hrefill : refill source s with e | _ | s₁
  · simp only [bind, Except.bind, hrefill] at h
    cases h
  · simp only [bind, Except.bind, hrefill] at h
    cases h
  · simp only [bind, Except.bind, hrefill] at h
    have hle := refill_srcidx hrefill
    rcases htoken : token source s₁ with e | _ | s₂
    · simp only [htoken] at h
      cases h
    · simp only [htoken] at h
      cases h
    · simp only [htoken] at h
      cases h
      obtain ⟨hlt, hless⟩ := token_srcidx htoken
      exact ⟨by omega, by omega⟩

/-- On any input at all, `srclen` iterations are enough to return or to raise. -/
theorem decompress_lzss_total (data : Bytes) {fuel : ℕ}
    (hfuel : ∀ srclen, unpackBE (slice data 16 20) = .ok srclen → srclen < fuel) :
    ∃ result, decompress_lzss fuel data = some result := by
  unfold decompress_lzss
  split
  · exact ⟨_, rfl⟩
  · split
    · exact ⟨_, rfl⟩
    · exact ⟨_, rfl⟩
    · rename_i decompsize srclen _ hsrclen
      have hdecreases : ∀ s s', iteration ⟨data.drop 0x180, srclen⟩ s = .ok (.next s') →
          srclen - s'.srcidx < srclen - s.srcidx := by
        intro s s' h
        obtain ⟨hlt, hless⟩ := iteration_srcidx h
        have hlt' : s.srcidx < srclen := hlt
        omega
      obtain ⟨result, hresult⟩ := whileTrue_total (fun s => srclen - s.srcidx) hdecreases fuel
        (State.start decompsize) (hfuel srclen hsrclen)
      simp only [hresult]
      exact ⟨_, rfl⟩

end Total

/-! ## The bytes of a reference in the output -/

theorem copyFrom_suffix (L : ℕ) : ∀ (p : ℕ) (hist : List UInt8), hist <:+ copyFrom p L hist := by
  induction L with
  | zero => exact fun _ hist => List.suffix_refl hist
  | succ L ih =>
      intro p hist
      exact (List.suffix_cons _ hist).trans (ih (p + 1) (cell hist p :: hist))

theorem apply_suffix (hist : List UInt8) (t : Token) : hist <:+ t.apply hist := by
  cases t with
  | lit b => exact List.suffix_cons b hist
  | ref p L hp hL => exact copyFrom_suffix L p hist

theorem foldl_apply_suffix (ts : List Token) :
    ∀ hist : List UInt8, hist <:+ ts.foldl Token.apply hist := by
  induction ts with
  | nil => exact fun hist => List.suffix_refl hist
  | cons t ts ih => exact fun hist => (apply_suffix hist t).trans (ih (t.apply hist))

/-- Byte `k` of a copy is what its cell holds after the `k` bytes before it. -/
theorem copyFrom_at (k : ℕ) : ∀ (L p : ℕ) (hist : List UInt8), k < L →
    cell (copyFrom p k hist) (p + k) :: copyFrom p k hist <:+ copyFrom p L hist := by
  induction k with
  | zero =>
      intro L p hist hk
      obtain ⟨m, rfl⟩ : ∃ m, L = m + 1 := ⟨L - 1, by omega⟩
      exact copyFrom_suffix m (p + 1) (cell hist p :: hist)
  | succ k ih =>
      intro L p hist hk
      obtain ⟨m, rfl⟩ : ∃ m, L = m + 1 := ⟨L - 1, by omega⟩
      have hrest := ih m (p + 1) (cell hist p :: hist) (by omega)
      rw [show p + 1 + k = p + (k + 1) by omega] at hrest
      exact hrest

theorem distance_add (n p k : ℕ) : distance (n + k) (p + k) = distance n p := by
  induction k with
  | zero => rfl
  | succ k ih => exact (distance_succ (n + k) (p + k)).trans ih

/-- The output at a byte of the history. -/
theorem getElem?_reverse_of_suffix {b : UInt8} {older hist : List UInt8}
    (h : b :: older <:+ hist) :
    hist.reverse[older.length]? = some b
      ∧ ∀ i, i < older.length → hist.reverse[i]? = older[older.length - 1 - i]? := by
  obtain ⟨newer, rfl⟩ := h
  rw [List.reverse_append, List.reverse_cons, List.append_assoc]
  constructor
  · rw [List.getElem?_append_right (by rw [List.length_reverse]), List.length_reverse,
      Nat.sub_self]
    rfl
  · intro i hi
    rw [List.getElem?_append_left (by rw [List.length_reverse]; exact hi),
      List.getElem?_reverse hi]

/-- Each byte of a reference is the byte output `distance` positions earlier, or a
space if there is none; the distance is that of the moment the copy starts. -/
theorem expand_ref {before after : List Token} {p L : ℕ} {hp : p < 4096} {hL : 3 ≤ L ∧ L ≤ 18}
    {k : ℕ} (hk : k < L) (n : ℕ) (hn : n = (expand before).length) :
    (expand (before ++ .ref p L hp hL :: after))[n + k]?
      = some (if distance n p ≤ n + k then
          (expand (before ++ .ref p L hp hL :: after)).getD (n + k - distance n p) 0
        else 0x20) := by
  -- the history at the start of the copy, and after `k` bytes of it
  obtain ⟨hist, hhist⟩ : ∃ hist, hist = before.foldl Token.apply [] := ⟨_, rfl⟩
  have hlen : hist.length = n := by rw [hn, expand, List.length_reverse, hhist]
  have hbyte : cell (copyFrom p k hist) (p + k) :: copyFrom p k hist
      <:+ (before ++ .ref p L hp hL :: after).foldl Token.apply [] := by
    rw [List.foldl_append, List.foldl_cons, ← hhist]
    exact (copyFrom_at k L p hist hk).trans (foldl_apply_suffix after _)
  obtain ⟨hhere, hearlier⟩ := getElem?_reverse_of_suffix hbyte
  have hcount : (copyFrom p k hist).length = n + k := by rw [length_copyFrom, hlen]
  rw [hcount] at hhere hearlier
  rw [expand, hhere, cell_eq, hcount, distance_add]
  have hpos := distance_pos n p
  by_cases hback : distance n p ≤ n + k
  · have hsource := hearlier (n + k - distance n p) (by omega)
    have hindex : n + k - 1 - (n + k - distance n p) = distance n p - 1 := by omega
    have hlt : distance n p - 1 < (copyFrom p k hist).length := by omega
    rw [hindex, List.getElem?_eq_getElem hlt] at hsource
    have hread : (List.foldl Token.apply [] (before ++ .ref p L hp hL :: after)).reverse.getD
        (n + k - distance n p) 0 = (copyFrom p k hist)[distance n p - 1] := by
      rw [List.getD_eq_getElem?_getD, hsource, Option.getD_some]
    rw [if_pos hback, hread, List.getD_eq_getElem _ _ hlt]
  · -- further back than there is output
    rw [if_neg hback, List.getD_eq_default _ _ (by omega)]

/-! ## The whole file -/

/-- **`decompress_lzss` inverts the format.** On a complzss file it returns the
expansion of the tokens, whatever the flag bits of empty slots and the bytes behind
the stream; and each byte of a reference is the one its distance denotes, from 1 to
4096 back, or a space. -/
theorem decompress_lzss_packed {data : Bytes} {ts : List Token} (h : Packed data ts) :
    (∀ fuel, ts.length < fuel → decompress_lzss fuel data = some (.ok (.returned (expand ts))))
      ∧ ∀ before after p L hp hL, ts = before ++ .ref p L hp hL :: after → ∀ k, k < L →
        1 ≤ distance (expand before).length p ∧ distance (expand before).length p ≤ 4096
          ∧ (expand ts)[(expand before).length + k]?
            = some (if distance (expand before).length p ≤ (expand before).length + k then
                (expand ts).getD
                  ((expand before).length + k - distance (expand before).length p) 0
              else 0x20) := by
  constructor
  · intro fuel hfuel
    obtain ⟨bs, rest, hlaid, hdrop, hsrclen⟩ := h.stream
    have hready : SlotReady (State.start (expand ts).length).flags (0 : UInt8).toNat 8 :=
      Or.inr ⟨rfl, start_flags _⟩
    have hrun : whileTrue (iteration ⟨data.drop 0x180, bs.length⟩) (ts.length + 1)
        (State.start (expand ts).length) = some (.ok (expand ts)) := by
      refine whileTrue_slots hlaid _ [] (by omega) (start_ring _) hready
        ⟨⟨rest, hdrop⟩, Nat.zero_add _⟩ ?_
      rw [expand, List.length_reverse]
    have hmono := whileTrue_mono (show ts.length + 1 ≤ fuel by omega) hrun
    rw [decompress_lzss, if_neg (fun hne => hne h.magic), h.decompsize, hsrclen]
    simp only [hmono, Option.map_some]
    rfl
  · rintro before after p L hp hL rfl k hk
    exact ⟨distance_pos _ _, distance_le _ _, expand_ref hk _ rfl⟩

/-- One byte, and a copy of five bytes from where it went: the copy reads the bytes it
writes. -/
def sixBytes : List Token := [.lit 0x61, .ref 4078 5 (by decide) (by decide)]

/-- The file of `sixBytes`: flag byte 1 for the literal in slot 0, and a byte behind
the stream. -/
def sixBytesFile : Bytes :=
  magic ++ [0, 0, 0, 0, 0, 0, 0, 6, 0, 0, 0, 4] ++ List.replicate 364 0
    ++ [1, 0x61, 0xee, 0xf2, 0xff]

theorem sixBytesFile_packed : Packed sixBytesFile sixBytes where
  magic := by decide
  decompsize := by decide
  stream := ⟨[1, 0x61, 0xee, 0xf2], [0xff],
    Slots.group (by decide) (Slots.fill (by decide) (by decide) (Slots.stop 2 1)),
    by decide, by decide⟩

theorem decompress_lzss_packed_sixBytes :
    decompress_lzss 3 sixBytesFile
      = some (.ok (.returned [0x61, 0x61, 0x61, 0x61, 0x61, 0x61])) :=
  (decompress_lzss_packed sixBytesFile_packed).1 3 (by decide)

end XnuQemuTools.Lzss
