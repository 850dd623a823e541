/-
The decompressor, `bootstrap_scripts/decompress_lzss.py`.

`State` holds the local variables of the loop, `iteration` is its body. The body
breaks in five places, each behind the same test of `srcidx` and each before the
read that it guards, so the test and the read are one function, `fetch`, whose
`none` is the `break`. No `break` comes after a write to `dst` in the same
iteration, so what is returned then is the `dst` the iteration began with.

The integers of the script are not bounded; `flags` is built from a byte and the
sentinel `0xFF00` and only ever shifted right. Every index into `text_buf` is below
`N`, either masked or kept so by `r &= (N - 1)`, so `text_buf` is a plain memory.
-/
import XnuQemuTools.Loop
import XnuQemuTools.Memory
import XnuQemuTools.Python

set_option autoImplicit false

namespace XnuQemuTools.Lzss

open Loop Memory Python

/-! ## The loop -/

/-- `N`, the size of the window. -/
def N : ℕ := 4096

/-- `F`, the longest reference. -/
def F : ℕ := 18

/-- `THRESHOLD`. -/
def THRESHOLD : ℕ := 2

/-- The local variables of the loop. -/
structure State where
  text_buf : Mem
  dst : Bytes
  r : ℕ
  srcidx : ℕ
  dstidx : ℕ
  flags : ℕ

/-- What does not change in the loop: `src` and `srclen`. -/
structure Source where
  src : Bytes
  srclen : ℕ

/-- `if srcidx >= srclen: break`, and then `src[srcidx]` and `srcidx += 1`. -/
def fetch (source : Source) (s : State) : Except PyError (Option (UInt8 × State)) :=
  if s.srcidx ≥ source.srclen then .ok none
  else do
    let c ← item source.src s.srcidx
    return some (c, { s with srcidx := s.srcidx + 1 })

/-- `dst[dstidx] = c` and `text_buf[r] = c`, with both indices moved on. -/
def emit (c : UInt8) (s : State) : Except PyError State := do
  let dst ← setItem s.dst s.dstidx c
  return { s with
    dst := dst
    dstidx := s.dstidx + 1
    text_buf := Function.update s.text_buf s.r c
    r := (s.r + 1) &&& (N - 1) }

/-- `flags >>= 1`, and a new flag byte when the sentinel is used up. -/
def refill (source : Source) (s : State) : Except PyError (Option State) :=
  let s := { s with flags := s.flags >>> 1 }
  -- eight shifts after a flag byte was read, the sentinel has left bit 8
  if s.flags &&& 0x100 = 0 then do
    match ← fetch source s with
    | none => return none
    | some (c, s) => return some { s with flags := c.toNat ||| 0xFF00 }
  else .ok (some s)

/-- The branch for a literal. -/
def literal (source : Source) (s : State) : Except PyError (Option State) := do
  match ← fetch source s with
  | none => return none
  | some (c, s) =>
      let s ← emit c s
      return some s

/-- `n` iterations of the copy loop, from `k` on. -/
def copyLoop (i : ℕ) : ℕ → ℕ → State → Except PyError State
  | 0, _, s => .ok s
  | n + 1, k, s => do
      let s ← emit (s.text_buf ((i + k) &&& (N - 1))) s
      copyLoop i n (k + 1) s

/-- The branch for a reference. -/
def reference (source : Source) (s : State) : Except PyError (Option State) := do
  match ← fetch source s with
  | none => return none
  | some (i, s) =>
      match ← fetch source s with
      | none => return none
      | some (j, s) =>
          let i := i.toNat ||| ((j.toNat &&& 0xF0) <<< 4)
          let j := (j.toNat &&& 0x0F) + THRESHOLD
          let s ← copyLoop i (j + 1) 0 s
          return some s

/-- The two branches. -/
def token (source : Source) (s : State) : Except PyError (Option State) :=
  if s.flags &&& 1 ≠ 0 then literal source s else reference source s

/-- The body of `while True:`. -/
def iteration (source : Source) (s : State) : Except PyError (Step State Bytes) := do
  match ← refill source s with
  -- `break`
  | none => return .stop s.dst
  | some s₁ =>
      match ← token source s₁ with
      | none => return .stop s.dst
      | some s₂ => return .next s₂

/-! ## `decompress_lzss` -/

/-- What a call of `decompress_lzss` does if it does not raise: print a message and
return nothing, or return bytes. -/
inductive Outcome where
  | printed (text : String)
  | returned (bytes : Bytes)

/-- `b"complzss"`. -/
def magic : Bytes := [0x63, 0x6f, 0x6d, 0x70, 0x6c, 0x7a, 0x73, 0x73]

/-- The variables at the loop head for the first time. -/
def State.start (decompsize : ℕ) : State where
  text_buf _ := 0x20
  dst := List.replicate decompsize 0x20
  r := N - F
  srcidx := 0
  dstidx := 0
  flags := 0

/-- `decompress_lzss`, with at most `fuel` iterations of its loop. -/
def decompress_lzss (fuel : ℕ) (data : Bytes) : Option (Except PyError Outcome) :=
  if slice data 0 8 ≠ magic then
    some (.ok (.printed "decompress_lzss: complzss magic missing"))
  else
    match unpackBE (slice data 12 16), unpackBE (slice data 16 20) with
    | .error e, _ => some (.error e)
    | .ok _, .error e => some (.error e)
    | .ok decompsize, .ok srclen =>
        let source : Source := ⟨data.drop 0x180, srclen⟩
        (whileTrue (iteration source) fuel (State.start decompsize)).map
          fun result => result.map .returned

end XnuQemuTools.Lzss
