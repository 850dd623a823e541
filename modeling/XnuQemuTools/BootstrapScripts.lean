/-
The scripts of `bootstrap_scripts/` as commands that read a file and write one.

A signed kernel image goes through three of them: `asn1kerneldecode.py` takes the
compressed image out of its ASN.1 envelope, `decompress_lzss.py` makes the kernel of it and
`kernelcompressedextractmonitor.py` the monitor. Each file is read whole before anything is
written, and a file that is opened for writing is emptied first, also where nothing can be
written to it in the end.

Two things are not in the repository: the decoder of `pyasn1`, and which Python runs a
script. Both are in `Interpreter`, and nothing is assumed of them but what a statement says.

`prepared_iff` is exact: the three commands end well and silently on these images and no
others, and leave these files. `prepared_packed` is its use: any kernel that was packed
comes back, with its monitor.
-/
import XnuQemuTools.Exceptions
import XnuQemuTools.ExtractMonitor

set_option autoImplicit false

namespace XnuQemuTools.BootstrapScripts

open Calls Calls.Prog Exceptions Python Lzss

/-! ## Files -/

/-- What a script can raise. -/
inductive Exn where
  | python (e : PyError)
  | TypeError
  | OSError
  deriving DecidableEq

/-- A line that is printed: a text, or bytes where Python 2 prints them. -/
inductive Line where
  | text (s : String)
  | bytes (b : Bytes)
  deriving DecidableEq

/-- What a script asks the system for: `open(path, "rb").read()`, `open(path, "wb")`, a
write to the file so opened, and `print`. -/
inductive FileOp where
  | read (path : String)
  | create (path : String)
  | write (path : String) (bytes : Bytes)
  | print (line : Line)

abbrev FileVal : FileOp → Type
  | .read _ => Bytes
  | _ => Unit

/-- A script, or a part of one. -/
abbrev Script (α : Type) : Type := Raising FileOp FileVal Exn α

/-- The files, the paths that can be opened for writing, and the lines printed so far. -/
structure Disk where
  files : String → Option Bytes
  writable : String → Bool
  printed : List Line

/-- The disk with other contents in one file. -/
def Disk.put (s : Disk) (path : String) (bytes : Bytes) : Disk :=
  { s with files := Function.update s.files path (some bytes) }

/-- The disk with these contents in a file, if there are any. -/
def Disk.putSome (s : Disk) (path : String) (bytes : Bytes) : Disk :=
  if bytes = [] then s else s.put path bytes

/-- How the system answers. -/
def disk : Handler FileOp (fun op => Except Exn (FileVal op)) Disk
  | .read path, s =>
      match s.files path with
      | some bytes => some (.ok bytes, s)
      | none => some (.error .OSError, s)
  | .create path, s =>
      if s.writable path then some (.ok (), s.put path []) else some (.error .OSError, s)
  | .write path bytes, s => some (.ok (), s.put path ((s.files path).getD [] ++ bytes))
  | .print line, s => some (.ok (), { s with printed := s.printed ++ [line] })

/-! ## The scripts -/

/-- A value, or an exception. -/
def ofExcept {α : Type} : Except Exn α → Script α
  | .ok a => pure a
  | .error e => throw e

/-- `sys.argv[i]`. -/
def arg (argv : List String) (i : ℕ) : Script String :=
  ofExcept (match argv[i]? with
    | some path => .ok path
    | none => .error (.python .IndexError))

/-- `open(path, "wb").write(bytes)`: the file is open before `bytes` is evaluated. -/
def openWrite (path : String) (bytes : Except Exn Bytes) : Script Unit := do
  request (FileOp.create path)
  request (FileOp.write path (← ofExcept bytes))

/-- What is not in the repository: the `pyasn1` of an installation, with what a decoded
value does, and of its Python the text of an `UnboundLocalError` and the version. -/
structure Interpreter where
  Value : Type
  der_decoder : Bytes → Except String Value
  item : Value → ℕ → Except String Value
  str : Value → Except String String
  bytearray : Value → Except Exn Bytes
  unbound : String
  python3 : Bool

section Asn1

variable (py : Interpreter)

/-- What a `decode` of the three ASN.1 scripts returns. -/
inductive Decoded where
  | none
  | empty
  | element (v : py.Value)

/-- `bytearray(out_data)`. -/
def bytearray : Decoded py → Except Exn Bytes
  | .none => .error .TypeError
  | .empty => if py.python3 then .error .TypeError else .ok []
  | .element v => py.bytearray v

/-- The second `try` block, where `decoded` is bound. -/
def element (tag : String) (decoded : py.Value) : Except String (List String × Decoded py) := do
  let first ← py.str (← py.item decoded 0)
  if "IM4P" ≠ first then
    return (["failed: unexpected element: " ++ first], .empty)
  let second ← py.str (← py.item decoded 1)
  if tag ≠ second then
    return (["failed: unexpected element: " ++ second], .empty)
  return ([], .element (← py.item decoded 3))

/-- `decode`: the lines it prints, and what it returns. -/
def decode (tag : String) (data : Bytes) : List String × Decoded py :=
  match py.der_decoder data with
  | .error e =>
      (["can't asn1 decode the file given: " ++ e, "unexpected exception: " ++ py.unbound], .none)
  | .ok decoded =>
      match element py tag decoded with
      | .error e => (["unexpected exception: " ++ e], .none)
      | .ok result => result

/-- The three ASN.1 scripts, which differ in the tag they ask for. -/
def asn1decode (tag : String) (argv : List String) : Script Unit := do
  let data ← request (FileOp.read (← arg argv 1))
  let (lines, out_data) := decode py tag data
  lines.forM fun line => request (FileOp.print (.text line))
  openWrite (← arg argv 2) (bytearray py out_data)

def asn1kerneldecode : List String → Script Unit := asn1decode py "krnl"
def asn1dtredecode : List String → Script Unit := asn1decode py "dtre"
def asn1rdskdecode : List String → Script Unit := asn1decode py "rdsk"

end Asn1

theorem unpackBE_lt {b : Bytes} {n : ℕ} (h : unpackBE b = .ok n) : n < 2 ^ 32 := by
  unfold unpackBE at h
  split at h
  · rename_i b₀ b₁ b₂ b₃
    obtain rfl := Except.ok.inj h
    have h₀ := b₀.toNat_lt
    have h₁ := b₁.toNat_lt
    have h₂ := b₂.toNat_lt
    have h₃ := b₃.toNat_lt
    omega
  · cases h

/-- `2 ^ 32` iterations are enough for every file. -/
theorem decompress_lzss_isSome (data : Bytes) : (Lzss.decompress_lzss (2 ^ 32) data).isSome := by
  obtain ⟨result, hresult⟩ := decompress_lzss_total data fun _ h => unpackBE_lt h
  rw [hresult]
  rfl

/-- A call of `decompress_lzss`. -/
def decompressed (data : Bytes) : Except PyError Outcome :=
  (Lzss.decompress_lzss (2 ^ 32) data).get (decompress_lzss_isSome data)

/-- What the call prints, and `if data: open(sys.argv[2], "wb").write(data)`. -/
def ifData (argv : List String) : Outcome → Script Unit
  | .printed text => request (FileOp.print (.text text))
  | .returned bytes => if bytes ≠ [] then do openWrite (← arg argv 2) (.ok bytes) else pure ()

/-- `decompress_lzss.py`. -/
def decompress_lzss (argv : List String) : Script Unit := do
  let data ← request (FileOp.read (← arg argv 1))
  ifData argv (← ofExcept ((decompressed data).mapError .python))

/-- `kernelcompressedextractmonitor.py`. -/
def kernelcompressedextractmonitor (argv : List String) : Script Unit := do
  let data ← request (FileOp.read (← arg argv 1))
  let extracted ← ofExcept ((Lzss.decode data).mapError .python)
  extracted.printed.forM fun line => request (FileOp.print (.bytes line))
  openWrite (← arg argv 2) (.ok extracted.returned)

/-! ## Scripts that end well -/

section Ends

variable {s s' : Disk} {path : String}

theorem ends_ofExcept {α : Type} {x : Except Exn α} {a : α} :
    Ends disk (ofExcept x) s (.ok a) s' ↔ x = .ok a ∧ s' = s := by
  cases x with
  | ok b =>
      rw [ofExcept, ends_pure_ok, Except.ok.injEq]
      exact and_congr_left fun _ => eq_comm
  | error e => exact iff_of_false not_ends_throw (fun h => nomatch h.1)

theorem mapError_ok {ε ε' α : Type} {f : ε → ε'} {x : Except ε α} {a : α} :
    x.mapError f = .ok a ↔ x = .ok a := by
  cases x with
  | ok b => rw [Except.mapError, Except.ok.injEq, Except.ok.injEq]
  | error e => exact ⟨fun h => (nomatch h), fun h => (nomatch h)⟩

theorem ends_arg {argv : List String} {i : ℕ} :
    Ends disk (arg argv i) s (.ok path) s' ↔ argv[i]? = some path ∧ s' = s := by
  rw [arg, ends_ofExcept]
  cases argv[i]? <;> simp

theorem ends_read {data : Bytes} :
    Ends disk (request (FileOp.read path)) s (.ok data) s' ↔ s.files path = some data ∧ s' = s := by
  rw [ends_request_iff, disk]
  cases s.files path <;> simp [eq_comm]

theorem ends_print {line : Line} {u : Unit} :
    Ends disk (request (FileOp.print line)) s (.ok u) s'
      ↔ s' = { s with printed := s.printed ++ [line] } := by
  rw [ends_request_iff, disk]
  simp [eq_comm]

theorem ends_prints {α : Type} (line : α → Line) (lines : List α) : ∀ {s s' : Disk},
    Ends disk (lines.forM fun a => request (FileOp.print (line a))) s (.ok ()) s'
      ↔ s' = { s with printed := s.printed ++ lines.map line } := by
  induction lines with
  | nil =>
      intro s s'
      simp [ends_pure_ok]
  | cons a lines ih =>
      intro s s'
      have hstep : Ends disk (List.forM (a :: lines) fun a => request (FileOp.print (line a)))
          s (.ok ()) s' ↔ _ := ends_bind_ok
      rw [hstep]
      constructor
      · rintro ⟨_, t, hprint, hprints⟩
        obtain rfl := ends_print.mp hprint
        rw [ih.mp hprints, List.append_assoc]
        rfl
      · rintro rfl
        refine ⟨(), _, ends_print.mpr rfl, ih.mpr ?_⟩
        rw [List.append_assoc]
        rfl

@[simp] theorem Disk.put_files_self (s : Disk) (path : String) (bytes : Bytes) :
    (s.put path bytes).files path = some bytes := Function.update_self _ _ _

@[simp] theorem Disk.put_files_of_ne {path path' : String} (hne : path' ≠ path) (s : Disk)
    (bytes : Bytes) : (s.put path bytes).files path' = s.files path' :=
  Function.update_of_ne hne _ _

@[simp] theorem Disk.putSome_files_of_ne {path path' : String} (hne : path' ≠ path) (s : Disk)
    (bytes : Bytes) : (s.putSome path bytes).files path' = s.files path' := by
  rw [Disk.putSome]
  split
  · rfl
  · exact Disk.put_files_of_ne hne s bytes

@[simp] theorem Disk.putSome_writable (s : Disk) (path : String) (bytes : Bytes) :
    (s.putSome path bytes).writable = s.writable := by
  rw [Disk.putSome]
  split <;> rfl

@[simp] theorem Disk.putSome_printed (s : Disk) (path : String) (bytes : Bytes) :
    (s.putSome path bytes).printed = s.printed := by
  rw [Disk.putSome]
  split <;> rfl

/-- Two files are written in either order. -/
theorem Disk.putSome_put {path path' : String} (hne : path' ≠ path) (s : Disk)
    (bytes bytes' : Bytes) :
    (s.put path' bytes').putSome path bytes = (s.putSome path bytes).put path' bytes' := by
  rw [Disk.putSome, Disk.putSome]
  split
  · rfl
  · simp only [Disk.put, Function.update_comm hne]

theorem Disk.put_put (s : Disk) (path : String) (bytes bytes' : Bytes) :
    (s.put path bytes).put path bytes' = s.put path bytes' := by
  rw [Disk.put, Disk.put, Disk.put, Function.update_idem]

theorem ends_openWrite {bytes : Except Exn Bytes} :
    Ends disk (openWrite path bytes) s (.ok ()) s'
      ↔ s.writable path ∧ ∃ b, bytes = .ok b ∧ s' = s.put path b := by
  have hcreate : ∀ t, Ends disk (request (FileOp.create path)) s (.ok ()) t
      ↔ s.writable path ∧ t = s.put path [] := by
    intro t
    rw [ends_request_iff, disk]
    cases s.writable path <;> simp [eq_comm]
  have hwrite : ∀ b, Ends disk (request (FileOp.write path b)) (s.put path []) (.ok ()) s'
      ↔ s' = s.put path b := by
    intro b
    rw [ends_request_iff, disk, Disk.put_files_self, Option.getD_some, List.nil_append,
      Disk.put_put]
    simp [eq_comm]
  simp only [openWrite, ends_bind_ok, hcreate, ends_ofExcept]
  constructor
  · rintro ⟨_, _, ⟨hw, rfl⟩, b, _, ⟨hb, rfl⟩, h⟩
    exact ⟨hw, b, hb, (hwrite b).mp h⟩
  · rintro ⟨hw, b, hb, h⟩
    exact ⟨(), _, ⟨hw, rfl⟩, b, _, ⟨hb, rfl⟩, (hwrite b).mpr h⟩

end Ends

/-- The script ends well and prints nothing. -/
def Silent (p : Script Unit) (s s' : Disk) : Prop :=
  Ends disk p s (.ok ()) s' ∧ s'.printed = s.printed

/-- `data` is an IM4P with this tag, and `bytes` is its fourth element. -/
def IsIm4p (py : Interpreter) (tag : String) (data bytes : Bytes) : Prop :=
  ∃ decoded first second fourth, py.der_decoder data = .ok decoded
    ∧ py.item decoded 0 = .ok first ∧ py.str first = .ok "IM4P"
    ∧ py.item decoded 1 = .ok second ∧ py.str second = .ok tag
    ∧ py.item decoded 3 = .ok fourth ∧ py.bytearray fourth = .ok bytes

section Silent

variable {py : Interpreter} {tag script src dst : String} {data bytes : Bytes} {s s' : Disk}

theorem except_bind_ok {ε α β : Type} {x : Except ε α} {f : α → Except ε β} {b : β} :
    (x >>= f) = .ok b ↔ ∃ a, x = .ok a ∧ f a = .ok b := by
  cases x with
  | ok a => exact ⟨fun h => ⟨a, rfl, h⟩, fun ⟨_, ha, h⟩ => Except.ok.inj ha ▸ h⟩
  | error e => exact ⟨fun h => (nomatch h), fun ⟨_, ha, _⟩ => (nomatch ha)⟩

/-- The block says something whenever it does not return an element. -/
theorem element_silent {decoded : py.Value} {out : Decoded py} :
    element py tag decoded = .ok ([], out)
      ↔ ∃ first second fourth, py.item decoded 0 = .ok first ∧ py.str first = .ok "IM4P"
        ∧ py.item decoded 1 = .ok second ∧ py.str second = .ok tag
        ∧ py.item decoded 3 = .ok fourth ∧ out = .element fourth := by
  constructor
  · intro h
    obtain ⟨first, hfirst, h⟩ := except_bind_ok.mp h
    obtain ⟨magic, hmagic, h⟩ := except_bind_ok.mp h
    by_cases hIM4P : "IM4P" = magic
    · rw [if_neg (not_not_intro hIM4P)] at h
      obtain ⟨second, hsecond, h⟩ := except_bind_ok.mp h
      obtain ⟨tag', htag, h⟩ := except_bind_ok.mp h
      by_cases heq : tag = tag'
      · rw [if_neg (not_not_intro heq)] at h
        obtain ⟨fourth, hfourth, h⟩ := except_bind_ok.mp h
        exact ⟨first, second, fourth, hfirst, hIM4P ▸ hmagic, hsecond, heq ▸ htag, hfourth,
          (Prod.mk.inj (Except.ok.inj h)).2.symm⟩
      · rw [if_pos heq] at h
        cases h
    · rw [if_pos hIM4P] at h
      cases h
  · rintro ⟨first, second, fourth, hfirst, hmagic, hsecond, htag, hfourth, rfl⟩
    refine except_bind_ok.mpr ⟨first, hfirst, except_bind_ok.mpr ⟨_, hmagic, ?_⟩⟩
    rw [if_neg (not_not_intro rfl)]
    refine except_bind_ok.mpr ⟨second, hsecond, except_bind_ok.mpr ⟨_, htag, ?_⟩⟩
    rw [if_neg (not_not_intro rfl)]
    exact except_bind_ok.mpr ⟨fourth, hfourth, rfl⟩

theorem decode_silent {out : Decoded py} :
    decode py tag data = ([], out) ↔ ∃ decoded, py.der_decoder data = .ok decoded
      ∧ element py tag decoded = .ok ([], out) := by
  rw [decode]
  cases py.der_decoder data with
  | error e => exact ⟨fun h => (nomatch h), fun ⟨_, h, _⟩ => (nomatch h)⟩
  | ok decoded =>
      cases helement : element py tag decoded with
      | error e =>
          refine ⟨fun h => ?_, fun ⟨_, h, h'⟩ => ?_⟩
          · simp only [helement] at h
            cases h
          · cases h
            cases helement.symm.trans h'
      | ok result =>
          refine ⟨fun h => ⟨decoded, rfl, ?_⟩, fun ⟨_, h, h'⟩ => ?_⟩
          · simp only [helement] at h
            rw [helement, h]
          · cases h
            simp only [helement]
            exact Except.ok.inj (helement.symm.trans h')

theorem asn1decode_silent :
    Silent (asn1decode py tag [script, src, dst]) s s'
      ↔ ∃ data bytes, s.files src = some data ∧ IsIm4p py tag data bytes ∧ s.writable dst
        ∧ s' = s.put dst bytes := by
  have hruns : Ends disk (asn1decode py tag [script, src, dst]) s (.ok ()) s'
      ↔ ∃ data, s.files src = some data ∧ s.writable dst
        ∧ ∃ bytes, bytearray py (decode py tag data).2 = .ok bytes
          ∧ s' = Disk.put { s with printed := s.printed ++ (decode py tag data).1.map .text }
              dst bytes := by
    simp only [asn1decode, ends_bind_ok, ends_arg, ends_prints Line.text, ends_openWrite]
    constructor
    · rintro ⟨_, _, ⟨harg, rfl⟩, data, _, hread, _, _, rfl, _, _, ⟨harg', rfl⟩, hw, bytes,
        hbytes, rfl⟩
      obtain ⟨hdata, rfl⟩ := ends_read.mp hread
      cases harg
      cases harg'
      exact ⟨data, hdata, hw, bytes, hbytes, rfl⟩
    · rintro ⟨data, hdata, hw, bytes, hbytes, rfl⟩
      exact ⟨src, s, ⟨rfl, rfl⟩, data, s, ends_read.mpr ⟨hdata, rfl⟩, (), _, rfl, dst, _,
        ⟨rfl, rfl⟩, hw, bytes, hbytes, rfl⟩
  rw [Silent, hruns]
  constructor
  · rintro ⟨⟨data, hdata, hw, bytes, hbytes, rfl⟩, hprinted⟩
    have hlines : (decode py tag data).1 = [] :=
      List.map_eq_nil_iff.mp (List.append_right_eq_self.mp hprinted)
    obtain ⟨decoded, hdecoded, helement⟩ :=
      decode_silent.mp (show decode py tag data = ([], (decode py tag data).2) by rw [← hlines])
    obtain ⟨first, second, fourth, hfirst, hmagic, hsecond, htag, hfourth, hout⟩ :=
      element_silent.mp helement
    rw [hout] at hbytes
    refine ⟨data, bytes, hdata, ⟨decoded, first, second, fourth, hdecoded, hfirst, hmagic, hsecond,
      htag, hfourth, hbytes⟩, hw, ?_⟩
    rw [hlines, List.map_nil, List.append_nil]
  · rintro ⟨data, bytes, hdata, ⟨decoded, first, second, fourth, hdecoded, hfirst, hmagic, hsecond,
      htag, hfourth, hbytes⟩, hw, rfl⟩
    have hdecode : decode py tag data = ([], .element fourth) := decode_silent.mpr
      ⟨decoded, hdecoded, element_silent.mpr
        ⟨first, second, fourth, hfirst, hmagic, hsecond, htag, hfourth, rfl⟩⟩
    refine ⟨⟨data, hdata, hw, bytes, ?_, ?_⟩, rfl⟩
    · rw [hdecode]
      exact hbytes
    · rw [hdecode, List.map_nil, List.append_nil]

/-- A value is returned without a message. -/
theorem decode_element {lines : List String} {v : py.Value}
    (h : decode py tag data = (lines, .element v)) : lines = [] := by
  rw [decode] at h
  split at h
  · cases h
  · split at h
    · cases h
    · rename_i decoded _ _ helement
      rw [h] at helement
      obtain ⟨_, _, helement⟩ := except_bind_ok.mp helement
      obtain ⟨first, _, helement⟩ := except_bind_ok.mp helement
      split at helement
      · cases helement
      obtain ⟨_, _, helement⟩ := except_bind_ok.mp helement
      obtain ⟨second, _, helement⟩ := except_bind_ok.mp helement
      split at helement
      · cases helement
      obtain ⟨_, _, helement⟩ := except_bind_ok.mp helement
      exact (Prod.mk.inj (Except.ok.inj helement)).1.symm

/-- **What an ASN.1 script leaves in its output**: the fourth element of an IM4P with its tag,
and nothing for any other input, which it does not pass over in silence. What was in the file
before is lost in both cases, and no other file changes. -/
theorem asn1decode_output (hdata : s.files src = some data) (hw : s.writable dst) :
    ∃ r s', Ends disk (asn1decode py tag [script, src, dst]) s r s'
      ∧ (∀ path, path ≠ dst → s'.files path = s.files path)
      ∧ (∀ bytes, IsIm4p py tag data bytes →
          r = .ok () ∧ s'.printed = s.printed ∧ s'.files dst = some bytes)
      ∧ ((¬ ∃ bytes, IsIm4p py tag data bytes) →
          s'.files dst = some [] ∧ (r = .ok () → s'.printed ≠ s.printed)) := by
  have hruns : ∀ {r s'}, Ends disk (openWrite dst (bytearray py (decode py tag data).2))
      { s with printed := s.printed ++ (decode py tag data).1.map .text } r s' →
      Ends disk (asn1decode py tag [script, src, dst]) s r s' := fun h =>
    (ends_arg.mpr ⟨rfl, rfl⟩).bind ((ends_read.mpr ⟨hdata, rfl⟩).bind
      (((ends_prints Line.text _).mpr rfl).bind ((ends_arg.mpr ⟨rfl, rfl⟩).bind h)))
  have him4p : ∀ {r s'}, Ends disk (asn1decode py tag [script, src, dst]) s r s' →
      ∀ bytes, IsIm4p py tag data bytes → r = .ok () ∧ s' = s.put dst bytes := by
    intro r s' h bytes hbytes
    exact h.unique (asn1decode_silent.mpr ⟨data, bytes, hdata, hbytes, hw, rfl⟩).1
  have hsilent : ∀ {s'}, Ends disk (asn1decode py tag [script, src, dst]) s (.ok ()) s' →
      s'.printed = s.printed → ∃ bytes, IsIm4p py tag data bytes := by
    intro s' h hprinted
    obtain ⟨data', bytes, hdata', hbytes, -⟩ := asn1decode_silent.mp ⟨h, hprinted⟩
    obtain rfl : data = data' := Option.some.inj (hdata.symm.trans hdata')
    exact ⟨bytes, hbytes⟩
  rcases hb : bytearray py (decode py tag data).2 with e | b
  · -- the file is open by then
    have hends := hruns (show Ends disk (openWrite dst _) _ (.error e) (Disk.put _ dst []) from by
      rw [hb]
      exact Ends.bind (ends_request (if_pos hw)) rfl)
    refine ⟨_, _, hends, fun path hpath => Disk.put_files_of_ne hpath _ _, fun bytes hbytes => ?_,
      fun _ => ⟨Disk.put_files_self _ _ _, fun h => (nomatch h)⟩⟩
    cases (him4p hends bytes hbytes).1
  · have hends := hruns (ends_openWrite.mpr ⟨hw, b, hb, rfl⟩)
    refine ⟨_, _, hends, fun path hpath => Disk.put_files_of_ne hpath _ _, fun bytes hbytes => ?_,
      fun hno => ⟨?_, fun _ hprinted => hno (hsilent hends hprinted)⟩⟩
    · obtain ⟨hr, hs'⟩ := him4p hends bytes hbytes
      rw [hs']
      exact ⟨hr, rfl, Disk.put_files_self _ _ _⟩
    · rw [Disk.put_files_self]
      rcases hdecode : decode py tag data with ⟨lines, _ | _ | v⟩
      · rw [hdecode] at hb
        cases hb
      · rw [hdecode, bytearray] at hb
        split at hb
        · cases hb
        · cases hb
          rfl
      · refine absurd (hsilent hends ?_) hno
        rw [Disk.put, hdecode, decode_element hdecode]
        exact List.append_nil _

/-- An envelope with the file of `sixBytes` in it. -/
def smallIm4p : Bytes :=
  [0x30, 0x82, 0x01, 0x98, 0x16, 4] ++ CString.ascii "IM4P" ++ [0x16, 4] ++ CString.ascii "krnl"
    ++ [0x16, 1] ++ CString.ascii "x" ++ [0x04, 0x82, 0x01, 0x85] ++ sixBytesFile

/-- A decoder that knows this envelope: a value is a list of strings. -/
def smallPy : Interpreter where
  Value := List Bytes
  der_decoder data :=
    if data = smallIm4p then
      .ok [CString.ascii "IM4P", CString.ascii "krnl", CString.ascii "x", sixBytesFile]
    else .error "unknown"
  item v i := match v[i]? with
    | some b => .ok [b]
    | none => .error "Component index out of range"
  str v := .ok (String.ofList (v.flatten.map fun c => Char.ofNat c.toNat))
  bytearray v := .ok v.flatten
  unbound := "local variable 'decoded' referenced before assignment"
  python3 := true

theorem smallPy_decodes : smallPy.der_decoder smallIm4p
    = .ok [CString.ascii "IM4P", CString.ascii "krnl", CString.ascii "x", sixBytesFile] := by
  have hdecode : ∀ data, data = smallIm4p → smallPy.der_decoder data
      = .ok [CString.ascii "IM4P", CString.ascii "krnl", CString.ascii "x", sixBytesFile] :=
    fun _ h => if_pos h
  exact hdecode _ rfl

theorem smallIm4p_isIm4p : IsIm4p smallPy "krnl" smallIm4p sixBytesFile := by
  have hbytes : ∀ b : Bytes, smallPy.bytearray [b] = .ok b := fun b =>
    congrArg Except.ok (List.append_nil b)
  exact ⟨_, _, _, _, smallPy_decodes, rfl, by decide, rfl, by decide, rfl, hbytes _⟩

/-- A disk with that envelope alone. -/
def smallDisk : Disk where
  files path := if path = "im4p" then some smallIm4p else none
  writable _ := true
  printed := []

/-- The wrong script for the envelope: the output is empty. -/
theorem asn1decode_output_rdsk : ∃ r s',
    Ends disk (asn1rdskdecode smallPy ["asn1rdskdecode.py", "im4p", "rdsk"]) smallDisk r s'
      ∧ s'.files "rdsk" = some [] := by
  obtain ⟨r, s', hends, -, -, hrefused⟩ := @asn1decode_output smallPy "rdsk" "asn1rdskdecode.py"
    "im4p" "rdsk" smallIm4p smallDisk rfl rfl
  refine ⟨r, s', hends, (hrefused ?_).1⟩
  rintro ⟨_, decoded, _, second, _, hdecoded, -, -, hsecond, htag, -⟩
  obtain rfl := Except.ok.inj (smallPy_decodes.symm.trans hdecoded)
  obtain rfl : [CString.ascii "krnl"] = second := Except.ok.inj hsecond
  exact absurd htag (by decide)

/-- A whole image, with the kernel and the monitor in it: the expansion of the complete
tokens behind the header, padded to the length the header gives, and all behind them. -/
def IsImage (image kernel monitor : Bytes) : Prop :=
  ∃ decompsize srclen, Header image decompsize srclen ∧ srclen ≤ (image.drop 0x180).length
    ∧ (expand (tokens (payload image srclen))).length ≤ decompsize
    ∧ kernel = expand (tokens (payload image srclen))
      ++ List.replicate (decompsize - (expand (tokens (payload image srclen))).length) 0x20
    ∧ monitor = image.drop (srclen + 0x180)

theorem decompressed_returned :
    decompressed data = .ok (.returned bytes) ↔ ∃ monitor, IsImage data bytes monitor := by
  have hget : Lzss.decompress_lzss (2 ^ 32) data = some (decompressed data) :=
    (Option.some_get (decompress_lzss_isSome data)).symm
  have hwhole : ∀ {decompsize srclen : ℕ}, Header data decompsize srclen →
      srclen ≤ (data.drop 0x180).length → decompressed data
        = (outcome decompsize ((tokens (payload data srclen)).foldl Token.apply [])).map
            .returned := fun hheader hle =>
    Option.some.inj (hget.symm.trans (hheader.decompress_lzss_whole hle
      (unpackBE_lt hheader.srclen)))
  constructor
  · intro hreturned
    obtain ⟨decompsize, srclen, hheader⟩ := exists_header_of_returned (hreturned ▸ hget)
    refine ⟨data.drop (srclen + 0x180), decompsize, srclen, hheader, ?_⟩
    rcases Nat.lt_or_ge (data.drop 0x180).length srclen with hshort | hle
    · rw [hheader.decompress_lzss_short hshort (unpackBE_lt hheader.srclen), hreturned] at hget
      cases hget
    · rw [hwhole hheader hle, outcome] at hreturned
      rw [expand, List.length_reverse]
      split at hreturned
      · rename_i hfits
        cases hreturned
        exact ⟨hle, hfits, rfl, rfl⟩
      · cases hreturned
  · rintro ⟨-, decompsize, srclen, hheader, hle, hfits, rfl, -⟩
    rw [expand, List.length_reverse] at hfits ⊢
    rw [hwhole hheader hle, outcome, if_pos hfits]
    rfl

theorem decompress_lzss_silent :
    Silent (decompress_lzss [script, src, dst]) s s'
      ↔ ∃ data bytes, s.files src = some data ∧ (∃ monitor, IsImage data bytes monitor)
        ∧ (bytes = [] ∨ s.writable dst) ∧ s' = s.putSome dst bytes := by
  -- what comes after the call
  have hbranch : ∀ (outcome : Outcome) (t : Disk), Ends disk (ifData [script, src, dst] outcome) t
      (.ok ()) s' ↔ match outcome with
        | .printed text => s' = { t with printed := t.printed ++ [.text text] }
        | .returned bytes => (bytes = [] ∨ t.writable dst) ∧ s' = t.putSome dst bytes := by
    intro outcome t
    cases outcome with
    | printed text => exact ends_print
    | returned bytes =>
        by_cases hempty : bytes = []
        · simp [ifData, Disk.putSome, hempty, ends_pure_ok]
        · simp [ifData, Disk.putSome, hempty, ends_bind_ok, ends_arg, ends_openWrite]
  have hruns : Ends disk (decompress_lzss [script, src, dst]) s (.ok ()) s'
      ↔ ∃ data outcome, s.files src = some data ∧ decompressed data = .ok outcome
        ∧ match outcome with
          | .printed text => s' = { s with printed := s.printed ++ [.text text] }
          | .returned bytes => (bytes = [] ∨ s.writable dst) ∧ s' = s.putSome dst bytes := by
    simp only [decompress_lzss, ends_bind_ok, ends_arg, ends_ofExcept, mapError_ok]
    constructor
    · rintro ⟨_, _, ⟨harg, rfl⟩, data, _, hread, outcome, _, ⟨houtcome, rfl⟩, hrest⟩
      obtain ⟨hdata, rfl⟩ := ends_read.mp hread
      cases harg
      exact ⟨data, outcome, hdata, houtcome, (hbranch outcome _).mp hrest⟩
    · rintro ⟨data, outcome, hdata, houtcome, hrest⟩
      exact ⟨src, s, ⟨rfl, rfl⟩, data, s, ends_read.mpr ⟨hdata, rfl⟩, outcome, s, ⟨houtcome, rfl⟩,
        (hbranch outcome s).mpr hrest⟩
  rw [Silent, hruns]
  constructor
  · rintro ⟨⟨data, outcome, hdata, houtcome, hrest⟩, hprinted⟩
    cases outcome with
    | printed text =>
        rw [hrest] at hprinted
        cases List.append_right_eq_self.mp hprinted
    | returned bytes => exact ⟨data, bytes, hdata, decompressed_returned.mp houtcome, hrest⟩
  · rintro ⟨data, bytes, hdata, hkernel, hrest⟩
    refine ⟨⟨data, .returned bytes, hdata, decompressed_returned.mpr hkernel, hrest⟩, ?_⟩
    rw [hrest.2, Disk.putSome_printed]

theorem kernelcompressedextractmonitor_silent :
    Silent (kernelcompressedextractmonitor [script, src, dst]) s s'
      ↔ ∃ data srclen, s.files src = some data ∧ slice data 0 8 = magic
        ∧ unpackBE (slice data 16 20) = .ok srclen ∧ s.writable dst
        ∧ s' = s.put dst (data.drop (srclen + 0x180)) := by
  have hruns : Ends disk (kernelcompressedextractmonitor [script, src, dst]) s (.ok ()) s'
      ↔ ∃ data extracted, s.files src = some data ∧ Lzss.decode data = .ok extracted
        ∧ s.writable dst
        ∧ s' = Disk.put { s with printed := s.printed ++ extracted.printed.map .bytes }
            dst extracted.returned := by
    simp only [kernelcompressedextractmonitor, ends_bind_ok, ends_arg, ends_ofExcept, mapError_ok,
      ends_prints Line.bytes, ends_openWrite]
    constructor
    · rintro ⟨_, _, ⟨harg, rfl⟩, data, _, hread, extracted, _, ⟨hdecode, rfl⟩, _, _, rfl, _, _,
        ⟨harg', rfl⟩, hw, bytes, hbytes, rfl⟩
      obtain ⟨hdata, rfl⟩ := ends_read.mp hread
      cases harg
      cases harg'
      cases hbytes
      exact ⟨data, extracted, hdata, hdecode, hw, rfl⟩
    · rintro ⟨data, extracted, hdata, hdecode, hw, rfl⟩
      exact ⟨src, s, ⟨rfl, rfl⟩, data, s, ends_read.mpr ⟨hdata, rfl⟩, extracted, s, ⟨hdecode, rfl⟩,
        (), _, rfl, dst, _, ⟨rfl, rfl⟩, hw, _, rfl, rfl⟩
  rw [Silent, hruns]
  constructor
  · rintro ⟨⟨data, extracted, hdata, hdecode, hw, rfl⟩, hprinted⟩
    have hlines : extracted.printed = [] :=
      List.map_eq_nil_iff.mp (List.append_right_eq_self.mp hprinted)
    rw [Lzss.decode] at hdecode
    split at hdecode
    · cases hdecode
      cases hlines
    · rename_i hmagic
      obtain ⟨srclen, hsrclen, hdecode⟩ := except_bind_ok.mp hdecode
      cases hdecode
      exact ⟨data, srclen, hdata, of_not_not hmagic, hsrclen, hw, by rw [List.map_nil,
        List.append_nil]⟩
  · rintro ⟨data, srclen, hdata, hmagic, hsrclen, hw, rfl⟩
    refine ⟨⟨data, ⟨[], data.drop (srclen + 0x180)⟩, hdata, ?_, hw, ?_⟩, rfl⟩
    · rw [Lzss.decode, if_neg (not_not_intro hmagic), hsrclen]
      rfl
    · rw [List.map_nil, List.append_nil]

end Silent

/-! ## A kernel image -/

section Kernel

variable {py : Interpreter} {im4p lzss kernel monitor : String} {s s' : Disk}

/-- The three commands for a kernel image, each of which ends well and silently. -/
def Prepares (py : Interpreter) (im4p lzss kernel monitor : String) (s s' : Disk) : Prop :=
  ∃ s₁ s₂, Silent (asn1kerneldecode py ["asn1kerneldecode.py", im4p, lzss]) s s₁
    ∧ Silent (decompress_lzss ["decompress_lzss.py", lzss, kernel]) s₁ s₂
    ∧ Silent (kernelcompressedextractmonitor
        ["kernelcompressedextractmonitor.py", lzss, monitor]) s₂ s'

/-- The same with the last two in the other order. -/
def PreparesSwapped (py : Interpreter) (im4p lzss kernel monitor : String) (s s' : Disk) : Prop :=
  ∃ s₁ s₂, Silent (asn1kerneldecode py ["asn1kerneldecode.py", im4p, lzss]) s s₁
    ∧ Silent (kernelcompressedextractmonitor
        ["kernelcompressedextractmonitor.py", lzss, monitor]) s₁ s₂
    ∧ Silent (decompress_lzss ["decompress_lzss.py", lzss, kernel]) s₂ s'

/-- What an envelope with an image becomes. -/
def Prepared (py : Interpreter) (im4p lzss kernel monitor : String) (s s' : Disk) : Prop :=
  ∃ data image kernelBytes monitorBytes, s.files im4p = some data
    ∧ IsIm4p py "krnl" data image ∧ IsImage image kernelBytes monitorBytes
    ∧ s.writable lzss ∧ (kernelBytes = [] ∨ s.writable kernel) ∧ s.writable monitor
    ∧ s' = ((s.put lzss image).putSome kernel kernelBytes).put monitor monitorBytes

theorem Prepared.prepares (h : Prepared py im4p lzss kernel monitor s s') (hlzss : kernel ≠ lzss) :
    Prepares py im4p lzss kernel monitor s s' := by
  obtain ⟨data, image, kernelBytes, _, hdata, him4p, himage, hw, hw', hw'', rfl⟩ := h
  obtain ⟨_, srclen, hheader, -, -, -, rfl⟩ := id himage
  refine ⟨_, _, asn1decode_silent.mpr ⟨data, image, hdata, him4p, hw, rfl⟩,
    decompress_lzss_silent.mpr
      ⟨image, kernelBytes, Disk.put_files_self _ _ _, ⟨_, himage⟩, hw', rfl⟩,
    kernelcompressedextractmonitor_silent.mpr
      ⟨image, srclen, ?_, hheader.magic, hheader.srclen, ?_, rfl⟩⟩
  · rw [Disk.putSome_files_of_ne hlzss.symm, Disk.put_files_self]
  · rwa [Disk.putSome_writable]

/-- A layout is read back as its tokens. -/
theorem tokensFrom_slots {k : ℕ} {f : UInt8} {ts : List Token} {bs : Bytes}
    (h : Slots k f ts bs) : tokensFrom k f bs = ts := by
  induction h with
  | stop k f => rw [tokensFrom]
  | fill hk hbit _ ih =>
      rw [tokensFrom_slot hk, hbit, nextToken_append]
      exact congrArg _ ih
  | group hbit _ ih =>
      rw [tokensFrom_group, tokensFrom_slot (by decide), hbit, nextToken_append]
      exact congrArg _ ih

/-- An image that was packed: a kernel as tokens, laid out behind a header, and a monitor. -/
structure PackedImage (image : Bytes) (ts : List Token) (monitor : Bytes) : Prop where
  magic : slice image 0 8 = magic
  decompsize : unpackBE (slice image 12 16) = .ok (expand ts).length
  stream : ∃ bs, Laid ts bs ∧ image.drop 0x180 = bs ++ monitor
    ∧ unpackBE (slice image 16 20) = .ok bs.length

theorem PackedImage.isImage {image monitorBytes : Bytes} {ts : List Token}
    (h : PackedImage image ts monitorBytes) : IsImage image (expand ts) monitorBytes := by
  obtain ⟨bs, hlaid, hdrop, hsrclen⟩ := h.stream
  have hpayload : payload image bs.length = bs := by rw [payload, hdrop, List.take_left]
  have htokens : tokens (payload image bs.length) = ts := by
    rw [hpayload]
    exact tokensFrom_slots hlaid
  refine ⟨(expand ts).length, bs.length, ⟨h.magic, h.decompsize, hsrclen⟩, ?_, ?_, ?_, ?_⟩
  · rw [hdrop, List.length_append]
    exact Nat.le_add_right _ _
  · rw [htokens]
  · rw [htokens, Nat.sub_self, List.replicate_zero, List.append_nil]
  · rw [Nat.add_comm, ← List.drop_drop, hdrop, List.drop_left]

theorem sixBytesFile_packedImage : PackedImage sixBytesFile sixBytes [0xff] where
  magic := by decide
  decompsize := by decide
  stream := ⟨[1, 0x61, 0xee, 0xf2],
    Slots.group (by decide) (Slots.fill (by decide) (by decide) (Slots.stop 2 1)),
    by decide, by decide⟩

/-- **Which images are prepared, and what they become**: the three commands end well and
silently exactly for an IM4P with a whole image, in either order of the last two, and what
they leave is the image, its kernel and its monitor. -/
theorem prepared_iff (hlzss : kernel ≠ lzss) (hmonitor : monitor ≠ lzss)
    (hkernel : monitor ≠ kernel) :
    (Prepares py im4p lzss kernel monitor s s' ↔ Prepared py im4p lzss kernel monitor s s')
      ∧ (PreparesSwapped py im4p lzss kernel monitor s s'
        ↔ Prepared py im4p lzss kernel monitor s s') := by
  -- what the second script finds in the image is what the third finds
  have himage_of : ∀ {image kernelBytes : Bytes} {srclen : ℕ},
      (∃ monitorBytes, IsImage image kernelBytes monitorBytes) →
      unpackBE (slice image 16 20) = .ok srclen →
      IsImage image kernelBytes (image.drop (srclen + 0x180)) := by
    rintro image kernelBytes srclen ⟨_, decompsize, srclen', hheader, hle, hfits, hkernel, -⟩ hsrclen
    obtain rfl : srclen' = srclen := Except.ok.inj (hheader.srclen.symm.trans hsrclen)
    exact ⟨decompsize, srclen', hheader, hle, hfits, hkernel, rfl⟩
  constructor
  · constructor
    · rintro ⟨s₁, s₂, hdecode, hdecompress, hextract⟩
      obtain ⟨data, image, hdata, him4p, hw, rfl⟩ := asn1decode_silent.mp hdecode
      obtain ⟨image', kernelBytes, hread, himage, hw', rfl⟩ :=
        decompress_lzss_silent.mp hdecompress
      obtain rfl : image = image' := Option.some.inj ((Disk.put_files_self _ _ _).symm.trans hread)
      obtain ⟨image', srclen, hread', -, hsrclen, hw'', rfl⟩ :=
        kernelcompressedextractmonitor_silent.mp hextract
      rw [Disk.putSome_files_of_ne hlzss.symm] at hread'
      obtain rfl : image = image' := Option.some.inj (hread.symm.trans hread')
      exact ⟨data, image, kernelBytes, _, hdata, him4p, himage_of himage hsrclen, hw, hw',
        by rwa [Disk.putSome_writable] at hw'', rfl⟩
    · exact fun h => h.prepares hlzss
  · constructor
    · rintro ⟨s₁, s₂, hdecode, hextract, hdecompress⟩
      obtain ⟨data, image, hdata, him4p, hw, rfl⟩ := asn1decode_silent.mp hdecode
      obtain ⟨image', srclen, hread, -, hsrclen, hw', rfl⟩ :=
        kernelcompressedextractmonitor_silent.mp hextract
      obtain rfl : image = image' := Option.some.inj ((Disk.put_files_self _ _ _).symm.trans hread)
      obtain ⟨image', kernelBytes, hread', himage, hw'', rfl⟩ :=
        decompress_lzss_silent.mp hdecompress
      rw [Disk.put_files_of_ne hmonitor.symm] at hread'
      obtain rfl : image = image' := Option.some.inj (hread.symm.trans hread')
      exact ⟨data, image, kernelBytes, _, hdata, him4p, himage_of himage hsrclen, hw, hw'', hw',
        Disk.putSome_put hkernel _ _ _⟩
    · rintro ⟨data, image, kernelBytes, monitorBytes, hdata, him4p, himage, hw, hw', hw'', rfl⟩
      obtain ⟨_, srclen, hheader, -, -, -, rfl⟩ := id himage
      refine ⟨_, _, asn1decode_silent.mpr ⟨data, image, hdata, him4p, hw, rfl⟩,
        kernelcompressedextractmonitor_silent.mpr
          ⟨image, srclen, Disk.put_files_self _ _ _, hheader.magic, hheader.srclen, hw'', rfl⟩,
        decompress_lzss_silent.mpr ⟨image, kernelBytes, ?_, ⟨_, himage⟩, hw', ?_⟩⟩
      · rw [Disk.put_files_of_ne hmonitor.symm, Disk.put_files_self]
      · exact (Disk.putSome_put hkernel _ _ _).symm

theorem prepared_iff_small :
    (∃ s', Prepares smallPy "im4p" "lzss" "kernel" "monitor" smallDisk s')
      ∧ ∃ s', PreparesSwapped smallPy "im4p" "lzss" "kernel" "monitor" smallDisk s' := by
  have hprepared : Prepared smallPy "im4p" "lzss" "kernel" "monitor" smallDisk _ :=
    ⟨smallIm4p, sixBytesFile, expand sixBytes, [0xff], rfl, smallIm4p_isIm4p,
      sixBytesFile_packedImage.isImage, rfl, Or.inr rfl, rfl, rfl⟩
  obtain ⟨hiff, hiff'⟩ := @prepared_iff smallPy "im4p" "lzss" "kernel" "monitor" smallDisk _
    (by decide) (by decide) (by decide)
  exact ⟨⟨_, hiff.mpr hprepared⟩, _, hiff'.mpr hprepared⟩

/-- **Every packed kernel comes back, and its monitor**, and no other file changes. -/
theorem prepared_packed {data image monitorBytes : Bytes} {ts : List Token}
    (himage : PackedImage image ts monitorBytes) (hts : expand ts ≠ [])
    (hdata : s.files im4p = some data) (him4p : IsIm4p py "krnl" data image)
    (hw : s.writable lzss ∧ s.writable kernel ∧ s.writable monitor)
    (hdistinct : [lzss, kernel, monitor].Nodup) :
    ∃ s', Prepares py im4p lzss kernel monitor s s' ∧ s'.files kernel = some (expand ts)
      ∧ s'.files monitor = some monitorBytes
      ∧ ∀ path, path ∉ [lzss, kernel, monitor] → s'.files path = s.files path := by
  obtain ⟨⟨hkl, -⟩, hkm⟩ : (lzss ≠ kernel ∧ lzss ≠ monitor) ∧ kernel ≠ monitor := by
    simpa using hdistinct
  have hprepared : Prepared py im4p lzss kernel monitor s
      (((s.put lzss image).putSome kernel (expand ts)).put monitor monitorBytes) :=
    ⟨data, image, expand ts, monitorBytes, hdata, him4p, himage.isImage, hw.1, Or.inr hw.2.1,
      hw.2.2, rfl⟩
  refine ⟨_, hprepared.prepares hkl.symm, ?_, Disk.put_files_self _ _ _, fun path hpath => ?_⟩
  · rw [Disk.put_files_of_ne hkm, Disk.putSome, if_neg hts, Disk.put_files_self]
  · obtain ⟨hl, hk, hm⟩ : path ≠ lzss ∧ path ≠ kernel ∧ path ≠ monitor := by simpa using hpath
    rw [Disk.put_files_of_ne hm, Disk.putSome_files_of_ne hk, Disk.put_files_of_ne hl]

theorem prepared_packed_small :
    ∃ s', Prepares smallPy "im4p" "lzss" "kernel" "monitor" smallDisk s'
      ∧ s'.files "kernel" = some [0x61, 0x61, 0x61, 0x61, 0x61, 0x61]
      ∧ s'.files "monitor" = some [0xff]
      ∧ ∀ path, path ∉ ["lzss", "kernel", "monitor"] →
        s'.files path = smallDisk.files path :=
  prepared_packed sixBytesFile_packedImage (by decide) rfl smallIm4p_isIm4p ⟨rfl, rfl, rfl⟩
    (by decide)

end Kernel

end XnuQemuTools.BootstrapScripts
