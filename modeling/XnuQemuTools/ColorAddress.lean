/-
The script that colours what a trace has executed (`ghidra/ColorAddress.java`).

A line of QEMU's log names a block by `Trace 0: 0x… […/pc/…] `, and the script takes the
`pc` out of it with one regular expression: group 3, between two slashes, behind
repetitions of which two are reluctant and two greedy. `TraceLine` says without any search
what that comes to: the text between the first slash that leaves something behind the
bracket and the last slash that leaves something before the next. `group3_iff` is that the
search agrees, for every line.

Ghidra's addresses are any linear order. Reading one from a text may raise an
`AddressFormatException`, which ends the reading of the file and not the script, or give
`null`, which ends the script. A line is a list of characters; that the file itself cannot
be opened is `none`.
-/
import XnuQemuTools.Backtracking
import XnuQemuTools.Lines
import Mathlib.Data.Finset.Dedup
import Mathlib.Data.Finset.Lattice.Lemmas

set_option autoImplicit false

namespace XnuQemuTools.ColorAddress

open Backtracking Lines

/-! ## `BufferedReader.readLine` -/

/-- The characters that end a line. -/
def isLineEnd (c : Char) : Bool := c = '\n' || c = '\r'

def readLines (text : List Char) : List (List Char) := lines isLineEnd text

/-! ## The pattern -/

/-- `.`, which is every character but the ends of lines. -/
def isDot (c : Char) : Bool :=
  c ≠ '\n' && c ≠ '\r' && c ≠ '\u0085' && c ≠ '\u2028' && c ≠ '\u2029'

/-- `\d`. -/
def isDigit (c : Char) : Bool := '0' ≤ c && c ≤ '9'

/-- `Trace \d: 0x.+? \[.+?/`. -/
def headPattern : Pattern Char :=
  .seq (.text "Trace ".toList) (.seq (.one isDigit) (.seq (.text ": 0x".toList)
    (.seq (.lazy isDot) (.seq (.text " [".toList) (.seq (.lazy isDot) (.text ['/']))))))

/-- `/.+\] `. -/
def tailPattern : Pattern Char :=
  .seq (.text ['/']) (.seq (.greedy isDot) (.text "] ".toList))

/-- `((Trace \d: 0x.+? \[.+?/)(.+)(/.+\] ))`. -/
def pattern : Pattern Char :=
  .group 1 (.seq (.group 2 headPattern) (.seq (.group 3 (.greedy isDot)) (.group 4 tailPattern)))

/-- `m.group(n)` in a concatenation. -/
def groupText (m : Match Char) (n : ℕ) : List Char := (m.group n).getD "null".toList

/-! ## The script -/

section Script

variable {Address : Type}

/-- What `currentAddress.getAddress` does with a text: raise, or return an address or
`null`. -/
abbrev GetAddress (Address : Type) : Type := List Char → Except Unit (Option Address)

/-- The loop of `getAddresses`, with the list so far. -/
def addressLoop (getAddress : GetAddress Address) :
    List (Option Address) → List (List Char) → List (Option Address)
  | lst, [] => lst
  | lst, line :: lines =>
      match fullMatch pattern line with
      | none => addressLoop getAddress lst lines
      | some m =>
          if pattern.groupCount = 4 then
            match getAddress ("0x".toList ++ groupText m 3) with
            | .ok addr => addressLoop getAddress (lst ++ [addr]) lines
            -- caught outside of the loop
            | .error () => lst
          else addressLoop getAddress lst lines

/-- `getAddresses`. -/
def getAddresses (getAddress : GetAddress Address) (file : Option (List Char)) :
    List (Option Address) :=
  match file with
  | none => []
  | some text => addressLoop getAddress [] (readLines text)

variable [LinearOrder Address]

/-- What is coloured, and the count in the message. -/
structure Colored (Address : Type) where
  addresses : Finset Address
  counter : ℕ

/-- The loop of `run`; `none` is a `NullPointerException`. -/
def colorLoop (minAddress maxAddress : Address) :
    Colored Address → List (Option Address) → Option (Colored Address)
  | colored, [] => some colored
  | _, none :: _ => none
  | colored, some addr :: rest =>
      if minAddress ≤ addr ∧ addr ≤ maxAddress then
        colorLoop minAddress maxAddress
          ⟨insert addr colored.addresses, colored.counter + 1⟩ rest
      else colorLoop minAddress maxAddress colored rest

/-- `run`. -/
def run (getAddress : GetAddress Address) (minAddress maxAddress : Address)
    (file : Option (List Char)) : Option (Colored Address) :=
  colorLoop minAddress maxAddress ⟨∅, 0⟩ (getAddresses getAddress file)

end Script

/-! ## What a line says -/

/-- Some characters, none of which ends a line. -/
def Field (s : List Char) : Prop := s ≠ [] ∧ ∀ c ∈ s, isDot c

/-- The text up to the slash before the `pc`. -/
def head (d : Char) (h a : List Char) : List Char :=
  "Trace ".toList ++ ([d] ++ (": 0x".toList ++ (h ++ (" [".toList ++ (a ++ ['/'])))))

/-- The text from the slash behind the `pc` on. -/
def tail (f : List Char) : List Char := ['/'] ++ (f ++ "] ".toList)

/-- A line with this `pc`. The first field ends at the first bracket with a space before it,
the second at the first slash and the last begins behind the last one, but a field is never
empty. -/
def TraceLine (line pc : List Char) : Prop :=
  ∃ d h a f, isDigit d ∧ Field h ∧ Field a ∧ Field pc ∧ Field f
    ∧ line = head d h a ++ (pc ++ tail f)
    ∧ ¬ " [".toList <:+: h.tail ∧ '/' ∉ a.tail ∧ '/' ∉ f.dropLast

section Parses

variable {w : List Char} {g : List (ℕ × List Char)} {k : List ℤ}

theorem parses_headPattern : Parses headPattern w g k
    ↔ ∃ d h a, isDigit d ∧ Field h ∧ Field a ∧ w = head d h a ∧ g = []
      ∧ k = [(h.length : ℤ), (a.length : ℤ)] := by
  constructor
  · intro hp
    obtain ⟨_, _, _, _, _, _, hTrace, hp₁, rfl, rfl, rfl⟩ := parses_seq.mp hp
    obtain ⟨_, _, _, _, _, _, hdigit, hp₂, rfl, rfl, rfl⟩ := parses_seq.mp hp₁
    obtain ⟨_, _, _, _, _, _, h0x, hp₃, rfl, rfl, rfl⟩ := parses_seq.mp hp₂
    obtain ⟨h, _, _, _, _, _, hh, hp₄, rfl, rfl, rfl⟩ := parses_seq.mp hp₃
    obtain ⟨_, _, _, _, _, _, hbracket, hp₅, rfl, rfl, rfl⟩ := parses_seq.mp hp₄
    obtain ⟨a, _, _, _, _, _, ha, hslash, rfl, rfl, rfl⟩ := parses_seq.mp hp₅
    obtain ⟨rfl, rfl, rfl⟩ := parses_text.mp hTrace
    obtain ⟨d, hd, rfl, rfl, rfl⟩ := parses_one.mp hdigit
    obtain ⟨rfl, rfl, rfl⟩ := parses_text.mp h0x
    obtain ⟨hfield, rfl, rfl⟩ := parses_lazy.mp hh
    obtain ⟨rfl, rfl, rfl⟩ := parses_text.mp hbracket
    obtain ⟨hfield', rfl, rfl⟩ := parses_lazy.mp ha
    obtain ⟨rfl, rfl, rfl⟩ := parses_text.mp hslash
    exact ⟨d, h, a, hd, hfield, hfield', rfl, rfl, rfl⟩
  · rintro ⟨d, h, a, hd, hh, ha, rfl, rfl, rfl⟩
    exact .seq (.text _) (.seq (.one hd) (.seq (.text _) (.seq (.lazy hh.1 hh.2)
      (.seq (.text _) (.seq (.lazy ha.1 ha.2) (.text _))))))

theorem parses_tailPattern : Parses tailPattern w g k
    ↔ ∃ f, Field f ∧ w = tail f ∧ g = [] ∧ k = [-(f.length : ℤ)] := by
  constructor
  · intro hp
    obtain ⟨_, _, _, _, _, _, hslash, hp₁, rfl, rfl, rfl⟩ := parses_seq.mp hp
    obtain ⟨f, _, _, _, _, _, hf, hbracket, rfl, rfl, rfl⟩ := parses_seq.mp hp₁
    obtain ⟨rfl, rfl, rfl⟩ := parses_text.mp hslash
    obtain ⟨hfield, rfl, rfl⟩ := parses_greedy.mp hf
    obtain ⟨rfl, rfl, rfl⟩ := parses_text.mp hbracket
    exact ⟨f, hfield, rfl, rfl, rfl⟩
  · rintro ⟨f, hf, rfl, rfl, rfl⟩
    exact .seq (.text _) (.seq (.greedy hf.1 hf.2) (.text _))

theorem parses_pattern : Parses pattern w g k
    ↔ ∃ d h a b f, isDigit d ∧ Field h ∧ Field a ∧ Field b ∧ Field f
      ∧ w = head d h a ++ (b ++ tail f)
      ∧ g = [(1, w), (2, head d h a), (3, b), (4, tail f)]
      ∧ k = [(h.length : ℤ), (a.length : ℤ), -(b.length : ℤ), -(f.length : ℤ)] := by
  constructor
  · intro hp
    obtain ⟨_, hp₁, rfl⟩ := parses_group.mp hp
    obtain ⟨_, _, _, _, _, _, h₂, hp₂, rfl, rfl, rfl⟩ := parses_seq.mp hp₁
    obtain ⟨b, _, _, _, _, _, h₃, h₄, rfl, rfl, rfl⟩ := parses_seq.mp hp₂
    obtain ⟨_, hhead, rfl⟩ := parses_group.mp h₂
    obtain ⟨_, hmiddle, rfl⟩ := parses_group.mp h₃
    obtain ⟨_, htail, rfl⟩ := parses_group.mp h₄
    obtain ⟨d, h, a, hd, hh, ha, rfl, rfl, rfl⟩ := parses_headPattern.mp hhead
    obtain ⟨hb, rfl, rfl⟩ := parses_greedy.mp hmiddle
    obtain ⟨f, hf, rfl, rfl, rfl⟩ := parses_tailPattern.mp htail
    exact ⟨d, h, a, b, f, hd, hh, ha, hb, hf, rfl, rfl, rfl⟩
  · rintro ⟨d, h, a, b, f, hd, hh, ha, hb, hf, rfl, rfl, rfl⟩
    exact .group (.seq (.group (parses_headPattern.mpr ⟨d, h, a, hd, hh, ha, rfl, rfl, rfl⟩))
      (.seq (.group (.greedy hb.1 hb.2))
        (.group (parses_tailPattern.mpr ⟨f, hf, rfl, rfl, rfl⟩))))

end Parses

/-! ## Group 3 -/

section Least

variable {d d' : Char} {h h' a a' b b' f f' : List Char}

/-- The key of a match with these fields. -/
def key (h a b f : List Char) : List ℤ :=
  [(h.length : ℤ), (a.length : ℤ), -(b.length : ℤ), -(f.length : ℤ)]

theorem key_lt : key h' a' b' f' < key h a b f ↔ h'.length < h.length
    ∨ h'.length = h.length ∧ (a'.length < a.length
      ∨ a'.length = a.length ∧ (b.length < b'.length
        ∨ b.length = b'.length ∧ f.length < f'.length)) := by
  simp only [key, List.cons_lt_cons_iff, List.not_lt_nil, and_false, or_false, Int.ofNat_lt,
    Int.natCast_inj, neg_lt_neg_iff, neg_inj]
  omega

theorem field_append {s t : List Char} (hs : ∀ c ∈ s, isDot c) (ht : ∀ c ∈ t, isDot c)
    (hne : s ≠ [] ∨ t ≠ []) : Field (s ++ t) := by
  refine ⟨fun h => ?_, List.forall_mem_append.mpr ⟨hs, ht⟩⟩
  obtain ⟨hs', ht'⟩ := List.append_eq_nil_iff.mp h
  exact hne.elim (· hs') (· ht')

/-- No other way to cut the line comes before these fields. -/
def Least (d : Char) (h a b f : List Char) : Prop :=
  ∀ h' a' b' f', Field h' → Field a' → Field b' → Field f' →
    head d h a ++ (b ++ tail f) = head d h' a' ++ (b' ++ tail f') →
    ¬ key h' a' b' f' < key h a b f

theorem Least.bracket (hleast : Least d h a b f) (hh : Field h) (ha : Field a) (hb : Field b)
    (hf : Field f) : ¬ " [".toList <:+: h.tail := by
  rintro ⟨x, y, hxy⟩
  cases h with
  | nil => exact hh.1 rfl
  | cons c t =>
      obtain rfl : x ++ " [".toList ++ y = t := hxy
      have hdots := List.forall_mem_append.mp (List.forall_mem_cons.mp hh.2).2
      have hx := (List.forall_mem_append.mp hdots.1).1
      refine hleast (c :: x) (y ++ (" [".toList ++ a)) b f ?_ ?_ hb hf ?_ ?_
      · exact ⟨List.cons_ne_nil _ _, List.forall_mem_cons.mpr ⟨hh.2 c List.mem_cons_self, hx⟩⟩
      · exact field_append hdots.2 (field_append (List.all_eq_true.mp (by decide)) ha.2
          (Or.inr ha.1)).2
          (Or.inr (List.append_ne_nil_of_right_ne_nil _ ha.1))
      · simp only [head, List.cons_append, List.append_assoc]
      · refine key_lt.mpr (Or.inl ?_)
        simp only [List.length_cons, List.length_append]
        have : " [".toList.length = 2 := rfl
        omega

theorem Least.firstSlash (hleast : Least d h a b f) (hh : Field h) (ha : Field a) (hb : Field b)
    (hf : Field f) : '/' ∉ a.tail := by
  intro hmem
  obtain ⟨x, y, hxy⟩ := List.append_of_mem hmem
  cases a with
  | nil => exact ha.1 rfl
  | cons c t =>
      obtain rfl : t = x ++ '/' :: y := hxy
      have hdots := List.forall_mem_append.mp (List.forall_mem_cons.mp ha.2).2
      refine hleast h (c :: x) (y ++ '/' :: b) f hh ?_ ?_ hf ?_ ?_
      · exact ⟨List.cons_ne_nil _ _,
          List.forall_mem_cons.mpr ⟨ha.2 c List.mem_cons_self, hdots.1⟩⟩
      · exact field_append (List.forall_mem_cons.mp hdots.2).2
          (List.forall_mem_cons.mpr ⟨rfl, hb.2⟩) (Or.inr (List.cons_ne_nil _ _))
      · simp only [head, List.cons_append, List.append_assoc, List.nil_append]
      · refine key_lt.mpr (Or.inr ⟨rfl, Or.inl ?_⟩)
        simp only [List.length_cons, List.length_append]
        omega

theorem Least.lastSlash (hleast : Least d h a b f) (hh : Field h) (ha : Field a) (hb : Field b)
    (hf : Field f) : '/' ∉ f.dropLast := by
  intro hmem
  obtain ⟨x, y, hxy⟩ := List.append_of_mem hmem
  obtain ⟨z, hz⟩ : ∃ z, f = x ++ '/' :: y ++ [z] :=
    ⟨f.getLast hf.1, by rw [← hxy, List.dropLast_append_getLast]⟩
  subst hz
  have hdots := List.forall_mem_append.mp hf.2
  have hx := List.forall_mem_append.mp hdots.1
  refine hleast h a (b ++ '/' :: x) (y ++ [z]) hh ha ?_ ?_ ?_ ?_
  · exact field_append hb.2 (List.forall_mem_cons.mpr ⟨rfl, hx.1⟩) (Or.inl hb.1)
  · exact field_append (List.forall_mem_cons.mp hx.2).2 hdots.2 (Or.inr (List.cons_ne_nil _ _))
  · simp only [tail, List.cons_append, List.append_assoc, List.nil_append]
  · refine key_lt.mpr (Or.inr ⟨rfl, Or.inr ⟨rfl, Or.inl ?_⟩⟩)
    simp only [List.length_cons, List.length_append]
    omega

/-- Of two ways to cut a text, the longer first part begins with the shorter. -/
theorem cut_shorter {s s' t t' : List Char} (heq : s ++ t = s' ++ t')
    (hlt : s'.length < s.length) : ∃ z, z ≠ [] ∧ s = s' ++ z ∧ t' = z ++ t := by
  rcases List.append_eq_append_iff.mp heq with ⟨z, rfl, -⟩ | ⟨z, rfl, rfl⟩
  · rw [List.length_append] at hlt
    omega
  · refine ⟨z, fun hz => ?_, rfl, rfl⟩
    rw [hz, List.append_nil] at hlt
    exact Nat.lt_irrefl _ hlt

/-- These are all conditions. -/
theorem least_of (hbracket : ¬ " [".toList <:+: h.tail) (hfirst : '/' ∉ a.tail)
    (hlast : '/' ∉ f.dropLast) : Least d h a b f := by
  intro h' a' b' f' hh' ha' hb' hf' heq hlt
  have hfields : h ++ ([' ', '['] ++ (a ++ (['/'] ++ (b ++ tail f))))
      = h' ++ ([' ', '['] ++ (a' ++ (['/'] ++ (b' ++ tail f')))) := by
    simpa [head] using heq
  rcases key_lt.mp hlt with hlt | ⟨hlen, hlt⟩
  · obtain ⟨z, hz, rfl, hrest⟩ := cut_shorter hfields hlt
    obtain ⟨e, t, rfl⟩ := List.exists_cons_of_ne_nil hh'.1
    match z, hz, hrest with
    | [_], _, hrest => simp at hrest
    | _ :: _ :: z, _, hrest =>
        simp only [List.cons_append, List.cons.injEq] at hrest
        obtain ⟨rfl, rfl, -⟩ := hrest
        exact hbracket ⟨t, z, by simp⟩
  obtain ⟨-, hfields⟩ := List.append_inj hfields hlen.symm
  have hfields := List.append_cancel_left hfields
  rcases hlt with hlt | ⟨hlen, hlt⟩
  · obtain ⟨z, hz, rfl, hrest⟩ := cut_shorter hfields hlt
    obtain ⟨e, t, rfl⟩ := List.exists_cons_of_ne_nil ha'.1
    obtain ⟨x, z, rfl⟩ := List.exists_cons_of_ne_nil hz
    obtain ⟨rfl, -⟩ := List.cons_eq_cons.mp hrest
    exact hfirst (List.mem_append_right t List.mem_cons_self)
  obtain ⟨-, hfields⟩ := List.append_inj hfields hlen.symm
  have hfields := List.append_cancel_left hfields
  rcases hlt with hlt | ⟨hlen, hlt⟩
  · obtain ⟨z, hz, rfl, hrest⟩ := cut_shorter hfields.symm hlt
    obtain ⟨x, z, rfl⟩ := List.exists_cons_of_ne_nil hz
    obtain ⟨rfl, hbehind⟩ := List.cons_eq_cons.mp hrest
    have hf : f = z ++ '/' :: f' := by
      have hends : f ++ "] ".toList = (z ++ '/' :: f') ++ "] ".toList := by
        rw [List.append_assoc]
        exact hbehind
      exact List.append_cancel_right hends
    refine hlast ?_
    rw [hf, List.dropLast_append_of_ne_nil (List.cons_ne_nil _ _),
      List.dropLast_cons_of_ne_nil hf'.1]
    exact List.mem_append_right z List.mem_cons_self
  · obtain ⟨-, htail⟩ := List.append_inj hfields hlen
    have hlen := congrArg List.length htail
    simp only [tail, List.length_append] at hlen
    omega

end Least

/-- The text that a line adds to `0x`. -/
def pcOf (line : List Char) : Option (List Char) :=
  (fullMatch pattern line).map fun m => groupText m 3

/-- **Group 3 is the `pc`**: what the search finds is what the line says. -/
theorem pcOf_iff {line pc : List Char} : pcOf line = some pc ↔ TraceLine line pc := by
  rw [pcOf, Option.map_eq_some_iff]
  constructor
  · rintro ⟨m, hm, rfl⟩
    obtain ⟨-, -, hparses, hleast⟩ := fullMatch_iff.mp hm
    obtain ⟨d, h, a, b, f, hd, hh, ha, hb, hf, rfl, hgroups, hkey⟩ := parses_pattern.mp hparses
    have hcut : Least d h a b f := by
      intro h' a' b' f' hh' ha' hb' hf' heq
      have hk := hleast _ _ (parses_pattern.mpr ⟨d, h', a', b', f', hd, hh', ha', hb', hf', heq,
        rfl, rfl⟩)
      rwa [hkey] at hk
    have hpc : groupText m 3 = b := by
      rw [groupText, Match.group, hgroups]
      rfl
    rw [hpc]
    exact ⟨d, h, a, f, hd, hh, ha, hb, hf, rfl, hcut.bracket hh ha hb hf,
      hcut.firstSlash hh ha hb hf, hcut.lastSlash hh ha hb hf⟩
  · rintro ⟨d, h, a, f, hd, hh, ha, hb, hf, rfl, hbracket, hfirst, hlast⟩
    refine ⟨⟨_, [], [(1, _), (2, _), (3, pc), (4, _)], key h a pc f⟩, fullMatch_iff.mpr
      ⟨rfl, rfl, parses_pattern.mpr ⟨d, h, a, pc, f, hd, hh, ha, hb, hf, rfl, rfl, rfl⟩, ?_⟩, rfl⟩
    intro g k hk
    obtain ⟨d', h', a', b', f', -, hh', ha', hb', hf', heq, -, rfl⟩ := parses_pattern.mp hk
    obtain rfl : d = d' := by
      have hdigit := congrArg (fun w => w[6]?) heq
      simpa [head] using hdigit
    exact least_of hbracket hfirst hlast h' a' b' f' hh' ha' hb' hf' heq

/-- A fourth field goes to group 3, which is greedy. -/
example : pcOf "Trace 0: 0x7f [0/1/2/3] ".toList = some "1/2".toList := by decide +kernel

/-! ## What is coloured -/

section Colored

variable {Address : Type} {getAddress : GetAddress Address}

/-- The script gets as far as `line`, which has this `pc`: no line before it has raised. -/
def Reached (getAddress : GetAddress Address) (lines : List (List Char))
    (line pc : List Char) : Prop :=
  ∃ before after, lines = before ++ line :: after ∧ TraceLine line pc
    ∧ ∀ l ∈ before, ∀ pc', TraceLine l pc' → getAddress ("0x".toList ++ pc') ≠ .error ()

/-- One iteration. -/
theorem addressLoop_cons (lst : List (Option Address)) (line : List Char)
    (lines : List (List Char)) :
    addressLoop getAddress lst (line :: lines) = match pcOf line with
      | none => addressLoop getAddress lst lines
      | some pc =>
          match getAddress ("0x".toList ++ pc) with
          | .ok addr => addressLoop getAddress (lst ++ [addr]) lines
          | .error () => lst := by
  rw [addressLoop, pcOf]
  cases fullMatch pattern line with
  | none => rfl
  | some m => rfl

theorem reached_cons {line : List Char} {lines : List (List Char)} {l pc : List Char} :
    Reached getAddress (line :: lines) l pc ↔ l = line ∧ TraceLine line pc
      ∨ (∀ pc', TraceLine line pc' → getAddress ("0x".toList ++ pc') ≠ .error ())
        ∧ Reached getAddress lines l pc := by
  constructor
  · rintro ⟨before, after, heq, htrace, hbefore⟩
    cases before with
    | nil =>
        obtain ⟨rfl, rfl⟩ := List.cons_eq_cons.mp heq
        exact Or.inl ⟨rfl, htrace⟩
    | cons line' before =>
        obtain ⟨rfl, rfl⟩ := List.cons_eq_cons.mp heq
        obtain ⟨hline, hbefore⟩ := List.forall_mem_cons.mp hbefore
        exact Or.inr ⟨hline, before, after, rfl, htrace, hbefore⟩
  · rintro (⟨rfl, htrace⟩ | ⟨hline, before, after, rfl, htrace, hbefore⟩)
    · exact ⟨[], lines, rfl, htrace, fun _ h => absurd h List.not_mem_nil⟩
    · exact ⟨line :: before, after, rfl, htrace, List.forall_mem_cons.mpr ⟨hline, hbefore⟩⟩

/-- What the loop collects. -/
theorem mem_addressLoop {addr : Option Address} (lines : List (List Char)) :
    ∀ lst, addr ∈ addressLoop getAddress lst lines ↔ addr ∈ lst
      ∨ ∃ line pc, Reached getAddress lines line pc
        ∧ getAddress ("0x".toList ++ pc) = .ok addr := by
  induction lines with
  | nil =>
      intro lst
      refine (or_iff_left ?_).symm
      rintro ⟨_, _, ⟨before, after, heq, -⟩, -⟩
      exact List.cons_ne_nil _ _ (List.append_eq_nil_iff.mp heq.symm).2
  | cons line lines ih =>
      intro lst
      rw [addressLoop_cons]
      rcases hpc : pcOf line with _ | pc
      · -- not a line of the trace
        have hno : ∀ pc, ¬ TraceLine line pc := fun pc htrace => by
          rw [pcOf_iff.mpr htrace] at hpc
          cases hpc
        simp only [ih, reached_cons, hno, and_false, false_or, false_imp_iff, implies_true,
          true_and]
      · have htrace : ∀ pc', TraceLine line pc' ↔ pc' = pc := fun pc' => by
          rw [← pcOf_iff, hpc, Option.some.injEq, eq_comm]
        rcases haddr : getAddress ("0x".toList ++ pc) with e | addr'
        · -- it raises, and no line behind it is reached
          simp only [haddr]
          refine (or_iff_left ?_).symm
          rintro ⟨l, pc', hreached, hok⟩
          rcases reached_cons.mp hreached with ⟨-, hpc'⟩ | ⟨hline, -⟩
          · rw [(htrace pc').mp hpc', haddr] at hok
            cases hok
          · exact hline pc ((htrace pc).mpr rfl) haddr
        · have hhead : (∀ pc', TraceLine line pc' → getAddress ("0x".toList ++ pc') ≠ .error ()) := by
            intro pc' hpc'
            rw [(htrace pc').mp hpc', haddr]
            exact fun h => (nomatch h)
          simp only [haddr, ih, List.mem_append, List.mem_singleton, or_assoc]
          refine or_congr_right ⟨?_, ?_⟩
          · rintro (rfl | ⟨l, pc', hreached, hok⟩)
            · exact ⟨line, pc, reached_cons.mpr (Or.inl ⟨rfl, (htrace pc).mpr rfl⟩), haddr⟩
            · exact ⟨l, pc', reached_cons.mpr (Or.inr ⟨hhead, hreached⟩), hok⟩
          · rintro ⟨l, pc', hreached, hok⟩
            rcases reached_cons.mp hreached with ⟨-, hpc'⟩ | ⟨-, hreached'⟩
            · rw [(htrace pc').mp hpc', haddr] at hok
              exact Or.inl (Except.ok.inj hok).symm
            · exact Or.inr ⟨l, pc', hreached', hok⟩

variable [LinearOrder Address] {minAddress maxAddress : Address}

/-- The loop of `run` stops at `null`. -/
theorem colorLoop_none (lst : List (Option Address)) : ∀ colored,
    colorLoop minAddress maxAddress colored lst = none ↔ none ∈ lst := by
  induction lst with
  | nil => simp [colorLoop]
  | cons addr lst ih =>
      intro colored
      cases addr with
      | none => simp [colorLoop]
      | some addr =>
          rw [colorLoop]
          split <;> simp [ih]

theorem mem_colorLoop {addr : Address} (lst : List (Option Address)) : ∀ {colored result},
    colorLoop minAddress maxAddress colored lst = some result →
    (addr ∈ result.addresses ↔ addr ∈ colored.addresses
      ∨ minAddress ≤ addr ∧ addr ≤ maxAddress ∧ some addr ∈ lst) := by
  induction lst with
  | nil =>
      intro colored result h
      cases h
      simp
  | cons addr' lst ih =>
      intro colored result h
      cases addr' with
      | none => cases h
      | some addr' =>
          rw [colorLoop] at h
          split at h
          · rename_i hin
            rw [ih h, Finset.mem_insert, List.mem_cons, Option.some.injEq]
            constructor
            · rintro ((rfl | hmem) | ⟨hlo, hhi, hmem⟩)
              · exact Or.inr ⟨hin.1, hin.2, Or.inl rfl⟩
              · exact Or.inl hmem
              · exact Or.inr ⟨hlo, hhi, Or.inr hmem⟩
            · rintro (hmem | ⟨hlo, hhi, rfl | hmem⟩)
              · exact Or.inl (Or.inr hmem)
              · exact Or.inl (Or.inl rfl)
              · exact Or.inr ⟨hlo, hhi, hmem⟩
          · rename_i hout
            rw [ih h, List.mem_cons, Option.some.injEq]
            refine or_congr_right ⟨?_, ?_⟩
            · rintro ⟨hlo, hhi, hmem⟩
              exact ⟨hlo, hhi, Or.inr hmem⟩
            · rintro ⟨hlo, hhi, rfl | hmem⟩
              · exact absurd ⟨hlo, hhi⟩ hout
              · exact ⟨hlo, hhi, hmem⟩

/-- **What is coloured**: the addresses in the program of the lines that name one, up to
the first that does not read as one; nothing at all if one of them reads as `null`. -/
theorem run_colored (getAddress : GetAddress Address) (minAddress maxAddress : Address)
    (text : List Char) :
    match run getAddress minAddress maxAddress (some text) with
    | none => ∃ line pc, Reached getAddress (readLines text) line pc
        ∧ getAddress ("0x".toList ++ pc) = .ok none
    | some colored =>
        (¬ ∃ line pc, Reached getAddress (readLines text) line pc
          ∧ getAddress ("0x".toList ++ pc) = .ok none)
        ∧ ∀ addr, addr ∈ colored.addresses ↔ minAddress ≤ addr ∧ addr ≤ maxAddress
          ∧ ∃ line pc, Reached getAddress (readLines text) line pc
            ∧ getAddress ("0x".toList ++ pc) = .ok (some addr) := by
  have hmem : ∀ addr, addr ∈ getAddresses getAddress (some text) ↔ ∃ line pc,
      Reached getAddress (readLines text) line pc
        ∧ getAddress ("0x".toList ++ pc) = .ok addr := fun addr =>
    (mem_addressLoop (readLines text) []).trans (or_iff_right List.not_mem_nil)
  rcases hrun : run getAddress minAddress maxAddress (some text) with _ | colored
  · exact (hmem none).mp ((colorLoop_none _ _).mp hrun)
  · refine ⟨fun hnull => ?_, fun addr => ?_⟩
    · rw [run, (colorLoop_none _ _).mpr ((hmem none).mpr hnull)] at hrun
      cases hrun
    · rw [mem_colorLoop _ hrun, hmem]
      exact or_iff_right (Finset.notMem_empty addr)

end Colored

/-! ## A log -/

/-- A block as the log names it: the processor, the address in the host, and between slashes
its `cs_base`, its `pc` and its flags. -/
structure Block where
  index : Char
  host : List Char
  cs_base : List Char
  pc : List Char
  flags : List Char
  isDigit_index : isDigit index
  field_host : Field host
  field_cs_base : Field cs_base
  field_pc : Field pc
  field_flags : Field flags
  bracket_host : ¬ " [".toList <:+: host
  slash_cs_base : '/' ∉ cs_base
  slash_flags : '/' ∉ flags

/-- The line of a block. -/
def Block.line (b : Block) : List Char := head b.index b.host b.cs_base ++ (b.pc ++ tail b.flags)

/-- An entry of the log: a block, or a line of something else. -/
inductive Entry where
  | block (b : Block)
  | other (text : List Char) (hline : ∀ c ∈ text, isLineEnd c = false)
      (htrace : ¬ "Trace ".toList <+: text)

def Entry.line : Entry → List Char
  | .block b => b.line
  | .other text _ _ => text

/-- The text of a log. -/
def render (log : List Entry) : List Char := unlines (log.map Entry.line)

/-- The blocks of a log. -/
def blocks : List Entry → List Block
  | [] => []
  | .block b :: log => b :: blocks log
  | .other _ _ _ :: log => blocks log

section Log

/-- A class without the ends of lines. -/
theorem not_isLineEnd {p : Char → Bool} {c : Char} (hc : p c) (hn : p '\n' = false)
    (hr : p '\r' = false) : isLineEnd c = false := by
  by_contra hend
  rw [Bool.not_eq_false, isLineEnd, Bool.or_eq_true, decide_eq_true_eq, decide_eq_true_eq] at hend
  rcases hend with rfl | rfl
  · cases hc.symm.trans hn
  · cases hc.symm.trans hr

theorem Block.line_lineEnd (b : Block) : ∀ c ∈ b.line, isLineEnd c = false := by
  have hdigit : isLineEnd b.index = false := not_isLineEnd b.isDigit_index (by decide) (by decide)
  have hfield : ∀ {s : List Char}, Field s → ∀ c ∈ s, isLineEnd c = false :=
    fun h c hc => not_isLineEnd (h.2 c hc) (by decide) (by decide)
  have htext : ∀ {s : List Char}, s.all (fun c => !isLineEnd c) → ∀ c ∈ s, isLineEnd c = false :=
    fun h c hc => Bool.not_eq_true' (isLineEnd c) ▸ List.all_eq_true.mp h c hc
  simp only [Block.line, head, tail, List.forall_mem_append, List.forall_mem_singleton]
  exact ⟨⟨htext (by decide), hdigit, htext (by decide), hfield b.field_host, htext (by decide),
    hfield b.field_cs_base, by decide⟩, hfield b.field_pc, by decide, hfield b.field_flags,
    htext (by decide)⟩

/-- The `pc` of a block's line is that of the block. -/
theorem pcOf_line (b : Block) : pcOf b.line = some b.pc := by
  refine pcOf_iff.mpr ⟨b.index, b.host, b.cs_base, b.flags, b.isDigit_index, b.field_host,
    b.field_cs_base, b.field_pc, b.field_flags, rfl, fun h => ?_, fun h => ?_, fun h => ?_⟩
  · exact b.bracket_host (h.trans (List.tail_suffix _).isInfix)
  · exact b.slash_cs_base (List.mem_of_mem_tail h)
  · exact b.slash_flags (List.mem_of_mem_dropLast h)

theorem pcOf_other {text : List Char} (htrace : ¬ "Trace ".toList <+: text) :
    pcOf text = none := by
  by_contra h
  obtain ⟨pc, hpc⟩ := Option.ne_none_iff_exists'.mp h
  obtain ⟨d, h, a, f, -, -, -, -, -, rfl, -⟩ := pcOf_iff.mp hpc
  rw [head, List.append_assoc] at htrace
  exact htrace (List.prefix_append _ _)

theorem Entry.line_lineEnd (e : Entry) : ∀ c ∈ e.line, isLineEnd c = false := by
  cases e with
  | block b => exact b.line_lineEnd
  | other text hline htrace => exact hline

theorem readLines_render (log : List Entry) : readLines (render log) = log.map Entry.line := by
  refine lines_unlines rfl rfl _ fun t ht => ?_
  obtain ⟨e, -, rfl⟩ := List.mem_map.mp ht
  exact e.line_lineEnd

variable {Address : Type} {getAddress : GetAddress Address} {value : Block → Address}

/-- The list of a log that reads well. -/
theorem addressLoop_log {log : List Entry} : ∀ lst,
    (∀ b ∈ blocks log, getAddress ("0x".toList ++ b.pc) = .ok (some (value b))) →
    addressLoop getAddress lst (log.map Entry.line)
      = lst ++ (blocks log).map fun b => some (value b) := by
  induction log with
  | nil =>
      intro lst _
      exact (List.append_nil lst).symm
  | cons e log ih =>
      intro lst hread
      cases e with
      | block b =>
          obtain ⟨hb, hlog⟩ := List.forall_mem_cons.mp hread
          rw [List.map_cons, addressLoop_cons, Entry.line, pcOf_line]
          simp only [hb]
          rw [ih _ hlog, List.append_assoc]
          rfl
      | other text hline htrace =>
          rw [List.map_cons, addressLoop_cons, Entry.line, pcOf_other htrace]
          exact ih lst hread

variable [LinearOrder Address] {minAddress maxAddress : Address}

theorem colorLoop_some (addrs : List Address) : ∀ colored : Colored Address,
    colorLoop minAddress maxAddress colored (addrs.map some)
      = some ⟨colored.addresses
          ∪ (addrs.filter fun a => minAddress ≤ a ∧ a ≤ maxAddress).toFinset,
        colored.counter + (addrs.filter fun a => minAddress ≤ a ∧ a ≤ maxAddress).length⟩ := by
  induction addrs with
  | nil =>
      intro colored
      simp [colorLoop]
  | cons addr addrs ih =>
      intro colored
      rw [List.map_cons, colorLoop]
      split
      · rename_i hin
        rw [ih, List.filter_cons_of_pos (by simpa using hin), List.toFinset_cons,
          List.length_cons, Finset.insert_union, Finset.union_insert]
        simp only [Nat.add_assoc, Nat.add_comm 1]
      · rename_i hout
        rw [ih, List.filter_cons_of_neg (by simpa using hout)]

/-- **A log is coloured back**: whatever stands between them, the blocks of the log whose
`pc` lies in the program are coloured, and no other address, and each one is counted. -/
theorem run_render (log : List Entry)
    (hread : ∀ b ∈ blocks log, getAddress ("0x".toList ++ b.pc) = .ok (some (value b))) :
    run getAddress minAddress maxAddress (some (render log))
      = some ⟨(((blocks log).map value).filter
            fun a => minAddress ≤ a ∧ a ≤ maxAddress).toFinset,
          (((blocks log).map value).filter fun a => minAddress ≤ a ∧ a ≤ maxAddress).length⟩ := by
  have haddresses : getAddresses getAddress (some (render log))
      = ((blocks log).map value).map some := by
    rw [getAddresses, readLines_render, addressLoop_log [] hread, List.map_map]
    rfl
  rw [run, haddresses, colorLoop_some, Finset.empty_union, Nat.zero_add]

/-- A block, as it was logged. -/
def smallBlock : Block where
  index := '0'
  host := "7f4c".toList
  cs_base := "00000000".toList
  pc := "fffffff00760f9e0".toList
  flags := "0x82000".toList
  isDigit_index := by decide
  field_host := ⟨by decide, List.all_eq_true.mp (by decide)⟩
  field_cs_base := ⟨by decide, List.all_eq_true.mp (by decide)⟩
  field_pc := ⟨by decide, List.all_eq_true.mp (by decide)⟩
  field_flags := ⟨by decide, List.all_eq_true.mp (by decide)⟩
  bracket_host := by decide
  slash_cs_base := by decide
  slash_flags := by decide

theorem run_render_small :
    run (fun text => if text = "0xfffffff00760f9e0".toList then .ok (some 0xfffffff00760f9e0)
        else .error ()) (0xfffffff007000000 : ℕ) 0xfffffff008000000
        (some (render [.block smallBlock, .other "IN: ".toList (by simp [isLineEnd]) (by decide),
          .block smallBlock]))
      = some ⟨{0xfffffff00760f9e0}, 2⟩ := by
  rw [@run_render ℕ _ (fun _ => 0xfffffff00760f9e0)]
  · rfl
  · intro b hb
    obtain rfl : b = smallBlock := by simpa [blocks] using hb
    rfl

end Log

end XnuQemuTools.ColorAddress
