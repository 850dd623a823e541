/-
The scripts that give the linker the kernel's symbols (`getsymbols.py`).

There are two of one name: the drivers' reads what `nm` prints, a location, a type and a name
between single spaces, and the one of `pic-binary` reads the table that Ghidra exports as
CSV and keeps its global functions. `nm` and Ghidra are other programs, and `nm` and
`Table.export` stand for the files that they write. Both scripts write a `PROVIDE` for each symbol, without one
underscore at the head of its name.

A file is opened as text, so every end of a line in it is `\n` (`universal`). What has been
written when an exception comes stays written.
-/
import XnuQemuTools.Csv
import XnuQemuTools.Lines

set_option autoImplicit false

namespace XnuQemuTools.GetSymbols

open Csv Lines

/-! ## The scripts -/

/-- What the scripts can raise. -/
inductive Exn where
  | IndexError
  | ValueError
  | StopIteration
  | csv (e : Error)
  deriving DecidableEq

/-- The text written so far, and the exception at the end. -/
abbrev Written : Type := Text × Option Exn

/-- A file that is read as text. -/
def universal : Text → Text
  | [] => []
  | '\r' :: '\n' :: text => '\n' :: universal text
  | c :: text => (if c = '\r' then '\n' else c) :: universal text

/-- The characters that end a line for `splitlines`. -/
def isBoundary (c : Char) : Bool :=
  c ∈ ['\n', '\r', '\u000b', '\u000c', '\u001c', '\u001d', '\u001e', '\u0085', '\u2028', '\u2029']

/-- `if name.startswith('_'): name = name[1:]`. -/
def strip : Text → Text
  | '_' :: name => name
  | name => name

/-- `print(f"PROVIDE ({name} = 0x{location});", file=writer)`. -/
def provide (name location : Text) : Text :=
  "PROVIDE (".toList ++ strip name ++ " = 0x".toList ++ location ++ ");\n".toList

/-- The loop of `nm2ld`. -/
def nmLoop : List Text → Written
  | [] => ([], none)
  | symbol :: symbols =>
      match (symbol.splitOn ' ')[2]?, (symbol.splitOn ' ')[0]? with
      | some name, some location =>
          (provide name location ++ (nmLoop symbols).1, (nmLoop symbols).2)
      | _, _ => ([], some .IndexError)

/-- `nm2ld`, from what is in its file to what it writes. -/
def nm2ld (file : Text) : Written := nmLoop (lines isBoundary (universal file))

/-- `values[fields.index(column)]`. -/
def cell (fields values : List Text) (column : String) : Except Exn Text :=
  match fields.idxOf? column.toList with
  | none => .error .ValueError
  | some i =>
      match values[i]? with
      | none => .error .IndexError
      | some value => .ok value

/-- The body of the loop of `csv2ld`: what it writes. -/
def csvRow (fields values : List Text) : Except Exn Text := do
  let name ← cell fields values "Name"
  let location ← cell fields values "Location"
  let symtype ← cell fields values "Symbol Type"
  let namespace' ← cell fields values "Namespace"
  if symtype ≠ "Function".toList ∨ namespace' ≠ "Global".toList then
    return []
  return provide name location

/-- The loop of `csv2ld`, over what is left of the reader. -/
def csvLoop (fields : List Text) : Rows → Written
  | ([], none) => ([], none)
  | ([], some e) => ([], some (.csv e))
  | (values :: rows, e) =>
      match csvRow fields values with
      | .error e => ([], some e)
      | .ok text => (text ++ (csvLoop fields (rows, e)).1, (csvLoop fields (rows, e)).2)
  termination_by rows => rows.1.length

/-- `csv2ld`, from what is in its file to what it writes. -/
def csv2ld (file : Text) : Written :=
  match reader (universal file) with
  | ([], none) => ([], some .StopIteration)
  | ([], some e) => ([], some (.csv e))
  | (fields :: rows, e) => csvLoop fields (rows, e)

/-! ## Tables and lists of symbols -/

/-- A table with the columns that the script asks for, each row of which has all columns. No
cell is longer than the reader's limit or has a `\r`, which is lost where a file is read. -/
structure Table where
  fields : List Text
  rows : List (List Text)
  columns : ∀ column ∈ ["Name", "Location", "Symbol Type", "Namespace"], column.toList ∈ fields
  complete : ∀ row ∈ rows, row.length = fields.length
  plain : ∀ row ∈ fields :: rows, ∀ f ∈ row, f.length ≤ field_limit ∧ '\r' ∉ f

/-- What a row has in a column. -/
def Table.get (t : Table) (row : List Text) (column : String) : Text :=
  row.getD (t.fields.idxOf column.toList) []

/-- The rows that the script keeps. -/
def Table.isGlobalFunction (t : Table) (row : List Text) : Bool :=
  t.get row "Symbol Type" = "Function".toList && t.get row "Namespace" = "Global".toList

/-- The file for a table, as Ghidra is taken to write it: every cell in quotes. -/
def Table.export (t : Table) : Text := render (t.fields :: t.rows)

/-- A symbol that `nm` can print on one line without spaces. -/
structure Symbol where
  location : Text
  kind : Text
  name : Text
  plain : ∀ c ∈ location ++ kind ++ name, c ≠ ' ' ∧ isBoundary c = false

/-- Its line. -/
def Symbol.line (s : Symbol) : Text := List.intercalate [' '] [s.location, s.kind, s.name]

/-- The file for a list of symbols, as `nm` is taken to print it. -/
def nm (symbols : List Symbol) : Text := unlines (symbols.map Symbol.line)

/-! ## What is written -/

theorem universal_id {text : Text} (h : '\r' ∉ text) : universal text = text := by
  induction text with
  | nil => rfl
  | cons c text ih =>
      obtain ⟨hc, htext⟩ := (not_or.mp fun hc => h (List.mem_cons.mpr hc))
      rw [universal, if_neg (Ne.symm hc), ih htext]
      rintro _ rfl
      exact absurd rfl hc

section Nm

theorem Symbol.splitOn_line (s : Symbol) : s.line.splitOn ' ' = [s.location, s.kind, s.name] := by
  have hplain := List.forall_mem_append.mp s.plain
  have hplain' := List.forall_mem_append.mp hplain.1
  refine List.splitOn_intercalate ' ' (fun l hl hspace => ?_) (List.cons_ne_nil _ _)
  simp only [List.mem_cons, List.not_mem_nil, or_false] at hl
  rcases hl with rfl | rfl | rfl
  · exact (hplain'.1 _ hspace).1 rfl
  · exact (hplain'.2 _ hspace).1 rfl
  · exact (hplain.2 _ hspace).1 rfl

theorem Symbol.line_boundary (s : Symbol) : ∀ c ∈ s.line, isBoundary c = false := by
  have hplain := List.forall_mem_append.mp s.plain
  have hplain' := List.forall_mem_append.mp hplain.1
  have hline : s.line = s.location ++ ([' '] ++ (s.kind ++ ([' '] ++ s.name))) := by
    simp [Symbol.line, List.intercalate]
  rw [hline]
  simp only [List.forall_mem_append, List.forall_mem_singleton]
  exact ⟨fun c hc => (hplain'.1 c hc).2, by decide, fun c hc => (hplain'.2 c hc).2, by decide,
    fun c hc => (hplain.2 c hc).2⟩

/-- What the list of symbols says to provide. -/
def provides (symbols : List Symbol) : Text := symbols.flatMap fun s => provide s.name s.location

theorem nmLoop_symbols (symbols : List Symbol) (rest : List Text) :
    nmLoop (symbols.map Symbol.line ++ rest)
      = (provides symbols ++ (nmLoop rest).1, (nmLoop rest).2) := by
  induction symbols with
  | nil => rfl
  | cons s symbols ih =>
      rw [List.map_cons, List.cons_append, nmLoop, s.splitOn_line, ih, provides, provides,
        List.flatMap_cons, List.append_assoc]
      rfl

/-- The lines that the script sees. -/
theorem lines_universal {texts : List Text} (h : ∀ t ∈ texts, ∀ c ∈ t, isBoundary c = false) :
    lines isBoundary (universal (unlines texts)) = texts := by
  have hreturn : '\r' ∉ unlines texts := by
    intro hmem
    obtain ⟨t, ht, hc⟩ := List.mem_flatMap.mp hmem
    rcases List.mem_append.mp hc with hc | hc
    · exact absurd (h t ht _ hc) (by decide)
    · exact absurd hc (by decide)
  rw [universal_id hreturn, lines_unlines (by decide) (by decide) _ h]

theorem Symbol.lines_boundary (symbols : List Symbol) :
    ∀ t ∈ symbols.map Symbol.line, ∀ c ∈ t, isBoundary c = false := by
  intro t ht
  obtain ⟨s, -, rfl⟩ := List.mem_map.mp ht
  exact s.line_boundary

theorem nm2ld_symbols (symbols : List Symbol) : nm2ld (nm symbols) = (provides symbols, none) := by
  have hloop := nmLoop_symbols symbols []
  rw [List.append_nil] at hloop
  rw [nm2ld, nm, lines_universal (Symbol.lines_boundary symbols), hloop]
  exact congrArg (·, none) (List.append_nil _)

/-- **A line of less than three fields** ends the script, and what it has written by then is
what the symbols before the line provide. -/
theorem nm2ld_short (symbols : List Symbol) (line : Text) (rest : List Text)
    (hplain : ∀ t ∈ line :: rest, ∀ c ∈ t, isBoundary c = false)
    (hshort : (line.splitOn ' ').length < 3) :
    nm2ld (unlines (symbols.map Symbol.line ++ line :: rest))
      = (provides symbols, some .IndexError) := by
  have hall := List.forall_mem_append.mpr ⟨Symbol.lines_boundary symbols, hplain⟩
  have hline : nmLoop (line :: rest) = ([], some .IndexError) := by
    rw [nmLoop, List.getElem?_eq_none (Nat.le_of_lt_succ hshort)]
  rw [nm2ld, lines_universal hall, nmLoop_symbols, hline, List.append_nil]

end Nm

section Csv

variable {t : Table} {row : List Text}

theorem Table.idxOf?_fields (t : Table) {column : String}
    (hcolumn : column ∈ ["Name", "Location", "Symbol Type", "Namespace"]) :
    t.fields.idxOf? column.toList = some (t.fields.idxOf column.toList) := by
  rw [List.idxOf_eq_getD_idxOf?]
  cases hidx : t.fields.idxOf? column.toList with
  | none => exact absurd (t.columns column hcolumn) (List.idxOf?_eq_none_iff.mp hidx)
  | some i => rfl

theorem Table.cell_ok (t : Table) (hrow : row ∈ t.rows) {column : String}
    (hcolumn : column ∈ ["Name", "Location", "Symbol Type", "Namespace"]) :
    cell t.fields row column = .ok (t.get row column) := by
  have hlt : t.fields.idxOf column.toList < row.length := by
    rw [t.complete row hrow]
    exact List.idxOf_lt_length_of_mem (t.columns column hcolumn)
  rw [cell, t.idxOf?_fields hcolumn]
  simp only [Table.get, List.getD_eq_getElem?_getD, List.getElem?_eq_getElem hlt, Option.getD_some]

theorem Table.csvRow_ok (t : Table) (hrow : row ∈ t.rows) :
    csvRow t.fields row = .ok (if t.isGlobalFunction row then
      provide (t.get row "Name") (t.get row "Location") else []) := by
  rw [csvRow, t.cell_ok hrow (by decide), t.cell_ok hrow (by decide), t.cell_ok hrow (by decide),
    t.cell_ok hrow (by decide)]
  simp only [bind, Except.bind, Table.isGlobalFunction, Bool.and_eq_true, decide_eq_true_eq]
  by_cases hboth : t.get row "Symbol Type" = "Function".toList
      ∧ t.get row "Namespace" = "Global".toList
  · rw [if_pos hboth, if_neg (fun h => h.elim (· hboth.1) (· hboth.2))]
    rfl
  · rw [if_neg hboth, if_pos (not_and_or.mp hboth)]
    rfl

/-- What the rows of a table say to provide. -/
def Table.provides (t : Table) (rows : List (List Text)) : Text :=
  (rows.filter t.isGlobalFunction).flatMap fun row =>
    provide (t.get row "Name") (t.get row "Location")

theorem Table.csvLoop_rows (t : Table) (rows rest : List (List Text))
    (hrows : ∀ row ∈ rows, row ∈ t.rows) : csvLoop t.fields (rows ++ rest, none)
      = (t.provides rows ++ (csvLoop t.fields (rest, none)).1,
        (csvLoop t.fields (rest, none)).2) := by
  induction rows with
  | nil => rfl
  | cons row rows ih =>
      obtain ⟨hrow, hrows⟩ := List.forall_mem_cons.mp hrows
      rw [List.cons_append, csvLoop, t.csvRow_ok hrow, ih hrows, Table.provides, Table.provides]
      cases hkeep : t.isGlobalFunction row with
      | true =>
          rw [if_pos rfl, List.filter_cons_of_pos hkeep, List.flatMap_cons, List.append_assoc]
      | false =>
          rw [if_neg (by decide), List.filter_cons_of_neg (by rw [hkeep]; decide)]
          rfl

/-- The rows that the script reads of a table, with more rows behind it. -/
theorem Table.reader_export (t : Table) (rest : List (List Text))
    (hplain : ∀ row ∈ rest, ∀ f ∈ row, f.length ≤ field_limit ∧ '\r' ∉ f) :
    reader (universal (t.export ++ render rest)) = (t.fields :: (t.rows ++ rest), none) := by
  have hrender : t.export ++ render rest = render (t.fields :: (t.rows ++ rest)) := by
    rw [Table.export, render, render, render, ← List.flatMap_append]
    rfl
  have hall : ∀ row ∈ t.fields :: (t.rows ++ rest), ∀ f ∈ row,
      f.length ≤ field_limit ∧ '\r' ∉ f := by
    have hrows := List.forall_mem_cons.mp t.plain
    exact List.forall_mem_cons.mpr ⟨hrows.1, List.forall_mem_append.mpr ⟨hrows.2, hplain⟩⟩
  have hreturn : '\r' ∉ render (t.fields :: (t.rows ++ rest)) := fun hmem => by
    rcases mem_render hmem with hc | ⟨row, hrow, f, hf, hc⟩
    · exact absurd hc (by decide)
    · exact (hall row hrow f hf).2 hc
  rw [hrender, universal_id hreturn, rows_table _ fun row hrow f hf => (hall row hrow f hf).1]

theorem Table.csv2ld_export (t : Table) (rest : List (List Text))
    (hplain : ∀ row ∈ rest, ∀ f ∈ row, f.length ≤ field_limit ∧ '\r' ∉ f) :
    csv2ld (t.export ++ render rest) = (t.provides t.rows ++ (csvLoop t.fields (rest, none)).1,
      (csvLoop t.fields (rest, none)).2) := by
  rw [csv2ld, t.reader_export rest hplain]
  exact t.csvLoop_rows t.rows rest fun row hrow => hrow

/-- **What a table provides**: its global functions in their order, whatever its columns
are called besides and whatever its cells hold; and with an empty line behind the table the
same, and an `IndexError`. -/
theorem csv2ld_table (t : Table) :
    csv2ld t.export = (t.provides t.rows, none)
      ∧ csv2ld (t.export ++ ['\n']) = (t.provides t.rows, some .IndexError) := by
  constructor
  · have hall := t.csv2ld_export [] fun row hrow => absurd hrow List.not_mem_nil
    have hrest : csvLoop t.fields ([], none) = ([], none) := by rw [csvLoop]
    rwa [hrest, List.append_nil, show render [] = [] from rfl, List.append_nil] at hall
  · have hall := t.csv2ld_export [[]] fun row hrow f hf => by
      rw [List.mem_singleton.mp hrow] at hf
      exact absurd hf List.not_mem_nil
    have hrow : csvRow t.fields [] = .error .IndexError := by
      rw [csvRow, cell, t.idxOf?_fields (by decide)]
      rfl
    have hrest : csvLoop t.fields ([[]], none) = ([], some .IndexError) := by
      rw [csvLoop, hrow]
    rwa [hrest, List.append_nil] at hall

/-- **The two scripts agree**: a table and a list of the symbols of its global functions
become the same file. -/
theorem same_provides (t : Table) (symbols : List Symbol)
    (h : (t.rows.filter t.isGlobalFunction).map (fun row => (t.get row "Name", t.get row "Location"))
      = symbols.map fun s => (s.name, s.location)) :
    csv2ld t.export = nm2ld (nm symbols) := by
  have hprovides : t.provides t.rows = provides symbols := by
    have hpairs := congrArg (List.flatMap fun p => provide p.1 p.2) h
    rwa [List.flatMap_map, List.flatMap_map] at hpairs
  have hcsv := t.csv2ld_export [] fun row hrow => absurd hrow List.not_mem_nil
  rw [show render [] = [] from rfl, List.append_nil, csvLoop] at hcsv
  rw [hcsv, nm2ld_symbols, hprovides, List.append_nil]

/-- A table of two functions and a label, with its columns in another order. -/
def smallTable : Table where
  fields := ["Location", "Name", "Type,\"kind\"", "Symbol Type", "Namespace"].map String.toList
  rows := [["fffffff0070d0c7c", "_Assert", "", "Function", "Global"],
    ["fffffff007525050", "Block_size", "", "Data Label", "Global"],
    ["fffffff0070d2770", "__Debugger", "a\nb", "Function", "Global"]].map (·.map String.toList)
  columns := by decide
  complete := by decide
  plain := by unfold field_limit; decide +kernel

/-- The symbols of its functions. -/
def smallSymbols : List Symbol :=
  [⟨"fffffff0070d0c7c".toList, ['T'], "_Assert".toList, by simp [isBoundary]⟩,
    ⟨"fffffff0070d2770".toList, ['T'], "__Debugger".toList, by simp [isBoundary]⟩]

theorem same_provides_small : csv2ld smallTable.export = nm2ld (nm smallSymbols) :=
  same_provides smallTable smallSymbols (by decide +kernel)

example : provides smallSymbols
    = "PROVIDE (Assert = 0xfffffff0070d0c7c);\nPROVIDE (_Debugger = 0xfffffff0070d2770);\n".toList :=
  by decide +kernel

end Csv

end XnuQemuTools.GetSymbols
