/-
Python's `csv.reader` with its default dialect.

The reader is a machine of six states that is given the characters of each line of a file,
and behind them the end of the line, which is none of them. A row is complete when a line
ends outside of quotes; inside of quotes its end is nothing and the field goes on in the
next line. A quote in quotes is written twice.

`events` are the characters with the ends of the lines, and `rows` is all that the reader
yields, with the error it stops at. `rows_table` is the round trip: whatever the fields of a
table are, quoted they are read back.
-/
import Mathlib.Data.List.Basic
import Mathlib.Tactic.Common

set_option autoImplicit false

namespace XnuQemuTools.Csv

/-- A text. -/
abbrev Text : Type := List Char

/-! ## The reader -/

/-- The states of the reader. -/
inductive State where
  | START_RECORD
  | START_FIELD
  | IN_FIELD
  | IN_QUOTED_FIELD
  | QUOTE_IN_QUOTED_FIELD
  | EAT_CRNL
  deriving DecidableEq

/-- Why `csv.Error` is raised: a field is longer than the limit, or a line goes on behind
its end. -/
inductive Error where
  | fieldLimit
  | newline
  deriving DecidableEq

/-- The state, the field so far and the fields of the row so far. -/
structure Reader where
  state : State
  field : Text
  fields : List Text

/-- The reader before a row. -/
def Reader.reset : Reader := ⟨.START_RECORD, [], []⟩

/-- The default of `csv.field_size_limit`. -/
def field_limit : ℕ := 131072

/-- `parse_save_field`, and the next state. -/
def Reader.save_field (r : Reader) (state : State) : Reader := ⟨state, [], r.fields ++ [r.field]⟩

/-- `parse_add_char`, and the next state. -/
def Reader.add_char (r : Reader) (c : Char) (state : State) : Except Error Reader :=
  if r.field.length ≥ field_limit then .error .fieldLimit
  else .ok ⟨state, r.field ++ [c], r.fields⟩

/-- A character of `\n` and `\r`. -/
def isNewline (c : Char) : Bool := c = '\n' || c = '\r'

/-- `START_FIELD`. -/
def start_field (r : Reader) : Option Char → Except Error Reader
  | none => .ok (r.save_field .START_RECORD)
  | some c =>
      if isNewline c then .ok (r.save_field .EAT_CRNL)
      else if c = '"' then .ok { r with state := .IN_QUOTED_FIELD }
      else if c = ',' then .ok (r.save_field .START_FIELD)
      else r.add_char c .IN_FIELD

/-- `parse_process_char`, where `none` is the end of a line. -/
def process_char (r : Reader) (c : Option Char) : Except Error Reader :=
  match r.state, c with
  | .START_RECORD, none => .ok r
  | .START_RECORD, some c =>
      if isNewline c then .ok { r with state := .EAT_CRNL } else start_field r (some c)
  | .START_FIELD, c => start_field r c
  | .IN_FIELD, none => .ok (r.save_field .START_RECORD)
  | .IN_FIELD, some c =>
      if isNewline c then .ok (r.save_field .EAT_CRNL)
      else if c = ',' then .ok (r.save_field .START_FIELD)
      else r.add_char c .IN_FIELD
  | .IN_QUOTED_FIELD, none => .ok r
  | .IN_QUOTED_FIELD, some c =>
      if c = '"' then .ok { r with state := .QUOTE_IN_QUOTED_FIELD }
      else r.add_char c .IN_QUOTED_FIELD
  | .QUOTE_IN_QUOTED_FIELD, none => .ok (r.save_field .START_RECORD)
  | .QUOTE_IN_QUOTED_FIELD, some c =>
      if c = '"' then r.add_char c .IN_QUOTED_FIELD
      else if c = ',' then .ok (r.save_field .START_FIELD)
      else if isNewline c then .ok (r.save_field .EAT_CRNL)
      else r.add_char c .IN_FIELD
  | .EAT_CRNL, none => .ok { r with state := .START_RECORD }
  | .EAT_CRNL, some c => if isNewline c then .ok r else .error .newline

/-- The characters of the lines of a text, and `none` behind each line. -/
def events : Text → List (Option Char)
  | [] => []
  | [c] => [some c, none]
  | c :: text => if c = '\n' then some c :: none :: events text else some c :: events text

/-- What an iteration over a reader yields: the rows, and the exception it ends with. -/
abbrev Rows : Type := List (List Text) × Option Error

/-- The rows from a point of the text on. A text that ends in quotes ends its row. -/
def rows : Reader → List (Option Char) → Rows
  | r, [] =>
      if r.field ≠ [] ∨ r.state = .IN_QUOTED_FIELD then ([(r.save_field .START_RECORD).fields], none)
      else ([], none)
  | r, some c :: es =>
      match process_char r (some c) with
      | .ok r => rows r es
      | .error e => ([], some e)
  | r, none :: es =>
      match process_char r none with
      | .ok r =>
          if r.state = .START_RECORD then
            let rest := rows Reader.reset es
            (r.fields :: rest.1, rest.2)
          else rows r es
      | .error e => ([], some e)

/-- All rows of a text. -/
def reader (text : Text) : Rows := rows Reader.reset (events text)

/-! ## Tables in quotes -/

/-- A field with each quote twice. -/
def double (field : Text) : Text := field.flatMap fun c => if c = '"' then ['"', '"'] else [c]

/-- A field in quotes. -/
def quote (field : Text) : Text := '"' :: (double field ++ ['"'])

/-- A row of quoted fields. -/
def renderRow (row : List Text) : Text := List.intercalate [','] (row.map quote) ++ ['\n']

def render (table : List (List Text)) : Text := table.flatMap renderRow

/-- Where the characters of a table come from. -/
theorem mem_render {table : List (List Text)} {c : Char} (h : c ∈ render table) :
    c ∈ ['"', ',', '\n'] ∨ ∃ row ∈ table, ∃ field ∈ row, c ∈ field := by
  obtain ⟨row, hrow, hc⟩ := List.mem_flatMap.mp h
  have hquote : ∀ {field : Text}, c ∈ quote field → c = '"' ∨ c ∈ field := by
    intro field hc
    simp only [quote, double, List.mem_cons, List.mem_append, List.mem_flatMap,
      List.not_mem_nil, or_false] at hc
    rcases hc with hc | ⟨x, hx, hc⟩ | hc
    · exact Or.inl hc
    · split at hc
      · exact Or.inl (by simpa using hc)
      · exact Or.inr (List.mem_singleton.mp hc ▸ hx)
    · exact Or.inl hc
  have hjoin : ∀ row : List Text, c ∈ List.intercalate [','] (row.map quote) →
      c = ',' ∨ ∃ field ∈ row, c ∈ quote field := by
    intro row
    induction row with
    | nil => exact fun hc => absurd hc (by simp [List.intercalate])
    | cons field row ih =>
        intro hc
        cases row with
        | nil => exact Or.inr ⟨field, List.mem_cons_self, by simpa [List.intercalate] using hc⟩
        | cons field' row =>
            have hsplit : c ∈ quote field ∨ c = ','
                ∨ c ∈ List.intercalate [','] ((field' :: row).map quote) := by
              simpa [List.intercalate, or_assoc] using hc
            rcases hsplit with hc | hc | hc
            · exact Or.inr ⟨field, List.mem_cons_self, hc⟩
            · exact Or.inl hc
            · exact (ih hc).imp_right fun ⟨f, hf, hc⟩ => ⟨f, List.mem_cons_of_mem _ hf, hc⟩
  rcases List.mem_append.mp hc with hc | hc
  · rcases hjoin row hc with rfl | ⟨field, hfield, hc⟩
    · exact Or.inl (by decide)
    · rcases hquote hc with rfl | hc
      · exact Or.inl (by decide)
      · exact Or.inr ⟨row, hrow, field, hfield, hc⟩
  · exact Or.inl (by rw [List.mem_singleton.mp hc]; decide)

theorem events_newline (text : Text) :
    events ('\n' :: text) = some '\n' :: none :: events text := by
  cases text with
  | nil => rfl
  | cons c text => exact if_pos rfl

theorem events_cons {c : Char} {text : Text} (hc : c ≠ '\n') (hne : text ≠ []) :
    events (c :: text) = some c :: events text := by
  cases text with
  | nil => exact absurd rfl hne
  | cons c' text => exact if_neg hc

section Read

variable {r r' : Reader} {c : Char} {es : List (Option Char)} {acc : Text} {done : List Text}

theorem rows_some (h : process_char r (some c) = .ok r') : rows r (some c :: es) = rows r' es := by
  rw [rows, h]

/-- A line that ends inside of a row. -/
theorem rows_inside (h : process_char r none = .ok r') (hstate : r'.state ≠ .START_RECORD) :
    rows r (none :: es) = rows r' es := by
  rw [rows, h]
  exact if_neg hstate

/-- A character that is added to the field. -/
theorem add_char_ok (state : State) (hlen : acc.length < field_limit) (s : State) :
    (⟨s, acc, done⟩ : Reader).add_char c state = .ok ⟨state, acc ++ [c], done⟩ :=
  if_neg (Nat.not_le.mpr hlen)

/-- The inside of a quoted field, with the quote behind it. -/
theorem rows_quoted {tail : Text} (hne : tail ≠ []) (field : Text) : ∀ {acc : Text},
    acc.length + field.length ≤ field_limit →
    rows ⟨.IN_QUOTED_FIELD, acc, done⟩ (events (double field ++ '"' :: tail))
      = rows ⟨.QUOTE_IN_QUOTED_FIELD, acc ++ field, done⟩ (events tail) := by
  induction field with
  | nil =>
      intro acc _
      rw [List.append_nil]
      show rows _ (events ('"' :: tail)) = _
      rw [events_cons (by decide) hne]
      exact rows_some rfl
  | cons c field ih =>
      intro acc hlen
      rw [List.length_cons] at hlen
      have hadd : ∀ s, (⟨s, acc, done⟩ : Reader).add_char c .IN_QUOTED_FIELD
          = .ok ⟨.IN_QUOTED_FIELD, acc ++ [c], done⟩ := add_char_ok _ (by omega)
      have hrest := @ih (acc ++ [c]) (by rw [List.length_append, List.length_singleton]; omega)
      rw [List.append_assoc, List.singleton_append] at hrest
      have hbehind : double field ++ '"' :: tail ≠ [] := List.append_ne_nil_of_right_ne_nil _
        (List.cons_ne_nil _ _)
      by_cases hquote : c = '"'
      · -- it was written twice
        subst hquote
        have hsecond : process_char ⟨.QUOTE_IN_QUOTED_FIELD, acc, done⟩ (some '"')
            = .ok ⟨.IN_QUOTED_FIELD, acc ++ ['"'], done⟩ := by
          simp only [process_char, if_true]
          exact hadd _
        show rows _ (events ('"' :: '"' :: (double field ++ '"' :: tail))) = _
        rw [events_cons (by decide) (List.cons_ne_nil _ _), events_cons (by decide) hbehind,
          rows_some rfl, rows_some hsecond, hrest]
      · have hdouble : double (c :: field) ++ '"' :: tail
            = c :: (double field ++ '"' :: tail) := by
          rw [double, List.flatMap_cons, if_neg hquote]
          rfl
        have hprocess : process_char ⟨.IN_QUOTED_FIELD, acc, done⟩ (some c)
            = .ok ⟨.IN_QUOTED_FIELD, acc ++ [c], done⟩ := (if_neg hquote).trans (hadd _)
        rw [hdouble]
        by_cases hnewline : c = '\n'
        · subst hnewline
          rw [events_newline, rows_some hprocess, rows_inside rfl (by simp), hrest]
        · rw [events_cons hnewline hbehind, rows_some hprocess, hrest]

/-- A row that is not empty, from its first field or a later one on. -/
theorem rows_fields {text : Text} (row : List Text) : ∀ {field : Text} {state : State}
    {done : List Text}, state = .START_RECORD ∨ state = .START_FIELD →
    (∀ f ∈ field :: row, f.length ≤ field_limit) →
    rows ⟨state, [], done⟩ (events (renderRow (field :: row) ++ text))
      = ((done ++ field :: row) :: (reader text).1, (reader text).2) := by
  -- a quoted field, whatever is behind it
  have hfield : ∀ {field : Text} {state : State} {done : List Text} {tail : Text},
      state = .START_RECORD ∨ state = .START_FIELD → field.length ≤ field_limit → tail ≠ [] →
      rows ⟨state, [], done⟩ (events (quote field ++ tail))
        = rows ⟨.QUOTE_IN_QUOTED_FIELD, field, done⟩ (events tail) := by
    intro field state done tail hstate hlen hne
    have hopen : process_char ⟨state, [], done⟩ (some '"')
        = .ok ⟨.IN_QUOTED_FIELD, [], done⟩ := by
      rcases hstate with rfl | rfl <;> rfl
    rw [quote, List.cons_append, List.append_assoc, List.singleton_append,
      events_cons (by decide) (List.append_ne_nil_of_right_ne_nil _ (List.cons_ne_nil _ _)),
      rows_some hopen, rows_quoted hne field (by simpa using hlen), List.nil_append]
  induction row with
  | nil =>
      intro field state done hstate hlen
      have hrow : renderRow [field] ++ text = quote field ++ '\n' :: text := by
        simp [renderRow, List.intercalate]
      rw [hrow, hfield hstate (hlen field List.mem_cons_self) (List.cons_ne_nil _ _),
        events_newline, rows_some rfl, rows]
      rfl
  | cons field' row ih =>
      intro field state done hstate hlen
      obtain ⟨hfieldlen, hrowlen⟩ := List.forall_mem_cons.mp hlen
      have hrow : renderRow (field :: field' :: row) ++ text
          = quote field ++ ',' :: (renderRow (field' :: row) ++ text) := by
        simp [renderRow, List.intercalate]
      have hbehind : renderRow (field' :: row) ++ text ≠ [] := by simp [renderRow]
      rw [hrow, hfield hstate hfieldlen (List.cons_ne_nil _ _), events_cons (by decide) hbehind,
        rows_some rfl]
      have hrest := @ih field' .START_FIELD (done ++ [field]) (Or.inr rfl) hrowlen
      rw [List.append_assoc] at hrest
      exact hrest

end Read

/-- **A table in quotes is read back**, whatever its fields are and however long its rows. -/
theorem rows_table (table : List (List Text))
    (hlen : ∀ row ∈ table, ∀ field ∈ row, field.length ≤ field_limit) :
    reader (render table) = (table, none) := by
  induction table with
  | nil => rfl
  | cons row table ih =>
      obtain ⟨hrow, htable⟩ := List.forall_mem_cons.mp hlen
      rw [reader, render, List.flatMap_cons]
      change rows Reader.reset (events (renderRow row ++ render table)) = _
      cases row with
      | nil =>
          show rows _ (events ('\n' :: render table)) = _
          rw [events_newline, rows_some rfl, rows]
          show (([] : List Text) :: (reader (render table)).1, (reader (render table)).2) = _
          rw [ih htable]
      | cons field row =>
          rw [Reader.reset, rows_fields row (Or.inl rfl) hrow, ih htable]
          rfl

end XnuQemuTools.Csv
