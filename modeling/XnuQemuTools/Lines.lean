/-
Texts cut into lines.

Java's `readLine` and Python's `splitlines` differ only in which characters end a line. In
both `\r\n` is one end, and a last line without an end counts if it is not empty.
-/
import Mathlib.Data.List.Basic
import Mathlib.Tactic.Common

set_option autoImplicit false

namespace XnuQemuTools.Lines

/-- The lines of a text, when `line` has been read of the first. -/
def linesFrom (isEnd : Char → Bool) : List Char → List Char → List (List Char)
  | line, [] => if line = [] then [] else [line]
  | line, '\r' :: '\n' :: text => line :: linesFrom isEnd [] text
  | line, c :: text =>
      if isEnd c then line :: linesFrom isEnd [] text else linesFrom isEnd (line ++ [c]) text

def lines (isEnd : Char → Bool) (text : List Char) : List (List Char) := linesFrom isEnd [] text

/-- Lines with a `\n` behind each. -/
def unlines (texts : List (List Char)) : List Char := texts.flatMap fun t => t ++ ['\n']

variable {isEnd : Char → Bool}

/-- A line is read up to its end. -/
theorem linesFrom_line (hn : isEnd '\n') (hr : isEnd '\r') (text rest : List Char)
    (htext : ∀ c ∈ text, isEnd c = false) : ∀ line,
    linesFrom isEnd line (text ++ '\n' :: rest) = (line ++ text) :: linesFrom isEnd [] rest := by
  induction text with
  | nil =>
      intro line
      rw [List.nil_append, List.append_nil, linesFrom, if_pos hn]
      exact fun _ h => absurd h (by decide)
  | cons c text ih =>
      intro line
      obtain ⟨hc, htext⟩ := List.forall_mem_cons.mp htext
      have hstep : linesFrom isEnd line (c :: (text ++ '\n' :: rest))
          = linesFrom isEnd (line ++ [c]) (text ++ '\n' :: rest) := by
        rw [linesFrom, if_neg (by rw [hc]; decide)]
        rintro _ rfl
        cases hc.symm.trans hr
      rw [List.cons_append, hstep, ih htext, List.append_assoc]
      rfl

theorem lines_unlines (hn : isEnd '\n') (hr : isEnd '\r') (texts : List (List Char))
    (h : ∀ t ∈ texts, ∀ c ∈ t, isEnd c = false) : lines isEnd (unlines texts) = texts := by
  induction texts with
  | nil => rfl
  | cons t texts ih =>
      obtain ⟨ht, htexts⟩ := List.forall_mem_cons.mp h
      rw [lines, unlines, List.flatMap_cons, List.append_assoc, List.singleton_append,
        linesFrom_line hn hr _ _ ht, List.nil_append]
      exact congrArg (t :: ·) (ih htexts)

end XnuQemuTools.Lines
