import CodeCatalog.Text.Blank

/-! Source text of a declaration, cut free of the indentation that surrounds it. -/
namespace CodeCatalog.Snippet

/-- Indentation is made of spaces and tabs, each of width one. -/
def isIndent (c : Char) : Bool :=
  c = ' ' || c = '\t'

/-- How many characters of indentation a line has. -/
def indentation (line : Text) : Nat :=
  (line.takeWhile isIndent).length

/-- Drops up to `width` characters of indentation. -/
def unindent : Nat → Text → Text
  | width + 1, c :: line => if isIndent c then unindent width line else c :: line
  | _, line => line

/-- Drops one line terminator, `"\r\n"` or `"\n"`, from the end. -/
def dropTerminator (t : Text) : Text :=
  match t.reverse with
  | '\n' :: '\r' :: rest => rest.reverse
  | '\n' :: rest => rest.reverse
  | _ => t

/-- The least indentation of the lines with something on them, and 0 without such a line. -/
def commonIndentation (ls : List Text) : Nat :=
  (((ls.filter (fun l => !l.allBlank)).map indentation).min?).getD 0

/-- A blank line loses all its indentation, any other line the common one. -/
def dedentLine (width : Nat) (line : Text) : Text :=
  if line.allBlank then line.dropWhile isIndent else unindent width line

/-- Drops the last line terminator and the indentation that all lines share. -/
def dedent (t : Text) : Text :=
  let ls := (dropTerminator t).lines
  Text.unlines (ls.map (dedentLine (commonIndentation ls)))

@[simp] theorem indentation_nil : indentation [] = 0 := rfl

@[simp] theorem unindent_zero (line : Text) : unindent 0 line = line := by
  cases line <;> rfl

/-- Within a line's own indentation, exactly `width` characters go. -/
theorem unindent_eq_drop {width : Nat} {line : Text} (h : width ≤ indentation line) :
    unindent width line = line.drop width := by
  induction width generalizing line with
  | zero => simp
  | succ width ih =>
    cases line with
    | nil => simp [unindent]
    | cons c line =>
      by_cases hc : isIndent c = true
      · simp only [indentation, List.takeWhile_cons_of_pos hc, List.length_cons] at h
        simp only [unindent, hc, if_true, List.drop_succ_cons]
        exact ih (by simp only [indentation]; omega)
      · simp [indentation, hc] at h

end CodeCatalog.Snippet
