/-! Text as a list of characters, its lines, and the stripping of a list at its ends. -/
namespace CodeCatalog

/-- Text that is scanned: names, paths, comments, source. -/
abbrev Text := List Char

/-! ## Stripping -/

section Strip
variable {α : Type} (p : α → Bool)

/-- Drops the longest end whose members all satisfy `p`. -/
def dropTrailing (l : List α) : List α :=
  (l.reverse.dropWhile p).reverse

/-- Drops at both ends what satisfies `p`. -/
def strip (l : List α) : List α :=
  dropTrailing p (l.dropWhile p)

@[simp] theorem dropTrailing_nil : dropTrailing p ([] : List α) = [] := rfl

theorem dropTrailing_concat (l : List α) (a : α) :
    dropTrailing p (l ++ [a]) = if p a then dropTrailing p l else l ++ [a] := by
  cases h : p a <;> simp [dropTrailing, h]

@[simp] theorem strip_nil : strip p ([] : List α) = [] := rfl

end Strip

/-! ## Lines -/

namespace Text

/-- The lines of a text. A line feed separates two lines, so there is always one line more. -/
def lines (t : Text) : List Text :=
  List.splitOn '\n' t

/-- Puts a line feed between every two lines. -/
def unlines (ls : List Text) : Text :=
  List.intercalate ['\n'] ls

@[simp] theorem unlines_lines (t : Text) : unlines (lines t) = t :=
  List.intercalate_splitOn '\n'

theorem lines_unlines {ls : List Text} (h : ∀ l ∈ ls, '\n' ∉ l) (hne : ls ≠ []) :
    lines (unlines ls) = ls :=
  List.splitOn_intercalate '\n' h hne

end Text

end CodeCatalog
