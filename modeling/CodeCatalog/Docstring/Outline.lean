import CodeCatalog.Text.Alphanumeric
import CodeCatalog.Text.Blank

/-! The outline of a document: which lines are prose, and which belong to a tag. -/
namespace CodeCatalog

/-- A tag's name and its lines: what follows the name, and the indented lines below it. -/
structure TagBlock where
  name : Text
  lines : List Text
deriving DecidableEq

/-- The text of a tag, over all its lines. -/
def TagBlock.text (b : TagBlock) : Text :=
  Text.unlines b.lines

/-- The lines of a document from some line on. -/
structure Outline where
  /-- Indented lines at the very start: they go to the tag above them, if there is one. -/
  pending : List Text := []
  body : List Text := []
  tags : List TagBlock := []
deriving DecidableEq

namespace Outline

/-! ## Lines -/

def isNameChar (c : Char) : Bool :=
  isAlphanumeric c || c = '_'

/-- Reads a line that opens a tag: an at sign, a name, and then white space or nothing. -/
def tagLine? (line : Text) : Option (Text × Text) :=
  match line.trimStart with
  | '@' :: t =>
    let name := t.takeWhile isNameChar
    let rest := t.dropWhile isNameChar
    if name ≠ [] ∧ rest.head?.all isBlank then some (name, Text.trimStart rest) else none
  | _ => none

/-- Whether a line starts with white space. -/
def isIndented (line : Text) : Bool :=
  line.head?.any isBlank

/-! ## Grouping -/

/-- Adds the line above. A tag takes the pending lines; a line of prose ends whatever tag stands
above it, so the pending lines below it are prose too. -/
def addAbove (line : Text) (o : Outline) : Outline :=
  match tagLine? line with
  | some (name, rest) =>
    { pending := []
      body := o.body
      tags := ⟨name, rest :: o.pending.map Text.trimStart⟩ :: o.tags }
  | none =>
    if isIndented line then { o with pending := line :: o.pending }
    else { o with pending := [], body := line :: (o.pending ++ o.body) }

/-- The outline of lines from the first to the last. -/
def ofLines (ls : List Text) : Outline :=
  ls.foldr addAbove {}

/-- All lines of prose. Pending lines have no tag above them, so they are prose. -/
def prose (o : Outline) : List Text :=
  o.pending ++ o.body

@[simp] theorem ofLines_nil : ofLines [] = {} := rfl

@[simp] theorem ofLines_cons (l : Text) (ls : List Text) :
    ofLines (l :: ls) = addAbove l (ofLines ls) := rfl

end Outline

end CodeCatalog
