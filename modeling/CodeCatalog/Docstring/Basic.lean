import CodeCatalog.Docstring.Outline
import CodeCatalog.Docstring.Tag

/-! Documents: prose, a summary of it, and tags. -/
namespace CodeCatalog

/-- The documentation of an entity, as it was written and as it was read. -/
structure Docstring where
  raw : Text := []
  body : Text := []
  tags : List Tag := []
deriving DecidableEq

namespace Docstring

/-! ## Reading -/

/-- White space at the end of a line has no meaning, nor have empty lines around the prose. -/
def read (raw : Text) : Docstring :=
  let outline := Outline.ofLines (raw.lines.map Text.trimEnd)
  { raw
    body := Text.unlines (strip List.isEmpty outline.prose)
    tags := outline.tags.map fun b => Tag.read b.name b.text }

/-- Neither prose nor tags. -/
def isEmpty (d : Docstring) : Bool :=
  d.body.isEmpty && d.tags.isEmpty

@[simp] theorem raw_read (raw : Text) : (read raw).raw = raw := rfl

/-! ## Summary -/

/-- The text up to the first empty line. -/
def firstParagraph : Text → Text
  | [] => []
  | '\n' :: '\n' :: _ => []
  | c :: t => c :: firstParagraph t

/-- The text up to the first full stop at which a sentence ends: white space or nothing follows. -/
def firstSentence : Text → Text
  | [] => []
  | c :: t => if c = '.' ∧ t.head?.all isBlank then [c] else c :: firstSentence t

/-- The first sentence of the first paragraph. -/
def summary (d : Docstring) : Text :=
  (firstSentence (firstParagraph d.body)).trim

/-! ## Tags by name -/

/-- All tags of a name, in the order they were written. -/
def tagsNamed (d : Docstring) (name : Text) : List Tag :=
  d.tags.filter (·.name = name)

/-- The first tag of a name. -/
def tag? (d : Docstring) (name : Text) : Option Tag :=
  d.tags.find? (·.name = name)

def hasTag (d : Docstring) (name : Text) : Bool :=
  (d.tag? name).isSome

/-- The first tag of a name is the first of all tags of that name. -/
theorem tag?_eq (d : Docstring) (name : Text) : d.tag? name = (d.tagsNamed name).head? := by
  simp [tag?, tagsNamed]

end Docstring

end CodeCatalog
