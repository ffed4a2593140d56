import CodeCatalog.Docstring.TypeList

/-! Tags: the `@name` entries of a document, with their types and parameter. -/
namespace CodeCatalog

/-- One `@name` entry. -/
structure Tag where
  /-- The name, without the at sign. -/
  name : Text
  /-- The description, after types and parameter. -/
  text : Text
  /-- The types listed in brackets. -/
  types : List Text
  /-- The parameter or option that is described. -/
  param : Option Text
deriving DecidableEq

namespace Tag

/-! ## Styles -/

/-- What may stand before the description of a tag. -/
inductive Style where
  /-- Types and a parameter, as in `@param [String, nil] key the key`. -/
  | typedNamed
  /-- Types alone, as in `@return [Integer] the count`. -/
  | typed
  /-- Nothing, as in `@author Jane`. -/
  | plain
deriving DecidableEq

namespace Style

def typedNamedTags : List Text :=
  ["param", "yieldparam", "option", "attr", "attr_reader", "attr_writer"].map String.toList

def typedTags : List Text :=
  ["return", "yieldreturn", "raise"].map String.toList

/-- The style goes by the tag's name. -/
def ofName (name : Text) : Style :=
  if typedNamedTags.contains name then .typedNamed
  else if typedTags.contains name then .typed
  else .plain

def hasTypes : Style → Bool
  | typedNamed | typed => true
  | plain => false

def hasParam : Style → Bool
  | typedNamed => true
  | typed | plain => false

end Style

/-! ## Reading -/

/-- The first word of a text and what follows it. A type list is no word. -/
def firstWord? (t : Text) : Option (Text × Text) :=
  match t.trimStart with
  | [] => none
  | '[' :: _ => none
  | words => some (words.takeWhile (!isBlank ·), Text.trimStart (words.dropWhile (!isBlank ·)))

/-- Takes a type list off the front of a text, if it starts with one. -/
def takeTypes (t : Text) : List Text × Text :=
  (TypeList.read? t).getD ([], t)

/-- Takes a parameter off the front of a text, if it starts with a word. -/
def takeParam (t : Text) : Option Text × Text :=
  match firstWord? t with
  | some (word, rest) => (some word, rest)
  | none => (none, t)

/-- Reads a tag from its name and the text after it. Types may stand before the parameter or, if
none stand there, after it. -/
def read (name raw : Text) : Tag :=
  match Style.ofName name with
  | .typedNamed =>
    let (early, afterTypes) := takeTypes raw.trim
    let (param, afterParam) := takeParam afterTypes
    let (types, rest) := if early = [] then takeTypes afterParam else (early, afterParam)
    ⟨name, rest.trim, types, param⟩
  | .typed =>
    let (types, rest) := takeTypes raw.trim
    ⟨name, rest.trim, types, none⟩
  | .plain => ⟨name, raw.trim, [], none⟩

@[simp] theorem name_read (name raw : Text) : (read name raw).name = name := by
  unfold read; split <;> rfl

end Tag

end CodeCatalog
