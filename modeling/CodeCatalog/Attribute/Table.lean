import CodeCatalog.Attribute.Value
import CodeCatalog.OrderedMap
import CodeCatalog.Snippet

/-! The attributes of an entity: four with a field of their own, all others in named slots. -/
namespace CodeCatalog

/-- The attributes that have a field of their own. -/
inductive Accessor where
  | source
  | signature
  | docstring
  | dynamic
deriving DecidableEq

def Accessor.ofKey? : String → Option Accessor
  | "source" => some .source
  | "signature" => some .signature
  | "docstring" => some .docstring
  | "dynamic" => some .dynamic
  | _ => none

structure AttributeTable where
  /-- The source text, free of surrounding indentation. -/
  source : Option Text := none
  signature : Option Text := none
  docstring : Docstring := {}
  /-- Whether the entity comes into being only when the program runs. -/
  dynamic : Bool := false
  slots : OrderedMap String AttributeValue := {}
deriving DecidableEq

namespace AttributeTable

def setSource (t : AttributeTable) (raw : Text) : AttributeTable :=
  { t with source := some (Snippet.dedent raw) }

def setSignature (t : AttributeTable) (signature : Text) : AttributeTable :=
  { t with signature := some signature }

def setDocstring (t : AttributeTable) (d : Docstring) : AttributeTable :=
  { t with docstring := d }

def setDynamic (t : AttributeTable) (flag : Bool) : AttributeTable :=
  { t with dynamic := flag }

/-! ## Access by key -/

/-- The value under a key. The docstring and the dynamic flag are always there. -/
def get (t : AttributeTable) (key : String) : Option AttributeValue :=
  match Accessor.ofKey? key with
  | some .source => t.source.map .text
  | some .signature => t.signature.map .text
  | some .docstring => some (.docstring t.docstring)
  | some .dynamic => some (.bool t.dynamic)
  | none => t.slots.find? key

/-- Writes a value under a key, through the field if the key has one. A value that the field cannot
take is refused. -/
def set? (t : AttributeTable) (key : String) (value : AttributeValue) : Option AttributeTable :=
  match Accessor.ofKey? key, value with
  | some .source, .text raw => some (t.setSource raw)
  | some .signature, .text signature => some (t.setSignature signature)
  | some .docstring, .text raw => some (t.setDocstring (.read raw))
  | some .docstring, .docstring d => some (t.setDocstring d)
  | some .dynamic, .bool flag => some (t.setDynamic flag)
  | some _, _ => none
  | none, value => some { t with slots := t.slots.insert key value }

/-- Removes a slot and gives its value. The fields stay as they are, also under their own keys. -/
def remove (t : AttributeTable) (key : String) : Option AttributeValue × AttributeTable :=
  (t.slots.find? key, { t with slots := t.slots.erase key })

/-- Whether a key has a field of its own or a slot. -/
def contains (t : AttributeTable) (key : String) : Bool :=
  (Accessor.ofKey? key).isSome || t.slots.contains key

end AttributeTable

end CodeCatalog
