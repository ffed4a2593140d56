import CodeCatalog.Attribute.Table
import CodeCatalog.Entity.Id
import CodeCatalog.Entity.Kind
import CodeCatalog.Location.Ledger

/-! Entities: what is known of one namespace, type or routine. -/
namespace CodeCatalog

structure Entity where
  id : EntityId
  kind : EntityKind
  name : Text
  /-- The qualified path, if the entity is registered. -/
  path : Option Text
  /-- The entity that contains this one. -/
  owner : Option EntityId
  /-- The entities contained in this one, in the order they came. -/
  children : List EntityId := []
  attributes : AttributeTable := {}
  ledger : Ledger
deriving DecidableEq

namespace Entity

/-- The path of a registered entity, and the name of any other. -/
def title (e : Entity) : Text :=
  e.path.getD e.name

def isRegistered (e : Entity) : Bool :=
  e.path.isSome

def hasChild (e : Entity) (child : EntityId) : Bool :=
  e.children.contains child

/-- Adds a child at the end, unless it is one already. -/
def adopt (e : Entity) (child : EntityId) : Entity :=
  if e.hasChild child then e else { e with children := e.children ++ [child] }

/-- Adds a declaration site. -/
def addSite (e : Entity) (site : Location) (documented : Bool) : Entity :=
  { e with ledger := e.ledger.record site documented }

/-! ## Access by key -/

/-- The keys whose values follow from the entity's identity and sites. They cannot be written. -/
inductive DerivedKey where
  | name
  | path
  | file
  | line
  | files
deriving DecidableEq

def DerivedKey.ofKey? : String → Option DerivedKey
  | "name" => some .name
  | "path" => some .path
  | "file" => some .file
  | "line" => some .line
  | "files" => some .files
  | _ => none

/-- The value of a derived key. File and line are those of the canonical site; as a value the line is
a signed number of the same 64 bits. -/
def derived (e : Entity) : DerivedKey → Option AttributeValue
  | .name => some (.text e.name)
  | .path => e.path.map .text
  | .file => e.ledger.canonical.map (.text ·.file)
  | .line => e.ledger.canonical.map (.int ·.line.toInt64)
  | .files => some (.locations e.ledger.canonicalFirst)

/-- The value under a key, derived or not. -/
def get (e : Entity) (key : String) : Option AttributeValue :=
  match DerivedKey.ofKey? key with
  | some derivedKey => e.derived derivedKey
  | none => e.attributes.get key

/-- Writes a value under a key. Derived keys are refused, and so is what the attributes refuse. -/
def set? (e : Entity) (key : String) (value : AttributeValue) : Option Entity :=
  match DerivedKey.ofKey? key with
  | some _ => none
  | none => (e.attributes.set? key value).map fun attributes => { e with attributes }

end Entity

end CodeCatalog
