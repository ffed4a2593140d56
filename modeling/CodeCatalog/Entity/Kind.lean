import CodeCatalog.Text.Basic

/-! The kinds of entities, and the separators that go with them. -/
namespace CodeCatalog

/-- What an entity is in the program that is documented. -/
inductive EntityKind where
  /-- A namespace. -/
  | ns
  | type
  /-- A routine called on an instance. -/
  | instanceRoutine
  /-- A routine called on the type or namespace itself. -/
  | classRoutine
deriving DecidableEq

/-- What stands between two namespaces, and between a namespace and a type. -/
def nameSeparator : Text := [':', ':']

namespace EntityKind

/-- What stands before the name of an entity of a kind, in its path. -/
def separator : EntityKind → Text
  | ns | type => nameSeparator
  | instanceRoutine => ['#']
  | classRoutine => ['.']

/-- Whether entities of a kind contain others by name. -/
def isNamespaceLike : EntityKind → Bool
  | ns | type => true
  | instanceRoutine | classRoutine => false

end EntityKind

end CodeCatalog
