import CodeCatalog.Registry.Resolve

/-! Interning: one entity for each path, made when the path is first declared. -/
namespace CodeCatalog

/-- The path under which an entity is registered, if it is registered at all. -/
def Placement.path? (p : Placement) (kind : EntityKind) (r : Registry) : Option Text :=
  if p.registers then p.owner.map fun owner => Path.member (r.pathOf owner) kind p.leaf else none

namespace RegistryM

/-- The entity at a place. One that is there already keeps its kind. -/
def place (kind : EntityKind) (p : Placement) : RegistryM EntityId := do
  let r ← get
  let path := p.path? kind r
  match path.bind r.at? with
  | some id => return id
  | none => allocate kind p.leaf path p.owner

/-- The entity that is declared, old or new. -/
def intern (scope : Scope) (name : Text) (kind : EntityKind) : RegistryM EntityId := do
  place kind (← resolve scope name)

/-- Interns an entity and carries out requests to it. -/
def internWith (scope : Scope) (name : Text) (kind : EntityKind) (requests : List EntityRequest) :
    RegistryM (EntityId × List Answer) := do
  let id ← intern scope name kind
  let answers ← perform id requests
  return (id, answers.getD [])

end RegistryM

end CodeCatalog
