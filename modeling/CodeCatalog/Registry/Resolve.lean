import CodeCatalog.DeclaredName
import CodeCatalog.Registry.Basic

/-! Resolving: from the namespace and the name of a declaration to the place of its entity. -/
namespace CodeCatalog

/-- Where a declaration stands. -/
inductive Scope where
  /-- In no namespace. The entity is not registered. -/
  | detached
  | root
  | within (id : EntityId)
deriving DecidableEq

/-- The entity that a scope names. -/
def Scope.entity (scope : Scope) (r : Registry) : Option EntityId :=
  match scope with
  | detached => none
  | root => some r.rootId
  | within id => some id

/-- The place of a declared entity. -/
structure Placement where
  /-- The entity that contains it. -/
  owner : Option EntityId
  /-- Its name. -/
  leaf : Text
  /-- Whether it is registered. -/
  registers : Bool
deriving DecidableEq

namespace RegistryM

/-- Refuses a scope whose handle is dead. -/
def checkScope : Scope → RegistryM Unit
  | .detached | .root => return
  | .within id => do
    unless (← get).contains id do throw (.invalidNamespace (.deadHandle id))

/-- Refuses a name with an empty part. -/
def readName (name : Text) : RegistryM DeclaredName :=
  match DeclaredName.read? name with
  | some declared => return declared
  | none => throw (.emptyName name)

/-- The namespace of a name within another one. It is made if nothing has its path. -/
def ensureNamespace (owner : EntityId) (name : Text) : RegistryM EntityId := do
  let r ← get
  let path := Path.member (r.pathOf owner) .ns name
  match r.at? path with
  | some id => return id
  | none => allocate .ns name (some path) (some owner)

/-- The last of namespaces that stand one within the other. -/
def ensureNamespaces (owner : EntityId) : List Text → RegistryM EntityId
  | [] => return owner
  | name :: names => do ensureNamespaces (← ensureNamespace owner name) names

/-- The entity that contains what is declared. A name with outer parts counts from the root whatever
the scope is, and so does an anchored one. -/
def findOwner (scope : Scope) (declared : DeclaredName) : RegistryM (Option EntityId) := do
  let r ← get
  if declared.outer ≠ [] then return some (← ensureNamespaces r.rootId declared.outer)
  else if declared.anchored then return some r.rootId
  else return scope.entity r

/-- Finds the place of a declared entity, and makes the namespaces that its name goes through. The
members of a registered owner are registered, unless they are declared in no namespace. -/
def resolve (scope : Scope) (name : Text) : RegistryM Placement := do
  checkScope scope
  let declared ← readName name
  let owner ← findOwner scope declared
  let r ← get
  return { owner
           leaf := declared.leaf
           registers := scope ≠ .detached && (owner.bind r.get?).any Entity.isRegistered }

end RegistryM

end CodeCatalog
