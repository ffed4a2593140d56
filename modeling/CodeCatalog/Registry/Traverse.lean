import CodeCatalog.Registry.Basic

/-! Going through the entities of a registry. -/
namespace CodeCatalog.Registry

/-! ## One step -/

/-- The entities contained in one, in the order they came. -/
def children (r : Registry) (id : EntityId) : List Entity :=
  match r.get? id with
  | some e => e.children.filterMap r.get?
  | none => []

/-- The entity that contains one. -/
def ownerOf (r : Registry) (id : EntityId) : Option Entity :=
  ((r.get? id).bind (·.owner)).bind r.get?

/-- Whether two handles lead to the same entity. Two dead handles do. -/
def sameEntity (r : Registry) (a b : EntityId) : Bool :=
  (r.get? a).map (·.id) = (r.get? b).map (·.id)

/-! ## Registered entities -/

/-- The paths, in the order they were registered. -/
def paths (r : Registry) : List Text :=
  r.table.keys

/-- The registered entities but the root, in the order they were registered. -/
def entities (r : Registry) : List Entity :=
  r.table.values.filterMap r.get?

/-- The number of registered entities, without the root. -/
def size (r : Registry) : Nat :=
  r.table.size

/-! ## Walks -/

/-- Visits handles and all that they contain, every entity before its children. Each of the `steps`
takes one handle. -/
def visit (r : Registry) : (steps : Nat) → (todo : List EntityId) → List Entity
  | 0, _ => []
  | _ + 1, [] => []
  | steps + 1, id :: todo =>
    match r.get? id with
    | some e => e :: r.visit steps (e.children ++ todo)
    | none => r.visit steps todo

/-- All that an entity contains, directly or not, every entity before its children. No entity is in
two others, so the walk has fewer steps than there are entities. -/
def walk (r : Registry) (id : EntityId) : List Entity :=
  match r.get? id with
  | some e => r.visit r.arena.size e.children
  | none => []

/-- An entity and all that it contains. -/
def subtree (r : Registry) (id : EntityId) : List Entity :=
  (r.get? id).toList ++ r.walk id

/-- The entities that are registered, or in the subtree of the root or of one of the handles given,
in the order they were made. -/
def survey (r : Registry) (handles : List EntityId) : List Entity :=
  let found := (r.rootId :: handles).flatMap r.subtree ++ r.entities
  let ids := found.map (·.id)
  r.arena.toList.filter (ids.contains ·.id)

end CodeCatalog.Registry
