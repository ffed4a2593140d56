import CodeCatalog.Entity.Request
import CodeCatalog.Path
import CodeCatalog.Registry.Error

/-! Registries: all entities by handle, and the registered ones by path. -/
namespace CodeCatalog

structure Registry where
  /-- The generation of all handles that the registry issues. -/
  generation : Nat
  /-- The policy of every ledger. -/
  policy : CanonicalPolicy
  /-- All entities, by the position in their handles. The root stands first. -/
  arena : Array Entity
  /-- The handles of the registered entities by path. The root is not among them. -/
  table : OrderedMap Text EntityId
deriving DecidableEq

namespace Registry

/-! ## The empty registry -/

/-- The root namespace. Its path is empty. -/
def rootEntity (policy : CanonicalPolicy) (generation : Nat) : Entity where
  id := ⟨generation, 0⟩
  kind := .ns
  name := ['r', 'o', 'o', 't']
  path := some []
  owner := none
  ledger := { policy }

/-- Starts a generation with a root. -/
def installRoot (r : Registry) (generation : Nat) : Registry :=
  { r with generation, arena := r.arena.push (rootEntity r.policy generation) }

/-- A registry with nothing but the root. -/
def create (policy : CanonicalPolicy) (generation : Nat) : Registry :=
  installRoot { generation := 0, policy, arena := #[], table := {} } generation

@[simp] theorem arena_create (policy : CanonicalPolicy) (generation : Nat) :
    (create policy generation).arena = #[rootEntity policy generation] :=
  rfl

@[simp] theorem table_create (policy : CanonicalPolicy) (generation : Nat) :
    (create policy generation).table = {} :=
  rfl

/-- Drops every entity, and starts a generation with a new root. The handles issued so far are dead, as
the generation is another one. -/
def reset (r : Registry) (generation : Nat) : Registry :=
  installRoot { r with arena := #[], table := {} } generation

/-- A reset leaves nothing but the policy. -/
theorem reset_eq_create (r : Registry) (generation : Nat) :
    r.reset generation = create r.policy generation :=
  rfl

/-! ## Looking up -/

def rootId (r : Registry) : EntityId :=
  ⟨r.generation, 0⟩

/-- The entity with a handle, if the handle is alive. -/
def get? (r : Registry) (id : EntityId) : Option Entity :=
  if id.generation = r.generation then r.arena[id.index]? else none

/-- Whether a handle is alive: issued by this registry, since it was last reset. -/
def contains (r : Registry) (id : EntityId) : Bool :=
  (r.get? id).isSome

/-- The handle registered under a path. -/
def at? (r : Registry) (path : Text) : Option EntityId :=
  r.table.find? path

/-- The entity registered under a path. -/
def lookup? (r : Registry) (path : Text) : Option Entity :=
  (r.at? path).bind r.get?

/-- The path of a live, registered entity, and else the empty path. -/
def pathOf (r : Registry) (id : EntityId) : Text :=
  ((r.get? id).bind (·.path)).getD []

/-! ## Changing -/

/-- Changes the entity with a handle, if the handle is alive. -/
def update (r : Registry) (id : EntityId) (f : Entity → Entity) : Registry :=
  if id.generation = r.generation then { r with arena := r.arena.modify id.index f } else r

/-- The handle that the next entity gets. -/
def nextId (r : Registry) : EntityId :=
  ⟨r.generation, r.arena.size⟩

/-- An entity as it is before anything is known of it but its place. -/
def newEntity (r : Registry) (kind : EntityKind) (name : Text) (path : Option Text)
    (owner : Option EntityId) : Entity where
  id := r.nextId
  kind
  name
  path
  owner
  ledger := { policy := r.policy }

/-- Puts an entity at the end of the arena, registers it if it has a path, and enters it with its
owner. -/
def add (r : Registry) (e : Entity) : Registry :=
  let table :=
    match e.path with
    | some path => r.table.insert path e.id
    | none => r.table
  let added := { r with arena := r.arena.push e, table }
  match e.owner with
  | some owner => added.update owner (·.adopt e.id)
  | none => added

@[simp] theorem generation_update (r : Registry) (id : EntityId) (f : Entity → Entity) :
    (r.update id f).generation = r.generation := by
  unfold update; split <;> rfl

@[simp] theorem policy_update (r : Registry) (id : EntityId) (f : Entity → Entity) :
    (r.update id f).policy = r.policy := by
  unfold update; split <;> rfl

@[simp] theorem table_update (r : Registry) (id : EntityId) (f : Entity → Entity) :
    (r.update id f).table = r.table := by
  unfold update; split <;> rfl

@[simp] theorem size_arena_update (r : Registry) (id : EntityId) (f : Entity → Entity) :
    (r.update id f).arena.size = r.arena.size := by
  unfold update; split <;> simp

/-- Only the entity with the handle changes. -/
theorem get?_update (r : Registry) (id j : EntityId) (f : Entity → Entity) :
    (r.update id f).get? j = if j = id then (r.get? j).map f else r.get? j := by
  obtain ⟨g, i⟩ := id
  obtain ⟨g', i'⟩ := j
  unfold update
  by_cases hg : g = r.generation
  · subst hg
    simp only [if_true, get?, Array.getElem?_modify, EntityId.mk.injEq]
    by_cases hg' : g' = r.generation
    · by_cases hi : i = i'
      · simp [hg', hi]
      · simp [hg', hi, Ne.symm hi]
    · simp [hg']
  · simp only [hg, if_false, EntityId.mk.injEq]
    by_cases h : g' = g ∧ i' = i
    · obtain ⟨rfl, rfl⟩ := h
      simp [get?, hg]
    · simp [h]

/-- Carries out requests to the entity with a handle, and gives the answers if the handle is alive. -/
def performAt (r : Registry) (id : EntityId) (requests : List EntityRequest) :
    Option (List Answer) × Registry :=
  match r.get? id with
  | none => (none, r)
  | some e =>
    let (answers, e') := e.performAll requests
    (some answers, r.update id fun _ => e')

end Registry

/-! ## Operations -/

/-- Operations on a registry. One that fails leaves the registry as it then is. -/
abbrev RegistryM := EStateM RegistryError Registry

namespace RegistryM

/-- The number of entities for which there are handles. -/
def capacity : Nat := 4294967296

/-- Adds a new entity. -/
def allocate (kind : EntityKind) (name : Text) (path : Option Text) (owner : Option EntityId) :
    RegistryM EntityId := do
  let r ← get
  if r.arena.size < capacity then
    set (r.add (r.newEntity kind name path owner))
    return r.nextId
  else throw (.capacityExceeded r.arena.size)

/-- Carries out requests to the entity with a handle. -/
def perform (id : EntityId) (requests : List EntityRequest) : RegistryM (Option (List Answer)) :=
  modifyGet (·.performAt id requests)

end RegistryM

end CodeCatalog
