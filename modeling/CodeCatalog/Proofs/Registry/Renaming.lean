import Mathlib.Data.List.Basic
import Mathlib.Order.Monotone.Basic
import CodeCatalog.Proofs.Registry.Interning
import CodeCatalog.Registry.Traverse

/-!
# Other numbers for the generations

Which number a generation has does not matter: whatever is done with a registry has the same outcome
when the generations are numbered in another way, in the registry and in all handles that are given.
-/
namespace CodeCatalog

/-! ## Handles, and what holds them -/

def EntityId.rename (ρ : Nat → Nat) (id : EntityId) : EntityId :=
  ⟨ρ id.generation, id.index⟩

def Entity.rename (ρ : Nat → Nat) (e : Entity) : Entity :=
  { e with
    id := e.id.rename ρ
    owner := e.owner.map (·.rename ρ)
    children := e.children.map (·.rename ρ) }

def OrderedMap.mapValues {κ α β : Type} (f : α → β) (m : OrderedMap κ α) : OrderedMap κ β :=
  ⟨m.entries.map fun e => (e.1, f e.2)⟩

def Registry.rename (ρ : Nat → Nat) (r : Registry) : Registry where
  generation := ρ r.generation
  policy := r.policy
  arena := r.arena.map (·.rename ρ)
  table := r.table.mapValues (·.rename ρ)

def Scope.rename (ρ : Nat → Nat) : Scope → Scope
  | detached => detached
  | root => root
  | within id => within (id.rename ρ)

def Placement.rename (ρ : Nat → Nat) (p : Placement) : Placement :=
  { p with owner := p.owner.map (·.rename ρ) }

def Declaration.rename (ρ : Nat → Nat) (d : Declaration) : Declaration :=
  { d with scope := d.scope.rename ρ }

def NamespaceFault.rename (ρ : Nat → Nat) : NamespaceFault → NamespaceFault
  | deadHandle id => deadHandle (id.rename ρ)
  | described what => described what

def RegistryError.rename (ρ : Nat → Nat) : RegistryError → RegistryError
  | invalidNamespace found => invalidNamespace (found.rename ρ)
  | emptyName name => emptyName name
  | capacityExceeded index => capacityExceeded index

variable {ρ : Nat → Nat}

theorem EntityId.rename_inj (hρ : Function.Injective ρ) {a b : EntityId} :
    a.rename ρ = b.rename ρ ↔ a = b := by
  obtain ⟨g, i⟩ := a
  obtain ⟨g', i'⟩ := b
  simp [rename, hρ.eq_iff]

/-- Numbers that grow with the old ones leave the order of handles. -/
theorem EntityId.rename_lt_rename (hρ : StrictMono ρ) {a b : EntityId} :
    a.rename ρ < b.rename ρ ↔ a < b := by
  show _ ∨ _ ↔ _ ∨ _
  simp [rename, hρ.lt_iff_lt, hρ.injective.eq_iff]

/-! ## Maps and entities -/

namespace OrderedMap

variable {κ α β : Type} (f : α → β) (m : OrderedMap κ α)

@[simp] theorem keys_mapValues : (m.mapValues f).keys = m.keys := by
  simp [mapValues, keys]

@[simp] theorem values_mapValues : (m.mapValues f).values = m.values.map f := by
  simp [mapValues, values]

variable [DecidableEq κ]

@[simp] theorem find?_mapValues (k : κ) : (m.mapValues f).find? k = (m.find? k).map f := by
  obtain ⟨es⟩ := m
  induction es with
  | nil => rfl
  | cons e es ih =>
      obtain ⟨k', v⟩ := e
      simp only [mapValues, List.map_cons, find?_cons] at ih ⊢
      rw [ih]
      split <;> rfl

theorem insert_mapValues (k : κ) (v : α) :
    (m.mapValues f).insert k (f v) = (m.insert k v).mapValues f := by
  unfold insert contains
  rw [find?_mapValues, Option.isSome_map]
  split
  · simp only [mapValues, List.map_map, mk.injEq]
    refine List.map_congr_left fun e _ => ?_
    by_cases he : e.1 = k <;> simp [he]
  · simp [mapValues]

end OrderedMap

@[simp] theorem Declaration.site_rename (ρ : Nat → Nat) (d : Declaration) :
    (d.rename ρ).site = d.site := rfl

@[simp] theorem Declaration.isDocumented_rename (ρ : Nat → Nat) (d : Declaration) :
    (d.rename ρ).isDocumented = d.isDocumented := rfl

namespace Entity

variable (ρ) (e : Entity)

@[simp] theorem id_rename : (e.rename ρ).id = e.id.rename ρ := rfl

@[simp] theorem path_rename : (e.rename ρ).path = e.path := rfl

@[simp] theorem owner_rename : (e.rename ρ).owner = e.owner.map (·.rename ρ) := rfl

@[simp] theorem children_rename : (e.rename ρ).children = e.children.map (·.rename ρ) := rfl

@[simp] theorem attributes_rename : (e.rename ρ).attributes = e.attributes := rfl

@[simp] theorem ledger_rename : (e.rename ρ).ledger = e.ledger := rfl

theorem set?_rename (key : String) (value : AttributeValue) :
    (e.rename ρ).set? key value = (e.set? key value).map (·.rename ρ) := by
  unfold set?
  cases DerivedKey.ofKey? key with
  | some _ => rfl
  | none => simp only [rename, Option.map_map]; rfl

theorem get_rename (key : String) : (e.rename ρ).get key = e.get key := by
  unfold get
  cases DerivedKey.ofKey? key with
  | none => rfl
  | some derivedKey => cases derivedKey <;> rfl

theorem perform_rename (request : EntityRequest) :
    (e.rename ρ).perform request = ((e.perform request).1, (e.perform request).2.rename ρ) := by
  cases request with
  | get key => simp only [perform, get_rename]
  | set key value =>
      simp only [perform, set?_rename]
      cases e.set? key value <;> rfl
  | _ => rfl

theorem performAll_rename (requests : List EntityRequest) :
    (e.rename ρ).performAll requests =
      ((e.performAll requests).1, (e.performAll requests).2.rename ρ) := by
  induction requests generalizing e with
  | nil => rfl
  | cons request requests ih => simp only [performAll, perform_rename, ih]

theorem document_rename (d : Declaration) :
    (e.rename ρ).document (d.rename ρ) = (e.document d).rename ρ := by
  obtain ⟨scope, name, kind, site, docstring, source, signature⟩ := d
  cases docstring with
  | none => rfl
  | some raw =>
      cases h : raw.allBlank <;>
        simp [document, Declaration.rename, Declaration.isDocumented, h, rename]

theorem merge_rename (d : Declaration) :
    (e.rename ρ).merge (d.rename ρ) = (e.merge d).rename ρ := by
  have hsite : (e.rename ρ).addSite d.site d.isDocumented =
    (e.addSite d.site d.isDocumented).rename ρ := rfl
  unfold merge
  simp only [Declaration.site_rename, Declaration.isDocumented_rename, hsite, ledger_rename,
    attributes_rename]
  split
  · rw [document_rename]
    rfl
  · rfl

theorem hasChild_rename (hρ : Function.Injective ρ) (c : EntityId) :
    (e.rename ρ).hasChild (c.rename ρ) = e.hasChild c := by
  rw [Bool.eq_iff_iff, hasChild, hasChild, List.contains_iff_mem, List.contains_iff_mem,
    children_rename, List.mem_map]
  simp [EntityId.rename_inj hρ]

theorem adopt_rename (hρ : Function.Injective ρ) (c : EntityId) :
    (e.rename ρ).adopt (c.rename ρ) = (e.adopt c).rename ρ := by
  unfold adopt
  rw [hasChild_rename ρ e hρ]
  split
  · rfl
  · simp [rename]

end Entity

/-! ## Registries -/

namespace Registry

variable (r : Registry) (id : EntityId)

@[simp] theorem size_arena_rename : (r.rename ρ).arena.size = r.arena.size := by
  simp [rename]

@[simp] theorem nextId_rename : (r.rename ρ).nextId = r.nextId.rename ρ := by
  simp [nextId, EntityId.rename, rename]

@[simp] theorem at?_rename (path : Text) :
    (r.rename ρ).at? path = (r.at? path).map (·.rename ρ) := by
  simp [at?, rename]

theorem create_rename (policy : CanonicalPolicy) (g : Nat) :
    (create policy g).rename ρ = create policy (ρ g) := by
  simp [create, installRoot, rename, rootEntity, Entity.rename, EntityId.rename, OrderedMap.mapValues]

theorem newEntity_rename (kind : EntityKind) (name : Text) (path : Option Text)
    (owner : Option EntityId) :
    (r.rename ρ).newEntity kind name path (owner.map (·.rename ρ)) =
      (r.newEntity kind name path owner).rename ρ := by
  simp [newEntity, Entity.rename]
  rfl

section
variable (hρ : Function.Injective ρ)
include hρ

@[simp] theorem get?_rename :
    (r.rename ρ).get? (id.rename ρ) = (r.get? id).map (·.rename ρ) := by
  unfold get?
  by_cases h : id.generation = r.generation
  · simp [h, rename, EntityId.rename]
  · simp [h, rename, EntityId.rename, hρ.eq_iff]

@[simp] theorem contains_rename : (r.rename ρ).contains (id.rename ρ) = r.contains id := by
  rw [contains, contains, get?_rename r id hρ, Option.isSome_map]

theorem pathOf_rename : (r.rename ρ).pathOf (id.rename ρ) = r.pathOf id := by
  simp only [pathOf, get?_rename r id hρ]
  cases r.get? id <;> rfl

theorem lookup?_rename (path : Text) :
    (r.rename ρ).lookup? path = (r.lookup? path).map (·.rename ρ) := by
  simp only [lookup?, at?_rename]
  cases r.at? path with
  | none => rfl
  | some id => exact get?_rename r id hρ

theorem update_rename {f f' : Entity → Entity} (h : ∀ e, f' (e.rename ρ) = (f e).rename ρ) :
    (r.rename ρ).update (id.rename ρ) f' = (r.update id f).rename ρ := by
  unfold update
  by_cases hg : id.generation = r.generation
  · have harena : (r.arena.map (·.rename ρ)).modify id.index f' =
        (r.arena.modify id.index f).map (·.rename ρ) := by
      apply Array.ext_getElem?
      intro k
      simp only [Array.getElem?_modify, Array.getElem?_map]
      by_cases hk : id.index = k <;> simp [hk, h, Function.comp_def]
    simp [hg, rename, EntityId.rename, harena]
  · simp [hg, rename, EntityId.rename, hρ.eq_iff]

theorem add_rename (e : Entity) : (r.rename ρ).add (e.rename ρ) = (r.add e).rename ρ := by
  have hpush : ∀ t : OrderedMap Text EntityId,
      ({ r.rename ρ with
          arena := (r.rename ρ).arena.push (e.rename ρ), table := t.mapValues (·.rename ρ) } : Registry) =
        ({ r with arena := r.arena.push e, table := t } : Registry).rename ρ := by
    simp [rename]
  have htable : (r.rename ρ).table = r.table.mapValues (·.rename ρ) := rfl
  unfold add
  rw [Entity.path_rename, Entity.owner_rename, Entity.id_rename, htable]
  cases e.path with
  | none =>
      simp only [hpush]
      cases e.owner with
      | none => rfl
      | some o => exact update_rename _ o hρ fun e' => e'.adopt_rename ρ hρ e.id
  | some path =>
      simp only [OrderedMap.insert_mapValues, hpush]
      cases e.owner with
      | none => rfl
      | some o => exact update_rename _ o hρ fun e' => e'.adopt_rename ρ hρ e.id

theorem performAt_rename (requests : List EntityRequest) :
    (r.rename ρ).performAt (id.rename ρ) requests =
      ((r.performAt id requests).1, (r.performAt id requests).2.rename ρ) := by
  simp only [performAt, get?_rename r id hρ]
  cases r.get? id with
  | none => rfl
  | some e =>
      simp only [Option.map_some, Entity.performAll_rename]
      rw [update_rename r id hρ (f := fun _ => (e.performAll requests).2) fun _ => rfl]

/-! ## Going through a registry -/

theorem filterMap_get?_rename (ids : List EntityId) :
    (ids.map (·.rename ρ)).filterMap (r.rename ρ).get? =
      (ids.filterMap r.get?).map (·.rename ρ) := by
  rw [List.filterMap_map, List.map_filterMap]
  exact List.filterMap_congr fun id _ => get?_rename r id hρ

theorem children_rename :
    (r.rename ρ).children (id.rename ρ) = (r.children id).map (·.rename ρ) := by
  simp only [children, get?_rename r id hρ]
  cases r.get? id with
  | none => rfl
  | some e => exact filterMap_get?_rename r hρ e.children

theorem ownerOf_rename :
    (r.rename ρ).ownerOf (id.rename ρ) = (r.ownerOf id).map (·.rename ρ) := by
  simp only [ownerOf, get?_rename r id hρ]
  cases r.get? id with
  | none => rfl
  | some e =>
      simp only [Option.map_some, Option.bind_some, Entity.owner_rename]
      cases e.owner with
      | none => rfl
      | some o => exact get?_rename r o hρ

theorem sameEntity_rename (a b : EntityId) :
    (r.rename ρ).sameEntity (a.rename ρ) (b.rename ρ) = r.sameEntity a b := by
  simp only [sameEntity, get?_rename r _ hρ]
  cases r.get? a <;> cases r.get? b <;> simp [EntityId.rename_inj hρ]

theorem entities_rename : (r.rename ρ).entities = r.entities.map (·.rename ρ) := by
  have hvalues : (r.rename ρ).table.values = r.table.values.map (·.rename ρ) :=
    OrderedMap.values_mapValues _ _
  rw [entities, hvalues, filterMap_get?_rename r hρ, entities]

theorem visit_rename (steps : Nat) (todo : List EntityId) :
    (r.rename ρ).visit steps (todo.map (·.rename ρ)) = (r.visit steps todo).map (·.rename ρ) := by
  induction steps generalizing todo with
  | zero => rfl
  | succ steps ih =>
      cases todo with
      | nil => rfl
      | cons id todo =>
          simp only [List.map_cons, visit, get?_rename r id hρ]
          cases r.get? id with
          | none => exact ih todo
          | some e =>
              simp only [Option.map_some, Entity.children_rename, ← List.map_append, ih,
                List.map_cons]

theorem walk_rename : (r.rename ρ).walk (id.rename ρ) = (r.walk id).map (·.rename ρ) := by
  simp only [walk, get?_rename r id hρ, size_arena_rename]
  cases r.get? id with
  | none => rfl
  | some e => exact visit_rename r hρ _ _

end

end Registry

/-! ## Operations -/

namespace RegistryM

variable {α β γ δ : Type}

/-- From the same registry under other numbers an operation ends as another one does. -/
def Follows (ρ : Nat → Nat) (f : α → β) (y : RegistryM β) (x : RegistryM α) : Prop :=
  ∀ r, y (r.rename ρ) =
    match x r with
    | .ok a s => .ok (f a) (s.rename ρ)
    | .error e s => .error (e.rename ρ) (s.rename ρ)

namespace Follows

variable {f : α → β} {g : γ → δ} {x : RegistryM α} {y : RegistryM β}

theorem pure (f : α → β) (a : α) : Follows ρ f (Pure.pure (f a)) (Pure.pure a) :=
  fun _ => rfl

theorem bind {k : α → RegistryM γ} {l : β → RegistryM δ} (hx : Follows ρ f y x)
    (hk : ∀ a, Follows ρ g (l (f a)) (k a)) : Follows ρ g (y >>= l) (x >>= k) := by
  intro r
  rw [run_bind, run_bind, hx r]
  cases x r with
  | ok a s => exact hk a s
  | error e s => rfl

theorem map {k : α → γ} {l : β → δ} (hx : Follows ρ f y x) (hkl : ∀ a, l (f a) = g (k a)) :
    Follows ρ g (do return l (← y)) (do return k (← x)) := by
  refine hx.bind fun a => ?_
  rw [hkl]
  exact .pure g (k a)

end Follows

variable (hρ : Function.Injective ρ)
include hρ

theorem follows_allocate (kind : EntityKind) (name : Text) (path : Option Text)
    (owner : Option EntityId) :
    Follows ρ (·.rename ρ) (allocate kind name path (owner.map (·.rename ρ)))
      (allocate kind name path owner) := by
  intro r
  rw [run_allocate, run_allocate, Registry.size_arena_rename, Registry.newEntity_rename,
    Registry.add_rename r hρ, Registry.nextId_rename]
  split <;> rfl

theorem follows_checkScope (scope : Scope) :
    Follows ρ id (checkScope (scope.rename ρ)) (checkScope scope) := by
  intro r
  cases scope with
  | detached | root => rfl
  | within id =>
      rw [Scope.rename, run_checkScope_within, run_checkScope_within,
        Registry.contains_rename r id hρ]
      split <;> rfl

omit hρ in
theorem follows_readName (name : Text) : Follows ρ id (readName name) (readName name) := by
  intro r
  unfold readName
  cases DeclaredName.read? name <;> rfl

theorem follows_ensureNamespace (owner : EntityId) (name : Text) :
    Follows ρ (·.rename ρ) (ensureNamespace (owner.rename ρ) name) (ensureNamespace owner name) := by
  intro r
  rw [run_ensureNamespace, run_ensureNamespace, Registry.pathOf_rename r owner hρ,
    Registry.at?_rename]
  cases r.at? (Path.member (r.pathOf owner) .ns name) with
  | some id => rfl
  | none => exact follows_allocate hρ .ns name _ (some owner) r

theorem follows_ensureNamespaces (owner : EntityId) (names : List Text) :
    Follows ρ (·.rename ρ) (ensureNamespaces (owner.rename ρ) names)
      (ensureNamespaces owner names) := by
  induction names generalizing owner with
  | nil => exact .pure _ owner
  | cons name names ih => exact (follows_ensureNamespace hρ owner name).bind ih

theorem follows_findOwner (scope : Scope) (n : DeclaredName) :
    Follows ρ (Option.map (·.rename ρ)) (findOwner (scope.rename ρ) n) (findOwner scope n) := by
  intro r
  rw [run_findOwner, run_findOwner]
  split
  · exact ((follows_ensureNamespaces hρ r.rootId n.outer).map (k := some) (l := some)
      fun _ => rfl) r
  · split
    · rfl
    · cases scope <;> rfl

theorem follows_resolve (scope : Scope) (name : Text) :
    Follows ρ (·.rename ρ) (resolve (scope.rename ρ) name) (resolve scope name) := by
  unfold resolve
  refine (follows_checkScope hρ scope).bind fun _ => ?_
  refine (follows_readName name).bind fun n => ?_
  refine (follows_findOwner hρ scope n).bind fun owner => ?_
  intro r
  have hscope : scope.rename ρ = .detached ↔ scope = .detached := by
    cases scope <;> simp [Scope.rename]
  have howner : ((owner.map (·.rename ρ)).bind (r.rename ρ).get?).any Entity.isRegistered =
      (owner.bind r.get?).any Entity.isRegistered := by
    cases owner with
    | none => rfl
    | some o =>
        simp only [Option.map_some, Option.bind_some, Registry.get?_rename r o hρ]
        cases r.get? o <;> rfl
  rw [run_get_bind, run_get_bind, howner]
  simp only [ne_eq, hscope]
  rfl

theorem follows_place (kind : EntityKind) (p : Placement) :
    Follows ρ (·.rename ρ) (place kind (p.rename ρ)) (place kind p) := by
  intro r
  have hpath : (p.rename ρ).path? kind (r.rename ρ) = p.path? kind r := by
    simp only [Placement.path?, Placement.rename, Option.map_map, Function.comp_def,
      Registry.pathOf_rename r _ hρ]
  rw [run_place, run_place, hpath]
  cases p.path? kind r with
  | none => exact follows_allocate hρ kind p.leaf none p.owner r
  | some path =>
      simp only [Option.bind_some, Registry.at?_rename]
      cases r.at? path with
      | some id => rfl
      | none => exact follows_allocate hρ kind p.leaf (some path) p.owner r

theorem follows_intern (scope : Scope) (name : Text) (kind : EntityKind) :
    Follows ρ (·.rename ρ) (intern (scope.rename ρ) name kind) (intern scope name kind) :=
  (follows_resolve hρ scope name).bind (follows_place hρ kind)

theorem follows_perform (id : EntityId) (requests : List EntityRequest) :
    Follows ρ (fun a => a) (perform (id.rename ρ) requests) (perform id requests) := by
  intro r
  rw [run_perform, run_perform, Registry.performAt_rename r id hρ]

theorem follows_internWith (scope : Scope) (name : Text) (kind : EntityKind)
    (requests : List EntityRequest) :
    Follows ρ (Prod.map (·.rename ρ) id) (internWith (scope.rename ρ) name kind requests)
      (internWith scope name kind requests) :=
  (follows_intern hρ scope name kind).bind fun id => (follows_perform hρ id requests).map fun _ => rfl

theorem follows_declare (d : Declaration) :
    Follows ρ (·.rename ρ) (declare (d.rename ρ)) (declare d) := by
  refine (follows_intern hρ d.scope d.name d.kind).bind fun id => ?_
  refine Follows.bind (f := fun a => a) (fun r => ?_) fun _ => .pure _ id
  exact congrArg _ (Registry.update_rename r id hρ fun e => e.merge_rename ρ d)

theorem follows_declareAll (ds : List Declaration) :
    Follows ρ (List.map (·.rename ρ)) (declareAll (ds.map (·.rename ρ))) (declareAll ds) := by
  induction ds with
  | nil => exact .pure _ []
  | cons d ds ih =>
      exact (follows_declare hρ d).bind fun id => ih.map (k := (id :: ·)) fun _ => rfl

end RegistryM

end CodeCatalog
