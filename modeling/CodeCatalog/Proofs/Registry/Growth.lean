import Mathlib.Logic.Relation
import CodeCatalog.Proofs.Registry.Sound

/-!
# Growth

Between two resets a registry changes in two ways only: an entity is added that the census admits,
or the attributes and sites of one entity change. Resolving and interning do the first alone.
-/
namespace CodeCatalog.Registry

/-- An entity is added that the census admits. -/
inductive Adds (r : Registry) : Registry → Prop where
  | mk {kind : EntityKind} {name : Text} {path : Option Text} {owner : Option EntityId}
      (room : r.arena.size < RegistryM.capacity)
      (h : Admissible r.generation r.census ⟨r.nextId, kind, name, path, owner⟩) :
      Adds r (r.add (r.newEntity kind name path owner))

/-- One change that is no reset. -/
inductive Changes (r : Registry) : Registry → Prop where
  | add {s : Registry} (h : r.Adds s) : Changes r s
  | edit (id : EntityId) (f : Entity → Entity)
      (h : ∀ e, r.get? id = some e → e.Remains (f e)) : Changes r (r.update id f)

/-- Entities are added, one after the other. -/
abbrev Grows : Registry → Registry → Prop := Relation.ReflTransGen Adds

/-- Any number of changes, but no reset. -/
abbrev Evolves : Registry → Registry → Prop := Relation.ReflTransGen Changes

/-- A live entity that is registered under a path. The root has the empty one. -/
def HasPath (r : Registry) (id : EntityId) (p : Text) : Prop :=
  ∃ e, r.get? id = some e ∧ e.path = some p

variable {r s : Registry} {id o : EntityId} {e : Entity} {p q : Text}

/-! ## What every change keeps -/

theorem Changes.sound (h : r.Changes s) (hr : r.Sound) : s.Sound := by
  cases h with
  | add h =>
      obtain ⟨_, ha⟩ := h
      exact hr.add ha
  | edit id f hf => exact hr.update hf

theorem Changes.census_prefix (h : r.Changes s) : r.census <+: s.census := by
  cases h with
  | add h =>
      cases h
      rw [census_add]
      exact List.prefix_append _ _
  | edit id f hf =>
      have he : (r.update id f).census = r.census := census_update fun e he => (hf e he).identity
      exact ⟨[], by rw [he, List.append_nil]⟩

theorem Changes.generation (h : r.Changes s) : s.generation = r.generation := by
  cases h with
  | add h =>
      cases h
      exact generation_add _ _
  | edit id f hf => exact generation_update _ _ _

theorem Changes.policy (h : r.Changes s) : s.policy = r.policy := by
  cases h with
  | add h =>
      cases h
      exact policy_add _ _
  | edit id f hf => exact policy_update _ _ _

theorem Changes.size_le_capacity (h : r.Changes s) (hr : r.arena.size ≤ RegistryM.capacity) :
    s.arena.size ≤ RegistryM.capacity := by
  cases h with
  | add h =>
      obtain ⟨room, _⟩ := h
      rw [size_arena_add]
      exact room
  | edit id f hf => rwa [size_arena_update]

theorem Grows.evolves (h : r.Grows s) : r.Evolves s :=
  Relation.ReflTransGen.mono (fun _ _ => .add) _ _ h

namespace Evolves

theorem sound (h : r.Evolves s) (hr : r.Sound) : s.Sound := by
  induction h with
  | refl => exact hr
  | tail _ hst ih => exact hst.sound ih

theorem census_prefix (h : r.Evolves s) : r.census <+: s.census := by
  induction h with
  | refl => exact List.prefix_refl _
  | tail _ hst ih => exact ih.trans hst.census_prefix

theorem generation (h : r.Evolves s) : s.generation = r.generation := by
  induction h with
  | refl => rfl
  | tail _ hst ih => exact hst.generation.trans ih

theorem policy (h : r.Evolves s) : s.policy = r.policy := by
  induction h with
  | refl => rfl
  | tail _ hst ih => exact hst.policy.trans ih

theorem size_le (h : r.Evolves s) : r.arena.size ≤ s.arena.size := by
  have hl := h.census_prefix.length_le
  simpa using hl

theorem size_le_capacity (h : r.Evolves s) (hr : r.arena.size ≤ RegistryM.capacity) :
    s.arena.size ≤ RegistryM.capacity := by
  induction h with
  | refl => exact hr
  | tail _ hst ih => exact hst.size_le_capacity ih

theorem exists_get? (h : r.Evolves s) (he : r.get? id = some e) :
    ∃ e', s.get? id = some e' ∧ e'.identity = e.identity := by
  have hk := getElem?_census he
  have hlt := (List.getElem?_eq_some_iff.mp hk).1
  have hk' := List.prefix_iff_getElem?.mp h.census_prefix _ hlt
  rw [(List.getElem?_eq_some_iff.mp hk).2, census, List.getElem?_map, Option.map_eq_some_iff] at hk'
  obtain ⟨e', he', hi⟩ := hk'
  rw [Array.getElem?_toList] at he'
  refine ⟨e', get?_eq_some_iff.mpr ⟨?_, he'⟩, hi⟩
  rw [h.generation]
  exact (get?_eq_some_iff.mp he).1

theorem contains (h : r.Evolves s) (hid : r.contains id = true) : s.contains id = true := by
  obtain ⟨e, he⟩ := contains_iff.mp hid
  obtain ⟨e', he', _⟩ := h.exists_get? he
  exact contains_iff.mpr ⟨e', he'⟩

theorem hasPath (h : r.Evolves s) (hp : r.HasPath id p) : s.HasPath id p := by
  obtain ⟨e, he, hp⟩ := hp
  obtain ⟨e', he', hi⟩ := h.exists_get? he
  exact ⟨e', he', (congrArg Identity.path hi).trans hp⟩

end Evolves

/-! ## Paths and the table -/

theorem HasPath.pathOf_eq (h : r.HasPath id p) : r.pathOf id = p := by
  obtain ⟨e, he, hp⟩ := h
  simp [pathOf, he, hp]

theorem HasPath.eq_of_eq (h : r.HasPath id p) (h' : r.HasPath id q) : p = q :=
  h.pathOf_eq.symm.trans h'.pathOf_eq

namespace Sound

theorem hasPath_unique (h : r.Sound) (hi : r.HasPath id p) (ho : r.HasPath o p) : id = o := by
  obtain ⟨e, he, hp⟩ := hi
  obtain ⟨e', he', hp'⟩ := ho
  exact h.eq_of_path_eq he he' hp hp'

theorem get?_root (h : r.Sound) : ∃ e, r.get? r.rootId = some e ∧
    e.identity = ⟨r.rootId, .ns, ['r', 'o', 'o', 't'], some [], none⟩ :=
  h.exists_get? (List.mem_of_getElem? h.census.head)

theorem hasPath_root (h : r.Sound) : r.HasPath r.rootId [] := by
  obtain ⟨e, he, hi⟩ := h.get?_root
  exact ⟨e, he, congrArg Identity.path hi⟩

theorem hasPath_of_at? (h : r.Sound) (hp : r.at? p = some id) : r.HasPath id p :=
  (h.at?_eq_some_iff.mp hp).2

theorem at?_of_hasPath (h : r.Sound) (hp : r.HasPath id p) (hne : p ≠ []) : r.at? p = some id := by
  refine h.at?_eq_some_iff.mpr ⟨?_, hp⟩
  rintro rfl
  exact hne (hp.eq_of_eq h.hasPath_root)

theorem owner_lt (h : r.Sound) (he : r.get? id = some e) (ho : e.owner = some o) :
    (∃ e', r.get? o = some e') ∧ o.index < id.index := by
  obtain ⟨j, hj, rfl, hlt⟩ := h.census.owner_lt (mem_census he) ho
  obtain ⟨e', he', _⟩ := h.exists_get? hj
  refine ⟨⟨e', he'⟩, ?_⟩
  rwa [← h.id_eq he]

theorem owner_of_path (h : r.Sound) (he : r.get? id = some e) (hp : e.path = some p)
    (hne : id ≠ r.rootId) :
    ∃ o q, e.owner = some o ∧ r.HasPath o q ∧ p = Path.member q e.kind e.name := by
  have ha := h.census.admissible (getElem?_census he) (index_ne_zero he hne)
  obtain ⟨j, hj, ho, q, hq, hpq⟩ := ha.path p hp
  obtain ⟨e', he', rfl⟩ := h.exists_get? (List.mem_of_mem_take hj)
  exact ⟨e'.id, q, ho, ⟨e', he', hq⟩, hpq⟩

/-- A new entity is admissible whose name is not empty, whose owner is live, and whose path, if it
has one, is that of its owner extended by kind and name and not yet in the table. -/
theorem admissible (h : r.Sound) {kind : EntityKind} {name : Text} {path : Option Text}
    {owner : Option EntityId} (hn : name ≠ []) (ho : ∀ o, owner = some o → ∃ e, r.get? o = some e)
    (hp : ∀ p, path = some p →
      ∃ o q, owner = some o ∧ r.HasPath o q ∧ p = Path.member q kind name ∧ r.at? p = none) :
    Admissible r.generation r.census ⟨r.nextId, kind, name, path, owner⟩ where
  id := by rw [length_census]; rfl
  name_ne_nil := hn
  owner := by
    intro o he
    obtain ⟨e, hge⟩ := ho o he
    exact ⟨e.identity, mem_census hge, h.id_eq hge⟩
  path := by
    intro p he
    obtain ⟨o, q, rfl, ⟨e, hge, hq⟩, hpq, _⟩ := hp p he
    exact ⟨e.identity, mem_census hge, congrArg some (h.id_eq hge).symm, q, hq, hpq⟩
  fresh := by
    intro p he j hj hjp
    obtain ⟨o, q, rfl, _, rfl, hat⟩ := hp p he
    obtain ⟨e, hge, rfl⟩ := h.exists_get? hj
    have hsome := h.at?_of_hasPath ⟨e, hge, hjp⟩ (Path.member_ne_nil hn)
    rw [hat] at hsome
    cases hsome

end Sound

/-! ## What growth leaves alone -/

/-- Attributes and sites are the same. -/
def SameContent (e e' : Entity) : Prop :=
  e'.attributes = e.attributes ∧ e'.ledger = e.ledger

/-- Nothing has been written to an entity. -/
def Blank (policy : CanonicalPolicy) (e : Entity) : Prop :=
  e.attributes = {} ∧ e.ledger = { policy }

theorem Adds.content (h : r.Adds s) (hr : r.Sound) (he : s.get? id = some e) :
    (∃ e', r.get? id = some e' ∧ SameContent e' e) ∨ r.get? id = none ∧ Blank r.policy e := by
  obtain ⟨_, ha⟩ := h
  rw [get?_add r (hr.owner_ne_nextId ha)] at he
  split at he
  · rename_i hid
    subst hid
    cases he
    exact Or.inr ⟨get?_nextId r, rfl, rfl⟩
  · left
    split at he
    · obtain ⟨e', he', rfl⟩ := Option.map_eq_some_iff.mp he
      exact ⟨e', he', Entity.attributes_adopt _ _, Entity.ledger_adopt _ _⟩
    · exact ⟨e, he, rfl, rfl⟩

/-- Whoever was there keeps its attributes and sites, and whoever came has none. -/
theorem Grows.content (h : r.Grows s) (hr : r.Sound) (he : s.get? id = some e) :
    (∃ e', r.get? id = some e' ∧ SameContent e' e) ∨ r.get? id = none ∧ Blank r.policy e := by
  induction h generalizing e with
  | refl => exact Or.inl ⟨e, he, rfl, rfl⟩
  | @tail s t hrs hst ih =>
      have hev : r.Evolves s := Grows.evolves hrs
      rcases hst.content (hev.sound hr) he with ⟨e₁, he₁, hc⟩ | ⟨hnone, hb⟩
      · rcases ih he₁ with ⟨e₂, he₂, hc₂⟩ | ⟨hnone, hb⟩
        · exact Or.inl ⟨e₂, he₂, hc.1.trans hc₂.1, hc.2.trans hc₂.2⟩
        · exact Or.inr ⟨hnone, hc.1.trans hb.1, hc.2.trans hb.2⟩
      · right
        constructor
        · cases hr₀ : r.get? id with
          | none => rfl
          | some e₀ =>
              obtain ⟨e', he', _⟩ := hev.exists_get? hr₀
              rw [hnone] at he'
              cases he'
        · rw [← hev.policy]
          exact hb

end CodeCatalog.Registry
