import CodeCatalog.Proofs.Registry.Reachable

/-!
# Containment

In every reachable registry the entities form a forest, and owners and children tell the same of it.
The registered ones form a tree below the root.
-/
namespace CodeCatalog.Registry

/-- An entity is alive and stands in `o`. -/
def Contains (r : Registry) (o c : EntityId) : Prop :=
  ∃ e, r.get? c = some e ∧ e.owner = some o

/-- Whoever is registered, and whose owner, and the owner of that one, are registered up to the
root. -/
inductive Rooted (r : Registry) : EntityId → Prop where
  | root : Rooted r r.rootId
  | member {o c : EntityId} {e : Entity} (he : r.get? c = some e) (hreg : e.isRegistered = true)
      (ho : e.owner = some o) (h : Rooted r o) : Rooted r c

/-! ## Sound registries -/

namespace Sound

variable {r : Registry} {c o : EntityId} {e e' : Entity} {p : Text}

theorem mem_children_iff (h : r.Sound) (he : r.get? o = some e) (hc : r.get? c = some e') :
    c ∈ e.children ↔ e'.owner = some o := by
  rw [h.children o e he, mem_members]
  constructor
  · rintro ⟨i, hi, ho, rfl⟩
    obtain ⟨e'', hget, rfl⟩ := h.exists_get? hi
    rw [hc, Option.some.injEq] at hget
    rw [hget]
    exact ho
  · intro ho
    exact ⟨e'.identity, mem_census hc, ho, h.id_eq hc⟩

theorem children_live (h : r.Sound) (he : r.get? o = some e) (hc : c ∈ e.children) :
    ∃ e', r.get? c = some e' := by
  rw [h.children o e he] at hc
  obtain ⟨i, hi, _, rfl⟩ := mem_members.mp hc
  obtain ⟨e', he', _⟩ := h.exists_get? hi
  exact ⟨e', he'⟩

theorem children_sorted (h : r.Sound) (he : r.get? o = some e) : e.children.Pairwise (· < ·) := by
  rw [h.children o e he]
  exact h.census.members_sorted o

theorem index_lt_of_transGen (h : r.Sound) (hc : Relation.TransGen r.Contains o c) :
    o.index < c.index := by
  induction hc with
  | single hoc =>
      obtain ⟨e, he, ho⟩ := hoc
      exact (h.owner_lt he ho).2
  | tail _ hbc ih =>
      obtain ⟨e, he, ho⟩ := hbc
      exact Nat.lt_trans ih (h.owner_lt he ho).2

/-- An owner came before what it contains, so going up from one owner to the next ends; it ends at
the root, as nobody else is registered without an owner. -/
theorem rooted (h : r.Sound) (hp : r.HasPath c p) : r.Rooted c := by
  induction hn : c.index using Nat.strongRecOn generalizing c p with
  | ind n ih =>
      by_cases hroot : c = r.rootId
      · rw [hroot]
        exact .root
      · obtain ⟨e, he, hp⟩ := hp
        obtain ⟨o, q, ho, hq, _⟩ := h.owner_of_path he hp hroot
        have hlt := (h.owner_lt he ho).2
        exact .member he (Option.isSome_iff_exists.mpr ⟨p, hp⟩) ho (ih o.index (hn ▸ hlt) hq rfl)

end Sound

/-! ## The forest -/

/-- Containment is a forest, kept in both directions. -/
structure Forest (r : Registry) : Prop where
  mem_children_iff : ∀ o c eo ec, r.get? o = some eo → r.get? c = some ec →
    (c ∈ eo.children ↔ ec.owner = some o)
  children_live : ∀ o eo, r.get? o = some eo → ∀ c ∈ eo.children, r.contains c = true
  nodup_children : ∀ o eo, r.get? o = some eo → eo.children.Nodup
  sorted_children : ∀ o eo, r.get? o = some eo → eo.children.Pairwise (· < ·)
  owner_smaller : ∀ c e o, r.get? c = some e → e.owner = some o →
    r.contains o = true ∧ o.index < c.index
  acyclic : ∀ c, ¬ Relation.TransGen r.Contains c c
  path_eq : ∀ c e p, r.get? c = some e → c ≠ r.rootId → e.path = some p →
    ∃ o eo q, e.owner = some o ∧ r.get? o = some eo ∧ eo.path = some q ∧
      p = Path.member q e.kind e.name
  rooted : ∀ c e, r.get? c = some e → e.isRegistered = true → r.Rooted c
  unowned : ∀ c e, r.get? c = some e → c ≠ r.rootId → e.owner = none → e.path = none

variable {r : Registry}

theorem Reachable.forest (hr : r.Reachable) : r.Forest := by
  have h := hr.sound
  constructor
  case mem_children_iff => exact fun o c eo ec => h.mem_children_iff
  case children_live =>
    intro o eo he c hc
    exact contains_iff.mpr (h.children_live he hc)
  case nodup_children =>
    intro o eo he
    refine (h.children_sorted he).imp ?_
    rintro a _ hlt rfl
    rcases hlt with hlt | hlt
    · exact Nat.lt_irrefl _ hlt
    · exact Nat.lt_irrefl _ hlt.2
  case sorted_children => exact fun o eo => h.children_sorted
  case owner_smaller =>
    intro c e o he ho
    exact ⟨contains_iff.mpr (h.owner_lt he ho).1, (h.owner_lt he ho).2⟩
  case acyclic =>
    intro c hc
    exact Nat.lt_irrefl _ (h.index_lt_of_transGen hc)
  case path_eq =>
    intro c e p he hne hp
    obtain ⟨o, q, ho, ⟨eo, heo, hq⟩, hpq⟩ := h.owner_of_path he hp hne
    exact ⟨o, eo, q, ho, heo, hq, hpq⟩
  case rooted =>
    intro c e he hreg
    obtain ⟨p, hp⟩ := Option.isSome_iff_exists.mp hreg
    exact h.rooted ⟨e, he, hp⟩
  case unowned =>
    intro c e he hne ho
    cases hp : e.path with
    | none => rfl
    | some p =>
        obtain ⟨o, _, ho', _⟩ := h.owner_of_path he hp hne
        rw [ho] at ho'
        cases ho'

/-- An entity in no namespace, one in it, and a compound name, in a registry that has been reset. -/
theorem forest_of_detached_owner :
    (((Registry.create .firstDocumented 1).reset 2).run
      [.intern .detached ['L'] .type, .intern (.within ⟨2, 1⟩) ['m'] .instanceRoutine,
        .intern .detached ['A', ':', ':', 'B'] .ns, .intern .root ['A', ':', ':', 'B'] .type]).Forest :=
  Reachable.forest (((Reachable.create _ 1).reset 2).run _)

end CodeCatalog.Registry
