import CodeCatalog.Proofs.Registry.Containment

/-!
# Where interning puts an entity

Which entity is meant goes by the composed path alone. The entity stands where it is declared, unless
another one had the path already; then one of the two names is in the other from a separator on.
-/
namespace CodeCatalog.Registry

open RegistryM

/-- An entity stands in `o` under a name, as entities of a kind do, and both know of it. -/
def StandsAt (r : Registry) (id o : EntityId) (kind : EntityKind) (leaf : Text) : Prop :=
  ∃ e, r.get? id = some e ∧ e.name = leaf ∧ e.owner = some o ∧
    e.kind.separator = kind.separator ∧ ∃ eo, r.get? o = some eo ∧ eo.hasChild id = true

variable {r s t : Registry} {scope : Scope} {name : Text} {kind : EntityKind} {p : Placement}
  {id o : EntityId} {e : Entity} {q : Text}

namespace Sound

theorem placed (h : r.Sound) (hres : resolve scope name r = .ok p s)
    (hin : intern scope name kind r = .ok id t) :
    Resolved r scope name p s ∧ Placed s kind p id t := by
  have hp := (ends_resolve h scope name).of_ok hres
  refine ⟨hp, ?_⟩
  rw [run_intern, hres] at hin
  exact (ends_place (hp.grows.evolves.sound h) (hp.fits h)).of_ok hin

theorem hasPath_intern (h : r.Sound) (hres : resolve scope name r = .ok p s)
    (hreg : p.registers = true) (hin : intern scope name kind r = .ok id t) :
    r.Evolves t ∧ ∃ o q, p.owner = some o ∧ t.HasPath o q ∧
      t.HasPath id (Path.member q kind p.leaf) := by
  obtain ⟨hp, ht⟩ := h.placed hres hin
  obtain ⟨_, o, q, ho, hq⟩ := hp.registers.mp hreg
  have hpath : p.path? kind s = some (Path.member q kind p.leaf) :=
    Placement.path?_eq_some_iff.mpr ⟨hreg, o, ho, by rw [hq.pathOf_eq]⟩
  exact ⟨Grows.evolves (hp.grows.trans ht.grows), o, q, ho, ht.grows.evolves.hasPath hq,
    ht.hasPath (hp.grows.evolves.sound h) hpath⟩

theorem hasChild_of_owner (h : r.Sound) (he : r.get? id = some e) (ho : e.owner = some o) :
    ∃ eo, r.get? o = some eo ∧ eo.hasChild id = true := by
  obtain ⟨eo, heo⟩ := (h.owner_lt he ho).1
  refine ⟨eo, heo, ?_⟩
  rw [Entity.hasChild, List.contains_iff_mem]
  exact (h.mem_children_iff heo he).mpr ho

/-- Whoever has the path composed for a place stands there, or its name overlaps. -/
theorem standsAt_or_overlaps (h : r.Sound) {leaf : Text} (hleaf : leaf ≠ []) (ho : r.HasPath o q)
    (he : r.get? id = some e) (hp : e.path = some (Path.member q kind leaf)) :
    r.StandsAt id o kind leaf ∨ Path.Overlaps e.name leaf ∨ Path.Overlaps leaf e.name := by
  have hne : id ≠ r.rootId := by
    rintro rfl
    exact Path.member_ne_nil hleaf (HasPath.eq_of_eq ⟨e, he, hp⟩ h.hasPath_root)
  obtain ⟨o', q', ho', hq', hmember⟩ := h.owner_of_path he hp hne
  rcases Path.eq_or_overlaps_of_member_eq hmember with ⟨rfl, rfl, hsep⟩ | hover | hover
  · cases h.hasPath_unique ho hq'
    exact Or.inl ⟨e, he, rfl, ho', hsep.symm, h.hasChild_of_owner he ho'⟩
  · exact Or.inr (Or.inr hover)
  · exact Or.inr (Or.inl hover)

/-- An entity with another name than the one that was asked for had the path before, and nothing
changes. -/
theorem taken_of_name_ne (h : s.Sound) (hin : Placed s kind p id t) (ho : p.owner = some o)
    (he : t.get? id = some e) (hne : e.name ≠ p.leaf) :
    t = s ∧ s.at? (Path.member (s.pathOf o) kind p.leaf) = some id := by
  cases hin with
  | old hpath hat =>
      obtain ⟨_, o', ho', rfl⟩ := Placement.path?_eq_some_iff.mp hpath
      cases ho.symm.trans ho'
      exact ⟨rfl, hat⟩
  | new ha _ _ =>
      -- a new entity has the name it was declared under
      rw [h.get?_add_nextId ha, Option.some.injEq] at he
      rw [← he] at hne
      exact absurd rfl hne

end Sound

/-- The entity that a registering call returns has the path composed for its place. It stands there,
unless it had this path before under another name. Then the names overlap, and the entity is returned
with everything as it was when the name had been resolved. Hence two such calls without a reset between
them return one handle only for one owner, one separator and one name, or for names that overlap. -/
theorem Reachable.standsAt_or_collides (hr : r.Reachable)
    (hres : resolve scope name r = .ok p s) (hreg : p.registers = true)
    (hin : intern scope name kind r = .ok id t) :
    (∃ o e, p.owner = some o ∧ t.get? id = some e ∧
      e.path = some (Path.member (t.pathOf o) kind p.leaf) ∧
      (t.StandsAt id o kind p.leaf ∨
        t = s ∧ s.at? (Path.member (t.pathOf o) kind p.leaf) = some id ∧ e.name ≠ p.leaf ∧
          (Path.Overlaps e.name p.leaf ∨ Path.Overlaps p.leaf e.name))) ∧
    ∀ ops scope' name' kind' p' s' t', resolve scope' name' (t.run ops) = .ok p' s' →
      p'.registers = true → intern scope' name' kind' (t.run ops) = .ok id t' →
      (p'.owner = p.owner ∧ p'.leaf = p.leaf ∧ kind'.separator = kind.separator) ∨
        Path.Overlaps p.leaf p'.leaf ∨ Path.Overlaps p'.leaf p.leaf := by
  have h := hr.sound
  obtain ⟨hp, hplaced⟩ := h.placed hres hin
  obtain ⟨hrt, o, q, ho, hoq, hid⟩ := h.hasPath_intern hres hreg hin
  obtain rfl := hoq.pathOf_eq
  have hts := hrt.sound h
  constructor
  · obtain ⟨e, he, hpath⟩ := hid
    refine ⟨o, e, ho, he, hpath, ?_⟩
    rcases hts.standsAt_or_overlaps (hp.fits h).leaf_ne_nil hoq he hpath with hstands | hover
    · exact Or.inl hstands
    · have hne : e.name ≠ p.leaf := hover.elim Path.Overlaps.ne fun hover => hover.ne.symm
      obtain ⟨rfl, hat⟩ := (hp.grows.evolves.sound h).taken_of_name_ne hplaced ho he hne
      exact Or.inr ⟨rfl, hat, hne, hover⟩
  · intro ops scope' name' kind' p' s' t' hres' hreg' hin'
    have hrun := evolves_run hts ops
    obtain ⟨hev, o', q', ho', hoq', hid'⟩ := (hrun.sound hts).hasPath_intern hres' hreg' hin'
    have htt' : t.Evolves t' := hrun.trans hev
    rcases Path.eq_or_overlaps_of_member_eq ((htt'.hasPath hid).eq_of_eq hid') with
      ⟨hleaf, rfl, hsep⟩ | hover
    · cases (htt'.sound hts).hasPath_unique (htt'.hasPath hoq) hoq'
      exact Or.inl ⟨ho'.trans ho.symm, hleaf.symm, hsep.symm⟩
    · exact Or.inr hover

/-- In a new registry the routine `b` of `A` stands in `A`. Where a type `A#b` was before, one gets this
type, which is left as it is, and gets it again when the type is interned once more. -/
theorem standsAt_or_collides_of_routine :
    (∃ t, intern .root ['A', ':', ':', 'b'] .instanceRoutine (create .latestDocumented 1) =
        .ok ⟨1, 2⟩ t ∧
      t.StandsAt ⟨1, 2⟩ ⟨1, 1⟩ .instanceRoutine ['b']) ∧
    ∃ p s t p' s' t' e,
      resolve .root ['A', ':', ':', 'b']
          ((create .latestDocumented 1).run [.intern .root ['A', '#', 'b'] .type]) = .ok p s ∧
      p.registers = true ∧
      intern .root ['A', ':', ':', 'b'] .instanceRoutine
          ((create .latestDocumented 1).run [.intern .root ['A', '#', 'b'] .type]) =
        .ok ⟨1, 1⟩ t ∧
      resolve .root ['A', '#', 'b'] (t.run [.intern .root ['C'] .type]) = .ok p' s' ∧
      p'.registers = true ∧
      intern .root ['A', '#', 'b'] .type (t.run [.intern .root ['C'] .type]) = .ok ⟨1, 1⟩ t' ∧
      t.get? ⟨1, 1⟩ = some e ∧ t = s ∧ s.at? ['A', '#', 'b'] = some ⟨1, 1⟩ ∧
      (Path.Overlaps e.name ['b'] ∨ Path.Overlaps ['b'] e.name) ∧
      (Path.Overlaps p.leaf p'.leaf ∨ Path.Overlaps p'.leaf p.leaf) := by
  constructor
  · obtain ⟨⟨o, e, ho, -, -, hstands | ⟨-, hat, -⟩⟩, -⟩ := @Reachable.standsAt_or_collides _ _ _
      .root ['A', ':', ':', 'b'] .instanceRoutine _ _ (.create .latestDocumented 1) rfl rfl rfl
    · cases ho
      exact ⟨_, rfl, hstands⟩
    · cases ho
      cases hat
  · obtain ⟨⟨o, e, ho, he, -, hstands | ⟨hsame, hat, -, hover⟩⟩, hagain⟩ :=
      @Reachable.standsAt_or_collides _ _ _ .root ['A', ':', ':', 'b'] .instanceRoutine _ _
        ((Reachable.create .latestDocumented 1).run [.intern .root ['A', '#', 'b'] .type])
        rfl rfl rfl
    · obtain ⟨e, he, hname, -⟩ := hstands
      cases he
      cases hname
    · cases ho
      obtain ⟨-, hleaf, -⟩ | hover' :=
        hagain [.intern .root ['C'] .type] .root ['A', '#', 'b'] .type _ _ _ rfl rfl rfl
      · cases hleaf
      · exact ⟨_, _, _, _, _, _, e, rfl, rfl, rfl, rfl, rfl, rfl, he, hsame, hat, hover, hover'⟩

/-- A type `A#b` has the path of a routine `b` of `A`, and is what one gets when the routine is
interned later. -/
theorem not_standsAt_of_type_named_as_routine :
    ¬ ∀ (r s t : Registry) (scope : Scope) (name : Text) (kind : EntityKind) (p : Placement)
      (id : EntityId), r.Reachable → resolve scope name r = .ok p s → p.registers = true →
      intern scope name kind r = .ok id t →
      ∃ o, p.owner = some o ∧ t.StandsAt id o kind p.leaf := by
  intro h
  obtain ⟨o, ho, e, he, hname, _⟩ := h
    ((create .latestDocumented 1).run [.intern .root ['A', '#', 'b'] .type]) _ _ .root
    ['A', ':', ':', 'b'] .instanceRoutine _ _ ((Reachable.create _ _).run _) rfl rfl rfl
  cases he
  cases hname

end CodeCatalog.Registry
