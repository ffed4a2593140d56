import CodeCatalog.Proofs.Entity.Merge
import CodeCatalog.Proofs.Registry.Reachable
import CodeCatalog.Proofs.Registry.Repeating
import CodeCatalog.Registry.Traverse

/-!
# History

Between two resets nothing is taken back. Entities keep what they were made with, and children, sites
and paths come only at the end.
-/
namespace CodeCatalog

/-! ## Entities -/

namespace Entity

variable {e e' e'' : Entity}

/-- One state of an entity and a later one. -/
structure Extends (e e' : Entity) : Prop where
  identity : e'.identity = e.identity
  policy : e'.ledger.policy = e.ledger.policy
  children : e.children <+: e'.children
  sites : e.ledger.sites <+: e'.ledger.sites

theorem sites_merge (e : Entity) (d : Declaration) :
    e.ledger.sites <+: (e.merge d).ledger.sites := by
  simp

end Entity

/-! ## Registries -/

namespace Registry

variable {r s t : Registry} {id : EntityId} {e : Entity}

/-- One state of a registry and a later one, without a reset between them. -/
structure Extends (r s : Registry) : Prop where
  entities : ∀ id e, r.get? id = some e → ∃ e', s.get? id = some e' ∧ e.Extends e'
  paths : r.paths <+: s.paths
  at? : ∀ p id, r.at? p = some id → s.at? p = some id
  size : r.arena.size ≤ s.arena.size

theorem Evolves.children_prefix (h : r.Evolves s) (hr : r.Sound) (he : r.get? id = some e)
    {e' : Entity} (he' : s.get? id = some e') : e.children <+: e'.children := by
  rw [hr.children id e he, (h.sound hr).children id e' he']
  exact (h.census_prefix.filter _).map _

/-- The table is read off the census, so it grows at its end as the census does. -/
theorem Evolves.entries_prefix (h : r.Evolves s) (hr : r.Sound) :
    r.table.entries <+: s.table.entries := by
  rw [hr.table, (h.sound hr).table]
  obtain ⟨is, his⟩ := h.census_prefix
  rw [registrations, registrations, ← his, List.tail_append_of_ne_nil hr.census.ne_nil]
  exact (List.prefix_append _ _).filterMap _

/-- Of all steps only requests and declarations write to a ledger, and they add sites at its end. -/
theorem Step.sites_prefix (h : r.Step s) (hr : r.Sound) (he : r.get? id = some e) :
    ∃ e', s.get? id = some e' ∧ e.ledger.sites <+: e'.ledger.sites := by
  cases h with
  | add h =>
      obtain ⟨e', he', _⟩ := Evolves.exists_get? (.single (.add h)) he
      refine ⟨e', he', ?_⟩
      rcases h.content hr he' with ⟨e₀, he₀, hsame⟩ | ⟨hnone, _⟩
      · rw [he, Option.some.injEq] at he₀
        subst he₀
        have hledger : e'.ledger = e.ledger := hsame.2
        exact hledger ▸ List.prefix_rfl
      · rw [he] at hnone
        cases hnone
  | @perform j e₀ he₀ requests =>
      rw [get?_update]
      split
      · rename_i hid
        rw [hid] at he
        rw [he₀, Option.some.injEq] at he
        rw [hid, he₀, ← he]
        exact ⟨_, rfl, e₀.sites_performAll requests ▸ List.prefix_append _ _⟩
      · exact ⟨e, he, List.prefix_rfl⟩
  | merge j d =>
      rw [get?_update, he]
      split
      · exact ⟨_, rfl, e.sites_merge d⟩
      · exact ⟨e, rfl, List.prefix_rfl⟩

theorem Steps.sites_prefix (h : r.Steps s) (hr : r.Sound) (he : r.get? id = some e) :
    ∃ e', s.get? id = some e' ∧ e.ledger.sites <+: e'.ledger.sites := by
  induction h with
  | refl => exact ⟨e, he, List.prefix_rfl⟩
  | @tail s t hrs hst ih =>
      obtain ⟨e', he', hsites⟩ := ih
      obtain ⟨e'', he'', hsites'⟩ := hst.sites_prefix (Steps.sound hrs hr) he'
      exact ⟨e'', he'', hsites.trans hsites'⟩

theorem Steps.extends (h : r.Steps s) (hr : r.Sound) : r.Extends s := by
  have hs := h.sound hr
  constructor
  case entities =>
    intro id e he
    obtain ⟨e', he', hsites⟩ := h.sites_prefix hr he
    obtain ⟨e₀, he₀, hidentity⟩ := h.evolves.exists_get? he
    rw [he', Option.some.injEq] at he₀
    refine ⟨e', he', ?_, ?_, h.evolves.children_prefix hr he he', hsites⟩
    · rw [he₀]
      exact hidentity
    · rw [hr.policy id e he, hs.policy id e' he']
      exact h.evolves.policy
  case paths => exact (h.evolves.entries_prefix hr).map Prod.fst
  case at? => exact fun p id => h.evolves.at?_eq hr
  case size => exact h.evolves.size_le

/-- Whatever is done with a registry but a reset, and whether or not it is refused, every entity stays
with its identity and its policy, and children, sites and paths are only added at the end. -/
theorem Reachable.run_extends (hr : r.Reachable) (ops : List Operation) : r.Extends (r.run ops) :=
  (steps_run hr.sound ops).extends hr.sound

/-- A type `A` is found to be the namespace of a routine, a declaration of the same run is refused after
another one has been merged into `A`, and then something is written to the root. -/
theorem run_extends_of_refused_run :
    Extends
      ((create .firstDocumented 1).run [.declare
        { scope := .root, name := ['A'], kind := .type, site := ⟨['f'], 1⟩ }])
      (((create .firstDocumented 1).run [.declare
        { scope := .root, name := ['A'], kind := .type, site := ⟨['f'], 1⟩ }]).run
        [.declareAll
          [{ scope := .root, name := ['A', ':', ':', 'b'], kind := .classRoutine, site := ⟨['f'], 2⟩ },
            { scope := .within ⟨1, 0⟩, name := ['A'], kind := .ns, site := ⟨['f'], 3⟩,
              docstring := some ['x'] },
            { scope := .root, name := ['B', ':', ':'], kind := .type, site := ⟨['f'], 4⟩ }],
          .perform ⟨1, 0⟩ [.addSite ⟨['g'], 1⟩ true]]) ∧
    (((create .firstDocumented 1).run [.declare
        { scope := .root, name := ['A'], kind := .type, site := ⟨['f'], 1⟩ }]).run
        [.declareAll
          [{ scope := .root, name := ['A', ':', ':', 'b'], kind := .classRoutine, site := ⟨['f'], 2⟩ },
            { scope := .within ⟨1, 0⟩, name := ['A'], kind := .ns, site := ⟨['f'], 3⟩,
              docstring := some ['x'] },
            { scope := .root, name := ['B', ':', ':'], kind := .type, site := ⟨['f'], 4⟩ }],
          .perform ⟨1, 0⟩ [.addSite ⟨['g'], 1⟩ true]]).entities.map
        (fun e => (e.kind, e.title, e.ledger.sites.map (·.line))) =
      [(.type, ['A'], [1, 3]), (.classRoutine, ['A', '.', 'b'], [2])] :=
  ⟨Reachable.run_extends ((Reachable.create _ 1).run _) _, by decide⟩

end Registry

end CodeCatalog
