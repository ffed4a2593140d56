import CodeCatalog.Proofs.Registry.Reachable
import CodeCatalog.Proofs.Registry.Repeating

/-!
# One entity for each path

Between two resets the path that is composed for a declaration says which entity is meant: equal
paths give one handle, and different paths give different ones, whatever is done in between.
-/
namespace CodeCatalog

open Registry

/-- The scope, the name and the kind for which an operation gives the one entity that they declare. -/
def Operation.declared? : Operation → Option (Scope × Text × EntityKind)
  | intern scope name kind => some (scope, name, kind)
  | internWith scope name kind _ => some (scope, name, kind)
  | declare d => some (d.scope, d.name, d.kind)
  | resolve .. | declareAll .. | perform .. => none

/-- What such an operation still does when the entity has been interned. -/
def Operation.finish (op : Operation) (id : EntityId) : RegistryM (List EntityId) :=
  match op with
  | internWith _ _ _ requests => do
    let _ ← RegistryM.perform id requests
    return [id]
  | declare d => do
    modify (·.update id (·.merge d))
    return [id]
  | _ => return [id]

/-- The operation succeeds and gives the entity `id`. The effective namespace is registered, and
`path` is composed of its path, the separator of the kind and the last part of the name. -/
def Operation.Registers (op : Operation) (r : Registry) (path : Text) (id : EntityId) : Prop :=
  ∃ scope name kind p s o, op.declared? = some (scope, name, kind) ∧
    RegistryM.resolve scope name r = .ok p s ∧ p.registers = true ∧ p.owner = some o ∧
    path = Path.member (s.pathOf o) kind p.leaf ∧ op.program r = .ok [id] (op.exec r)

variable {r s t : Registry} {scope : Scope} {name : Text} {kind : EntityKind} {p : Placement}
  {id : EntityId} {e : Entity} {path : Text} {op : Operation}

theorem Operation.program_eq (hop : op.declared? = some (scope, name, kind)) :
    op.program = RegistryM.intern scope name kind >>= op.finish := by
  cases op with
  | intern =>
      cases hop
      rfl
  | internWith =>
      cases hop
      simp only [program, RegistryM.internWith, bind_assoc, pure_bind]
      rfl
  | declare d =>
      cases hop
      simp only [program, RegistryM.declare, bind_assoc, pure_bind]
      rfl
  | resolve | declareAll | perform => cases hop

/-- Only the entity is written to. -/
theorem Operation.run_finish (op : Operation) (id : EntityId) (t : Registry) :
    ∃ s, op.finish id t = .ok [id] s ∧ s.table = t.table ∧ t.Evolves s := by
  cases op with
  | internWith scope name kind requests =>
      simp only [finish]
      rw [RegistryM.run_bind, RegistryM.run_perform, performAt]
      cases he : t.get? id with
      | none => exact ⟨t, rfl, rfl, .refl⟩
      | some e =>
          exact ⟨_, rfl, table_update t id _, .single (Step.perform he requests).changes⟩
  | declare d => exact ⟨_, rfl, table_update t id _, .single (Step.merge id d).changes⟩
  | resolve | intern | declareAll | perform => exact ⟨t, rfl, rfl, .refl⟩

theorem Operation.exists_intern {ids : List EntityId}
    (hop : op.declared? = some (scope, name, kind)) (hrun : op.program r = .ok ids t) :
    ∃ id s, ids = [id] ∧ RegistryM.intern scope name kind r = .ok id s ∧ s.Evolves t := by
  rw [program_eq hop] at hrun
  obtain ⟨id, s, hin, hrest⟩ := RegistryM.exists_of_bind_eq_ok hrun
  obtain ⟨t', hfinish, _, hev⟩ := op.run_finish id s
  rw [hfinish] at hrest
  cases hrest
  exact ⟨id, s, rfl, hin, hev⟩

/-- How a registering operation comes to its entity: it resolves, interns at the place found, and then
at most writes to the entity. -/
theorem Operation.Registers.placed (h : op.Registers r path id) (hr : r.Sound) :
    ∃ scope name kind p s t, op.declared? = some (scope, name, kind) ∧
      RegistryM.resolve scope name r = .ok p s ∧ RegistryM.intern scope name kind r = .ok id t ∧
      s.Sound ∧ p.Fits s ∧ p.path? kind s = some path ∧ Placed s kind p id t ∧
      t.Evolves (op.exec r) := by
  obtain ⟨scope, name, kind, p, s, o, hop, hres, hreg, ho, rfl, hrun⟩ := h
  have hp := (RegistryM.ends_resolve hr scope name).of_ok hres
  have hs := hp.grows.evolves.sound hr
  obtain ⟨_, t, hids, hin, hev⟩ := Operation.exists_intern hop hrun
  cases hids
  have hplace := hin
  rw [RegistryM.run_intern, hres] at hplace
  exact ⟨scope, name, kind, p, s, t, hop, hres, hin, hs, hp.fits hr,
    Placement.path?_eq_some_iff.mpr ⟨hreg, o, ho, rfl⟩,
    (RegistryM.ends_place hs (hp.fits hr)).of_ok hplace, hev⟩

theorem Operation.Registers.hasPath (h : op.Registers r path id) (hr : r.Sound) :
    (op.exec r).HasPath id path := by
  obtain ⟨_, _, _, p, s, t, _, _, _, hs, _, hpath, ht, hev⟩ := h.placed hr
  exact hev.hasPath (ht.hasPath hs hpath)

/-- An entity that had no path before the operation is of the kind that is asked for. -/
theorem Placed.kind_eq (h : Placed s kind p id t) (hs : s.Sound)
    (hfree : ∀ path, p.path? kind s = some path → s.at? path = none) (he : t.get? id = some e) :
    e.kind = kind := by
  cases h with
  | old hp hat =>
      rw [hfree _ hp] at hat
      cases hat
  | new ha room _ =>
      rw [hs.get?_add_nextId ha, Option.some.injEq] at he
      rw [← he]
      rfl

namespace Registry

/-- An entity keeps its kind as long as the registry only evolves. -/
theorem Evolves.kind_eq (h : r.Evolves s) (he : r.get? id = some e) :
    ∃ e', s.get? id = some e' ∧ e'.kind = e.kind := by
  obtain ⟨e', he', hi⟩ := h.exists_get? he
  exact ⟨e', he', congrArg Identity.kind hi⟩

/-- Of the operations that register, those with equal paths, and no others, give one handle, which is
found under the path from the first of them on. Interning the same once more gives it too and changes
nothing at all, also for another kind with the same separator: the entity keeps the kind that it was
made with. -/
theorem Reachable.same_handle_iff_same_path (hr : r.Reachable) (h : op.Registers r path id) :
    (∀ (ops : List Operation) (op' : Operation) path' id',
      op'.Registers ((op.exec r).run ops) path' id' → (id' = id ↔ path' = path)) ∧
    (∀ ops, ((op.exec r).run ops).at? path = some id) ∧
    ∀ scope name kind, op.declared? = some (scope, name, kind) →
      (∀ ops kind', kind'.separator = kind.separator →
        RegistryM.intern scope name kind' ((op.exec r).run ops) = .ok id ((op.exec r).run ops)) ∧
      ∃ first, (op.exec r).get? id = some first ∧
        (∀ p s, RegistryM.resolve scope name r = .ok p s → s.at? path = none → first.kind = kind) ∧
        ∀ ops, ∃ e, ((op.exec r).run ops).get? id = some e ∧ e.kind = first.kind := by
  have hs := hr.sound
  have hexec : (op.exec r).Sound := (op.evolves hs).sound hs
  obtain ⟨scope, name, kind, p, s, t, hop, hres, hin, hss, hfits, hpath, ht, hev⟩ := h.placed hs
  have hts : t.Sound := ht.grows.evolves.sound hss
  refine ⟨?_, ?_, ?_⟩
  · intro ops op' path' id' h'
    have hrun : (op.exec r).Evolves ((op.exec r).run ops) := evolves_run hexec ops
    have hsound := hrun.sound hexec
    have hop' := op'.evolves hsound
    have hid := hop'.hasPath (hrun.hasPath (h.hasPath hs))
    have hid' := h'.hasPath hsound
    constructor
    · rintro rfl
      exact hid'.eq_of_eq hid
    · rintro rfl
      exact (hop'.sound hsound).hasPath_unique hid' hid
  · intro ops
    have hrun : t.Evolves ((op.exec r).run ops) := hev.trans (evolves_run hexec ops)
    exact hrun.at?_eq hts (ht.at?_eq hss hfits hpath)
  · intro scope' name' kind' hop'
    cases hop.symm.trans hop'
    constructor
    · intro ops kind' hsep
      exact RegistryM.intern_again hs hres hpath hin hsep (hev.trans (evolves_run hexec ops))
    · obtain ⟨e, he, _⟩ := ht.hasPath hss hpath
      obtain ⟨first, hfirst, hkind⟩ := hev.kind_eq he
      refine ⟨first, hfirst, ?_, fun ops => (evolves_run hexec ops).kind_eq hfirst⟩
      intro p' s' hres' hfree
      cases hres.symm.trans hres'
      rw [hkind]
      refine ht.kind_eq hss (fun path' hpath' => ?_) he
      cases hpath.symm.trans hpath'
      exact hfree

/-- A type `A#b` is interned, and then the routine `b` of `A`, with something written to it. -/
theorem same_handle_of_type_named_as_routine :
    (Operation.internWith .root ['A', ':', ':', 'b'] .instanceRoutine
      [.set "source" (.text ['x'])]).Registers
        ((create .latestDocumented 1).run [.intern .root ['A', '#', 'b'] .type])
        ['A', '#', 'b'] ⟨1, 1⟩ ∧
    ∀ (ops : List Operation) (op' : Operation) path' id',
      op'.Registers (((create .latestDocumented 1).run [.intern .root ['A', '#', 'b'] .type,
        .internWith .root ['A', ':', ':', 'b'] .instanceRoutine
          [.set "source" (.text ['x'])]]).run ops) path' id' →
      (id' = ⟨1, 1⟩ ↔ path' = ['A', '#', 'b']) :=
  have h : (Operation.internWith .root ['A', ':', ':', 'b'] .instanceRoutine
      [.set "source" (.text ['x'])]).Registers
        ((create .latestDocumented 1).run [.intern .root ['A', '#', 'b'] .type])
        ['A', '#', 'b'] ⟨1, 1⟩ :=
    ⟨_, _, _, _, _, _, rfl, rfl, rfl, rfl, rfl, rfl⟩
  ⟨h, (Reachable.same_handle_iff_same_path ((Reachable.create _ 1).run _) h).1⟩

end Registry

end CodeCatalog
