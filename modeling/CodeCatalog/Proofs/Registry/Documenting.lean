import CodeCatalog.Proofs.Entity.Merge
import CodeCatalog.Proofs.Registry.Refusing

/-!
# Documenting

Whether a declaration has documentation is decided on its text as it stands, before that is read. The
document read from it agrees, so an entity that was given documentation has some.
-/
namespace CodeCatalog

variable {d : Declaration} {r t : Registry} {id : EntityId}

/-- A document says nothing exactly if nothing is left of its text when it is trimmed. -/
theorem Docstring.isEmpty_read_iff (raw : Text) : (read raw).isEmpty = true ↔ raw.trim = [] := by
  rw [isEmpty_read, Text.trim_eq_nil_iff]

theorem Declaration.isDocumented_iff :
    d.isDocumented = true ↔ ∃ raw, d.docstring = some raw ∧ (Docstring.read raw).isEmpty = false := by
  cases hraw : d.docstring with
  | none => simp [isDocumented, hraw]
  | some raw => simp [isDocumented, hraw, Docstring.isEmpty_read]

/-- Documentation is kept out of an entity only by documentation that it has already. -/
theorem Entity.isEmpty_docstring_merge (e : Entity) (h : d.isDocumented = true) :
    (e.merge d).attributes.docstring.isEmpty = false := by
  rw [attributes_merge, AttributeTable.docstring_overwrite]
  split
  · obtain ⟨raw, hraw, hsays⟩ := Declaration.isDocumented_iff.mp h
    rw [hraw]
    exact hsays
  · next hkept =>
      by_contra hempty
      exact hkept ⟨h, Or.inr (eq_true_of_ne_false hempty)⟩

/-- What has been declared holds the declaration. -/
theorem RegistryM.exists_of_declare_eq_ok (h : r.Sound) (hrun : declare d r = .ok id t) :
    ∃ e : Entity, t.get? id = some (e.merge d) := by
  obtain ⟨id', s, hin, hrest⟩ := exists_of_bind_eq_ok hrun
  cases hrest
  obtain ⟨e, he⟩ := live_of_intern h hin
  exact ⟨e, by rw [Registry.get?_update, if_pos rfl, he, Option.map_some]⟩

/-- A text documents something exactly if a document is read from it that is not empty. Whatever is
declared with such a text has documentation from then on, be it this one or one it had before. -/
theorem Registry.documented_iff_read :
    (∀ raw, (Docstring.read raw).isEmpty = true ↔ raw.trim = []) ∧
      (∀ d : Declaration, d.isDocumented = true ↔
        ∃ raw, d.docstring = some raw ∧ (Docstring.read raw).isEmpty = false) ∧
      ∀ (r t : Registry) (d : Declaration) (id : EntityId), r.Reachable → d.isDocumented = true →
        RegistryM.declare d r = .ok id t →
          ∃ e, t.get? id = some e ∧ e.attributes.docstring.isEmpty = false := by
  refine ⟨Docstring.isEmpty_read_iff, fun d => Declaration.isDocumented_iff, ?_⟩
  intro r t d id hr hdoc hrun
  obtain ⟨e, he⟩ := RegistryM.exists_of_declare_eq_ok hr.sound hrun
  exact ⟨e.merge d, he, e.isEmpty_docstring_merge hdoc⟩

/-- Under a policy that keeps the first site, a routine was declared with a text of white space alone.
Its next declaration is not canonical, and documents it by a tag. -/
theorem Registry.documented_of_tag_alone :
    ∃ t e, RegistryM.declare
        { scope := .root, name := ['b'], kind := .instanceRoutine, site := ⟨['f'], 2⟩,
          docstring := some "\t@todo".toList }
        ((create .firstDiscovered 1).run [.declare
          { scope := .root, name := ['b'], kind := .instanceRoutine, site := ⟨['f'], 1⟩,
            docstring := some " \u00a0\r".toList }]) = .ok ⟨1, 1⟩ t ∧
      t.get? ⟨1, 1⟩ = some e ∧ e.attributes.docstring.isEmpty = false := by
  have hr := (Reachable.create .firstDiscovered 1).run [.declare
    { scope := .root, name := ['b'], kind := .instanceRoutine, site := ⟨['f'], 1⟩,
      docstring := some " \u00a0\r".toList }]
  obtain ⟨e, he, hsays⟩ := documented_iff_read.2.2 _ _
    { scope := .root, name := ['b'], kind := .instanceRoutine, site := ⟨['f'], 2⟩,
      docstring := some "\t@todo".toList } ⟨1, 1⟩ hr (by decide) rfl
  exact ⟨_, e, rfl, he, hsays⟩

end CodeCatalog
