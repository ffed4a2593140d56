import CodeCatalog.Proofs.DeclaredName
import CodeCatalog.Proofs.Registry.Declaring
import CodeCatalog.Proofs.Registry.Repeating

/-!
# Paths as names

A path is itself a name that can be declared in the root. If names have no colon in them, then
whoever has the path is found, and nothing is made on the way, as every text before a name separator
is the path of somebody further up.
-/
namespace CodeCatalog

open Registry

variable {r : Registry} {id o : EntityId} {e : Entity} {p q leaf : Text} {outer names : List Text}
  {kind : EntityKind}

/-! ## Namespaces that are all there -/

theorem RegistryM.ensureNamespaces_of_taken (h : r.Sound) (ho : r.HasPath o q)
    (htaken : ∀ p ∈ Path.descent q names, ∃ id, r.at? p = some id) :
    ∃ id, ensureNamespaces o names r = .ok id r ∧
      r.HasPath id (names.foldl (fun q n => Path.member q .ns n) q) := by
  induction names generalizing o q with
  | nil => exact ⟨o, rfl, ho⟩
  | cons n names ih =>
      obtain ⟨id, hat⟩ := htaken (Path.member q .ns n) (by simp [Path.descent])
      obtain ⟨id', hrun, hid'⟩ := ih (h.hasPath_of_at? hat) fun p hp =>
        htaken p (by simp [Path.descent, hp])
      refine ⟨id', ?_, hid'⟩
      rw [ensureNamespaces, run_bind, run_ensureNamespace, ho.pathOf_eq, hat]
      exact hrun

/-! ## How a path is spelt -/

/-- The path of somebody joins parts that can be told apart, and every part but the last leads to
somebody. -/
structure Registry.Spells (r : Registry) (outer : List Text) (leaf p : Text) : Prop where
  joined : p = nameSeparator.intercalate (outer ++ [leaf])
  parts : ∀ s ∈ outer ++ [leaf], s ≠ [] ∧ ':' ∉ s
  taken : ∀ q ∈ Path.descent [] outer, ∃ id, r.at? q = some id

namespace Registry.Spells

theorem eq_member (h : r.Spells outer leaf p) (hkind : kind.separator = nameSeparator) :
    p = Path.member (nameSeparator.intercalate outer) kind leaf := by
  have hns : EntityKind.ns.separator = kind.separator := hkind.symm
  calc p = Path.member (nameSeparator.intercalate outer) .ns leaf := by
        rw [Path.member_intercalate fun s hs => (h.parts s hs).1, h.joined]
    _ = Path.member (nameSeparator.intercalate outer) kind leaf := Path.member_congr hns _ _

/-- A name separator begins a new part. -/
theorem within (h : r.Spells outer leaf q) (hat : r.at? q = some o) {name : Text}
    (hname : name ≠ [] ∧ ':' ∉ name) :
    r.Spells (outer ++ [leaf]) name (q ++ nameSeparator ++ name) where
  joined := by
    rw [h.joined, Path.intercalate_concat, Path.intercalate_concat]
    simp
  parts s hs := by
    rcases List.mem_append.mp hs with hs | hs
    · exact h.parts s hs
    · rw [List.mem_singleton.mp hs]
      exact hname
  taken s hs := by
    rw [Path.descent_concat, Path.foldl_member fun s hs => (h.parts s hs).1, ← h.joined] at hs
    rcases List.mem_append.mp hs with hs | hs
    · exact h.taken s hs
    · rw [List.mem_singleton.mp hs]
      exact ⟨o, hat⟩

/-- Any other separator continues the last part. -/
theorem extend (h : r.Spells outer leaf q) {x : Text} (hx : ':' ∉ x) :
    r.Spells outer (leaf ++ x) (q ++ x) where
  joined := by
    rw [h.joined, Path.intercalate_concat, Path.intercalate_concat, List.append_assoc]
  parts s hs := by
    rcases List.mem_append.mp hs with hs | hs
    · exact h.parts s (List.mem_append_left _ hs)
    · obtain ⟨hne, hleaf⟩ := h.parts leaf (by simp)
      rw [List.mem_singleton.mp hs]
      exact ⟨by simp [hne], by simp [hleaf, hx]⟩
  taken := h.taken

/-- A path that has no colon in it is a single part. -/
theorem single (hne : p ≠ []) (hp : ':' ∉ p) : r.Spells [] p p where
  joined := by simp
  parts := by simpa using ⟨hne, hp⟩
  taken := by simp [Path.descent]

/-- A member's path is spelt like its owner's, with a part more or with a longer last part. -/
theorem member (h : r.Spells outer leaf q) (hat : r.at? q = some o) {name : Text}
    (hname : name ≠ [] ∧ ':' ∉ name) (kind : EntityKind) :
    ∃ outer' leaf', r.Spells outer' leaf' (Path.member q kind name) := by
  have hq : q ≠ [] := by
    rw [h.joined, Path.intercalate_concat]
    simp [(h.parts leaf (by simp)).1]
  have hmember : Path.member q kind name = q ++ kind.separator ++ name := by
    simp [Path.member, hq]
  rw [hmember]
  cases kind with
  | ns | type => exact ⟨_, _, h.within hat hname⟩
  | instanceRoutine | classRoutine =>
      rw [List.append_assoc]
      exact ⟨_, _, h.extend (by simp [EntityKind.separator, hname.2])⟩

end Registry.Spells

theorem Path.colon_not_mem_member {name : Text} (hname : ':' ∉ name) (kind : EntityKind) :
    ':' ∉ Path.member [] kind name := by
  cases kind <;> simp [Path.member, EntityKind.separator, nameSeparator, hname]

/-- By induction on who came first: the path of an owner is spelt before those of its members. -/
theorem Registry.Sound.spells (h : r.Sound)
    (hnames : ∀ id e, r.get? id = some e → id ≠ r.rootId → ':' ∉ e.name)
    (he : r.get? id = some e) (hp : e.path = some p) (hne : id ≠ r.rootId) :
    ∃ outer leaf, r.Spells outer leaf p := by
  induction hn : id.index using Nat.strongRecOn generalizing id e p with
  | ind n ih =>
      obtain ⟨o, q, ho, hoq, rfl⟩ := h.owner_of_path he hp hne
      have hname : e.name ≠ [] ∧ ':' ∉ e.name :=
        ⟨(h.census.admissible (getElem?_census he) (index_ne_zero he hne)).name_ne_nil,
          hnames id e he hne⟩
      by_cases hroot : o = r.rootId
      · subst hroot
        rw [hoq.eq_of_eq h.hasPath_root]
        exact ⟨[], _, .single (Path.member_ne_nil hname.1) (Path.colon_not_mem_member hname.2 _)⟩
      · have hlt : o.index < n := hn ▸ (h.owner_lt he ho).2
        obtain ⟨eo, heo, hq⟩ := hoq
        obtain ⟨outer, leaf, hspells⟩ := ih o.index hlt heo hq hroot rfl
        exact hspells.member (h.at?_eq_some_iff.mpr ⟨hroot, eo, heo, hq⟩) hname e.kind

/-! ## Interning a path -/

namespace RegistryM

theorem findOwner_of_spells (h : r.Sound) (hp : r.Spells outer leaf p) :
    ∃ o, findOwner .root ⟨false, outer, leaf⟩ r = .ok (some o) r := by
  rw [run_findOwner]
  by_cases houter : outer = []
  · exact ⟨r.rootId, by rw [houter]; rfl⟩
  · obtain ⟨o, hrun, _⟩ := ensureNamespaces_of_taken h h.hasPath_root hp.taken
    refine ⟨o, ?_⟩
    rw [if_pos houter, run_bind, hrun]
    rfl

theorem intern_of_spells (h : r.Sound) (hp : r.Spells outer leaf p) (hat : r.at? p = some id)
    (hkind : kind.separator = nameSeparator) : intern .root p kind r = .ok id r := by
  have hread : DeclaredName.read? p = some ⟨false, outer, leaf⟩ := by
    rw [hp.joined]
    exact DeclaredName.read?_intercalate hp.parts
  obtain ⟨o, hfind⟩ := findOwner_of_spells h hp
  have hres : resolve .root p r = .ok (.under .root ⟨false, outer, leaf⟩ (some o) r) r :=
    run_resolve nofun hread hfind
  have hpath : (Placement.under .root ⟨false, outer, leaf⟩ (some o) r).path? kind r = some p := by
    rw [hp.eq_member hkind]
    exact ((ends_resolve h .root p).of_ok hres).path?_root h hread
  rw [run_intern, hres]
  simp only
  rw [run_place, hpath, Option.bind_some, hat]

end RegistryM

namespace Registry

/-- Whoever has a path is what one gets by interning the path, as a namespace or as a type, in the
root, and nothing changes. -/
theorem Reachable.intern_path (hr : r.Reachable)
    (hnames : ∀ id e, r.get? id = some e → id ≠ r.rootId → ':' ∉ e.name)
    (he : r.get? id = some e) (hp : e.path = some p) (hne : id ≠ r.rootId)
    (hkind : kind = .ns ∨ kind = .type) : RegistryM.intern .root p kind r = .ok id r := by
  have h := hr.sound
  have hsep : kind.separator = nameSeparator := by
    rcases hkind with rfl | rfl <;> rfl
  obtain ⟨outer, leaf, hspells⟩ := h.spells hnames he hp hne
  exact RegistryM.intern_of_spells h hspells (h.at?_eq_some_iff.mpr ⟨hne, e, he, hp⟩) hsep

theorem mem_arena (he : r.get? id = some e) : e ∈ r.arena.toList :=
  Array.mem_toList_iff.mpr (Array.mem_of_getElem? (get?_eq_some_iff.mp he).2)

/-- A class routine of a type that stands in a routine, whose name has a dot in it. -/
theorem intern_path_of_nested_routines :
    ∃ r : Registry,
      r = (create .latestDocumented 1).run
        [.intern .root ['A'] .type, .intern (.within ⟨1, 1⟩) ['b', '.', 'c'] .instanceRoutine,
          .intern (.within ⟨1, 2⟩) ['D'] .type, .intern (.within ⟨1, 3⟩) ['e'] .classRoutine] ∧
      (∀ id e, r.get? id = some e → id ≠ r.rootId → ':' ∉ e.name) ∧
      RegistryM.intern .root ['A', '#', 'b', '.', 'c', ':', ':', 'D', '.', 'e'] .ns r =
        .ok ⟨1, 4⟩ r := by
  refine ⟨_, rfl, ?_⟩
  have hnames : ∀ e ∈ ((create .latestDocumented 1).run
      [.intern .root ['A'] .type, .intern (.within ⟨1, 1⟩) ['b', '.', 'c'] .instanceRoutine,
        .intern (.within ⟨1, 2⟩) ['D'] .type,
        .intern (.within ⟨1, 3⟩) ['e'] .classRoutine]).arena.toList, ':' ∉ e.name := by
    decide
  refine ⟨fun id e he _ => hnames e (mem_arena he), ?_⟩
  exact Reachable.intern_path ((Reachable.create _ 1).run _)
    (fun id e he _ => hnames e (mem_arena he)) rfl rfl nofun (.inl rfl)

end Registry

end CodeCatalog
