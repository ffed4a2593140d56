import Mathlib.Data.List.Induction
import CodeCatalog.Proofs.Entity.Merge
import CodeCatalog.Proofs.Registry.Reachable

/-!
# Declaring in the root

What a run of declarations leaves under a path depends on the declarations alone that target this
path, in their order. A declaration whose name cannot be read counts for nothing.
-/
namespace CodeCatalog

/-! ## Targets -/

/-- The path of what a name declares in the root: the outer parts, the separator of the kind, and the
last part. -/
def DeclaredName.target (n : DeclaredName) (kind : EntityKind) : Text :=
  if n.outer = [] ∧ kind.separator = nameSeparator then n.leaf
  else nameSeparator.intercalate n.outer ++ kind.separator ++ n.leaf

/-- The path that a declaration in the root is about. -/
def Declaration.target? (d : Declaration) : Option Text :=
  (DeclaredName.read? d.name).map (·.target d.kind)

/-- The declarations that are about a path. -/
def Declaration.targeting (ds : List Declaration) (p : Text) : List Declaration :=
  ds.filter fun d => d.target? = some p

theorem DeclaredName.target_eq {n : DeclaredName} {kind : EntityKind} (h : ∀ s ∈ n.outer, s ≠ []) :
    n.target kind = Path.member (nameSeparator.intercalate n.outer) kind n.leaf := by
  simp only [target, Path.member, Path.intercalate_eq_nil_iff h]

namespace Declaration

variable {d : Declaration} {n : DeclaredName} {p : Text}

theorem target?_eq_of_read? (h : DeclaredName.read? d.name = some n) :
    d.target? = some (Path.member (nameSeparator.intercalate n.outer) d.kind n.leaf) := by
  rw [target?, h, Option.map_some, DeclaredName.target_eq (DeclaredName.parts_ne_nil h).2]

theorem target?_eq_none_iff : d.target? = none ↔ DeclaredName.read? d.name = none := by
  simp [target?]

theorem target?_ne_nil : d.target? ≠ some [] := by
  intro ht
  cases hn : DeclaredName.read? d.name with
  | none =>
      rw [target?_eq_none_iff.mpr hn] at ht
      cases ht
  | some n =>
      rw [target?_eq_of_read? hn, Option.some.injEq] at ht
      exact Path.member_ne_nil (DeclaredName.parts_ne_nil hn).1 ht

theorem targeting_snoc_of_eq {ds : List Declaration} (h : d.target? = some p) :
    targeting (ds ++ [d]) p = targeting ds p ++ [d] := by
  simp [targeting, h]

theorem targeting_snoc_of_ne {ds : List Declaration} (h : d.target? ≠ some p) :
    targeting (ds ++ [d]) p = targeting ds p := by
  simp [targeting, h]

end Declaration

/-! ## One declaration -/

open Registry

/-- What is declared in the root is registered under the target. -/
theorem Resolved.path?_root {r s : Registry} {name : Text} {kind : EntityKind} {n : DeclaredName}
    {p : Placement} (hp : Resolved r .root name p s) (h : r.Sound)
    (hn : DeclaredName.read? name = some n) :
    p.path? kind s = some (Path.member (nameSeparator.intercalate n.outer) kind n.leaf) := by
  obtain ⟨n', hn', hleaf, hfound⟩ := hp.found
  rw [hn, Option.some.injEq] at hn'
  subst hn'
  have howner : ∃ o, p.owner = some o ∧ s.HasPath o (nameSeparator.intercalate n.outer) := by
    rcases hfound with ⟨_, ho⟩ | ⟨houter, rfl, ho⟩
    · exact ho
    · refine ⟨s.rootId, ?_, ?_⟩
      · rw [ho]
        exact ite_self _
      · rw [houter]
        exact h.hasPath_root
  obtain ⟨o, ho, hpath⟩ := howner
  rw [Placement.path?_eq_some_iff, hp.registers]
  refine ⟨⟨?_, o, _, ho, hpath⟩, o, ho, ?_⟩
  · rintro ⟨⟩
  · rw [hpath.pathOf_eq, hleaf]

namespace RegistryM

variable {r : Registry} {d : Declaration}

theorem ends_declare_root (h : r.Sound) (hd : d.scope = .root) :
    (declare d).Ends r
      (fun id s => ∃ t p, r.Grows t ∧ d.target? = some p ∧ t.HasPath id p ∧
        s = t.update id (·.merge d))
      (fun e s => (d.target? = none ∧ e = .emptyName d.name ∧ s = r) ∨
        (d.target? ≠ none ∧ r.Grows s ∧ Full e s)) := by
  have hintern : (intern d.scope d.name d.kind).Ends r
      (fun id t => ∃ p, r.Grows t ∧ d.target? = some p ∧ t.HasPath id p)
      (fun e s => (d.target? = none ∧ e = .emptyName d.name ∧ s = r) ∨
        (d.target? ≠ none ∧ r.Grows s ∧ Full e s)) := by
    rw [hd]
    refine (ends_intern h .root d.name d.kind).mono ?_ ?_
    · rintro id t ⟨p, s, hp, ht⟩
      obtain ⟨n, hn, _⟩ := hp.found
      refine ⟨_, hp.grows.trans ht.grows, Declaration.target?_eq_of_read? hn, ?_⟩
      exact ht.hasPath (hp.grows.evolves.sound h) (hp.path?_root h hn)
    · intro e s hs
      cases hs with
      | deadScope hs _ => cases hs
      | emptyName _ hn => exact Or.inl ⟨Declaration.target?_eq_none_iff.mpr hn, rfl, rfl⟩
      | full _ hn hg hf =>
          refine Or.inr ⟨?_, hg, hf⟩
          rw [Declaration.target?_eq_of_read? hn]
          rintro ⟨⟩
  unfold declare
  refine hintern.bind ?_
  rintro id t ⟨p, hg, ht, hp⟩
  exact ⟨t, p, hg, ht, hp, rfl⟩

theorem declare_error (h : r.Sound) (hd : d.scope = .root) (ht : d.target? = none) :
    declare d r = .error (.emptyName d.name) r := by
  have hends := ends_declare_root h hd
  cases hrun : declare d r with
  | ok id s =>
      obtain ⟨t, p, _, htarget, _⟩ := hends.of_ok hrun
      rw [ht] at htarget
      cases htarget
  | error e s =>
      rcases hends.of_error hrun with ⟨_, rfl, rfl⟩ | ⟨hne, _⟩
      · rfl
      · exact absurd ht hne

theorem declare_ok {p : Text} (h : r.Sound) (hd : d.scope = .root) (ht : d.target? = some p)
    (hroom : ((declare d).after r).arena.size < capacity) :
    ∃ id s, declare d r = .ok id s ∧ s.at? p = some id := by
  have hends := ends_declare_root h hd
  unfold after at hroom
  cases hrun : declare d r with
  | ok id s =>
      obtain ⟨t, p', hg, htarget, hp, rfl⟩ := hends.of_ok hrun
      cases ht.symm.trans htarget
      have hts := hg.evolves.sound h
      have hedit : t.Changes (t.update id (·.merge d)) := .edit id _ fun e _ => e.remains_merge d
      have hne : p ≠ [] := by
        rintro rfl
        exact Declaration.target?_ne_nil ht
      exact ⟨id, _, rfl, (hedit.sound hts).at?_of_hasPath (Evolves.hasPath (.single hedit) hp) hne⟩
  | error e s =>
      rw [hrun] at hroom
      rcases hends.of_error hrun with ⟨hnone, _⟩ | ⟨_, _, _, hfull⟩
      · rw [ht] at hnone
        cases hnone
      · exact absurd hroom (Nat.not_lt_of_le hfull)

end RegistryM

/-! ## Runs -/

namespace Registry

/-- What a run of declarations has left: every target is taken, and whoever has a path holds what the
declarations that are about it have given it. -/
structure Declared (ds : List Declaration) (r : Registry) : Prop where
  sound : r.Sound
  taken : ∀ d ∈ ds, ∀ p, d.target? = some p → ∃ id, r.HasPath id p
  content : ∀ id e p, r.get? id = some e → e.path = some p →
    e.Merged r.policy (Declaration.targeting ds p)

namespace Declared

variable {r t : Registry} {ds : List Declaration} {d : Declaration} {id : EntityId} {p : Text}

theorem create (policy : CanonicalPolicy) (g : Nat) : Declared [] (Registry.create policy g) where
  sound := .create policy g
  taken := by
    intro d hd
    cases hd
  content := by
    intro id e p he _
    obtain ⟨_, rfl⟩ := get?_create he
    exact .blank rfl rfl

/-- Whoever comes without a declaration of its own stands on the way to a target. No declaration was
about its path, or somebody would have it. -/
theorem targeting_eq_nil (h : Declared ds r) {e : Entity} (hg : r.Grows t)
    (he : t.get? id = some e) (hp : e.path = some p) (hnone : r.get? id = none) :
    Declaration.targeting ds p = [] := by
  rw [Declaration.targeting, List.filter_eq_nil_iff]
  intro d hd ht
  obtain ⟨o, ho⟩ := h.taken d hd p (of_decide_eq_true ht)
  have hid := (hg.evolves.sound h.sound).hasPath_unique (hg.evolves.hasPath ho) ⟨e, he, hp⟩
  obtain ⟨e₀, he₀, _⟩ := ho
  rw [hid, hnone] at he₀
  cases he₀

theorem grows (h : Declared ds r) (hg : r.Grows t) : Declared ds t where
  sound := hg.evolves.sound h.sound
  taken := by
    intro d hd p hp
    obtain ⟨id, hid⟩ := h.taken d hd p hp
    exact ⟨id, hg.evolves.hasPath hid⟩
  content := by
    intro id e p he hp
    rw [hg.evolves.policy]
    rcases hg.content h.sound he with ⟨e₀, he₀, hattributes, hledger⟩ | ⟨hnone, hattributes, hledger⟩
    · have hp₀ : e₀.path = some p := by
        obtain ⟨e₁, he₁, hi⟩ := hg.evolves.exists_get? he₀
        cases he.symm.trans he₁
        rw [← hp]
        exact (congrArg Identity.path hi).symm
      exact (h.content id e₀ p he₀ hp₀).congr hattributes hledger
    · rw [h.targeting_eq_nil hg he hp hnone]
      exact .blank hattributes hledger

theorem skip (h : Declared ds r) (ht : d.target? = none) : Declared (ds ++ [d]) r where
  sound := h.sound
  taken := by
    intro d' hd' p hp
    rcases List.mem_append.mp hd' with hd' | hd'
    · exact h.taken d' hd' p hp
    · cases List.mem_singleton.mp hd'
      rw [ht] at hp
      cases hp
  content := by
    intro id e p he hp
    rw [Declaration.targeting_snoc_of_ne (by simp [ht])]
    exact h.content id e p he hp

theorem merge (h : Declared ds r) (ht : d.target? = some p) (hp : r.HasPath id p) :
    Declared (ds ++ [d]) (r.update id (·.merge d)) := by
  have hedit : r.Changes (r.update id (·.merge d)) := .edit id _ fun e _ => e.remains_merge d
  constructor
  case sound => exact hedit.sound h.sound
  case taken =>
    intro d' hd' p' hp'
    refine Exists.imp (fun o => Evolves.hasPath (.single hedit)) ?_
    rcases List.mem_append.mp hd' with hd' | hd'
    · exact h.taken d' hd' p' hp'
    · cases List.mem_singleton.mp hd'
      cases ht.symm.trans hp'
      exact ⟨id, hp⟩
  case content =>
    intro j e p' he hp'
    rw [policy_update]
    rw [get?_update] at he
    split at he
    · rename_i hj
      subst hj
      obtain ⟨e₀, he₀, rfl⟩ := Option.map_eq_some_iff.mp he
      have hp₀ : e₀.path = some p' :=
        (congrArg Identity.path (e₀.remains_merge d).identity).symm.trans hp'
      cases hp.eq_of_eq ⟨e₀, he₀, hp₀⟩
      rw [Declaration.targeting_snoc_of_eq ht]
      exact (h.content j e₀ p he₀ hp₀).snoc d
    · rename_i hj
      rw [Declaration.targeting_snoc_of_ne]
      · exact h.content j e p' he hp'
      · intro ht'
        cases ht.symm.trans ht'
        exact hj (h.sound.hasPath_unique ⟨e, he, hp'⟩ hp)

theorem declare (h : Declared ds r) (hd : d.scope = .root)
    (hroom : ((RegistryM.declare d).after r).arena.size < RegistryM.capacity) :
    Declared (ds ++ [d]) ((RegistryM.declare d).after r) := by
  revert hroom
  refine (RegistryM.ends_declare_root h.sound hd).after
    (P := fun s => s.arena.size < RegistryM.capacity → Declared (ds ++ [d]) s) ?_ ?_
  · rintro id s ⟨t, p, hg, ht, hp, rfl⟩ _
    exact (h.grows hg).merge ht hp
  · rintro e s (⟨ht, _, rfl⟩ | ⟨_, _, _, hfull⟩) hroom
    · exact h.skip ht
    · exact absurd hroom (Nat.not_lt_of_le hfull)

end Declared

/-- A registry as a run of declarations leaves it. -/
def declared (policy : CanonicalPolicy) (g : Nat) (ds : List Declaration) : Registry :=
  (create policy g).run (ds.map .declare)

variable {policy : CanonicalPolicy} {g : Nat} {earlier later ds : List Declaration} {d : Declaration}

theorem declared_append (policy : CanonicalPolicy) (g : Nat) (ds ds' : List Declaration) :
    declared policy g (ds ++ ds') = (declared policy g ds).run (ds'.map .declare) := by
  rw [declared, List.map_append, run_append]
  rfl

theorem declared_snoc (policy : CanonicalPolicy) (g : Nat) (ds : List Declaration)
    (d : Declaration) :
    declared policy g (ds ++ [d]) = (RegistryM.declare d).after (declared policy g ds) :=
  declared_append policy g ds [d]

theorem sound_declared (policy : CanonicalPolicy) (g : Nat) (ds : List Declaration) :
    (declared policy g ds).Sound :=
  (evolves_run (.create policy g) _).sound (.create policy g)

theorem size_declared_le (policy : CanonicalPolicy) (g : Nat) (ds ds' : List Declaration) :
    (declared policy g ds).arena.size ≤ (declared policy g (ds ++ ds')).arena.size := by
  rw [declared_append]
  exact (evolves_run (sound_declared policy g ds) _).size_le

theorem declared_inv (hroot : ∀ d ∈ ds, d.scope = .root)
    (hroom : (declared policy g ds).arena.size < RegistryM.capacity) :
    Declared ds (declared policy g ds) := by
  induction ds using List.reverseRecOn with
  | nil => exact .create policy g
  | append_singleton ds d ih =>
      have hearlier := ih (fun d hd => hroot d (List.mem_append_left _ hd))
        (Nat.lt_of_le_of_lt (size_declared_le policy g ds [d]) hroom)
      rw [declared_snoc] at hroom ⊢
      exact hearlier.declare (hroot d (by simp)) hroom

/-- The content of every path is a function of the declarations that are about it: all their sites,
the one that the policy makes canonical, the documentation it keeps, and the source text and the
signature that were given last. A declaration whose name cannot be read is refused and changes
nothing, and every other one gives the entity that has its target. -/
theorem content_of_declarations (policy : CanonicalPolicy) (g : Nat) (ds : List Declaration)
    (hroot : ∀ d ∈ ds, d.scope = .root)
    (hroom : (declared policy g ds).arena.size < RegistryM.capacity) :
    (∀ earlier d later, ds = earlier ++ d :: later →
      (d.target? = none → RegistryM.declare d (declared policy g earlier) =
        .error (.emptyName d.name) (declared policy g earlier)) ∧
      ∀ p, d.target? = some p → ∃ id s,
        RegistryM.declare d (declared policy g earlier) = .ok id s ∧ s.at? p = some id) ∧
    ∀ p, (∃ d ∈ ds, d.target? = some p) → ∃ e, (declared policy g ds).lookup? p = some e ∧
      e.ledger.sites = (Declaration.targeting ds p).map (·.site) ∧
      e.ledger.canonical = policy.canonicalSite (Declaration.targeting ds p) ∧
      e.attributes.docstring = policy.documentation (Declaration.targeting ds p) ∧
      e.attributes.source =
        ((Declaration.targeting ds p).filterMap (·.source)).getLast?.map Snippet.dedent ∧
      e.attributes.signature =
        ((Declaration.targeting ds p).filterMap (·.signature)).getLast? := by
  constructor
  · rintro earlier d later rfl
    have hd : d.scope = .root := hroot d (by simp)
    have hs := sound_declared policy g earlier
    refine ⟨RegistryM.declare_error hs hd, fun p hp => RegistryM.declare_ok hs hd hp ?_⟩
    have hle := size_declared_le policy g (earlier ++ [d]) later
    rw [List.append_assoc, List.singleton_append, declared_snoc] at hle
    exact Nat.lt_of_le_of_lt hle hroom
  · rintro p ⟨d, hd, hp⟩
    have h := declared_inv hroot hroom
    have hpolicy : (declared policy g ds).policy = policy := (evolves_run (.create policy g) _).policy
    obtain ⟨id, hid⟩ := h.taken d hd p hp
    have hne : p ≠ [] := by
      rintro rfl
      exact Declaration.target?_ne_nil hp
    have hat := h.sound.at?_of_hasPath hid hne
    obtain ⟨e, he, hpath⟩ := hid
    have hc := h.content id e p he hpath
    rw [hpolicy] at hc
    refine ⟨e, ?_, hc.sites, hc.canonical, hc.docstring, hc.source, hc.signature⟩
    rw [lookup?, hat, Option.bind_some, he]

/-- A namespace that a name goes through is declared later, a name cannot be read, and the second
declaration of a routine is the first with documentation. -/
theorem content_of_routine_declared_twice :
    ∃ e, (declared .firstDocumented 1
      [{ scope := .root, name := ['A', ':', ':', 'b'], kind := .instanceRoutine, site := ⟨['f'], 1⟩ },
        { scope := .root, name := ['A'], kind := .type, site := ⟨['f'], 2⟩, docstring := some ['x'] },
        { scope := .root, name := ['A', ':', ':'], kind := .type, site := ⟨['f'], 3⟩ },
        { scope := .root, name := ['A', ':', ':', 'b'], kind := .instanceRoutine, site := ⟨['f'], 4⟩,
          docstring := some ['y'] }]).lookup? ['A', '#', 'b'] = some e ∧
      e.ledger.sites = [⟨['f'], 1⟩, ⟨['f'], 4⟩] ∧ e.ledger.canonical = some ⟨['f'], 4⟩ ∧
      e.attributes.docstring = .read ['y'] ∧ e.attributes.source = none ∧
      e.attributes.signature = none :=
  (content_of_declarations _ _ _ (by decide) (by decide)).2 _ ⟨_, List.mem_cons_self, rfl⟩

end Registry

end CodeCatalog
