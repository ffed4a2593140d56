import CodeCatalog.Proofs.Registry.Adding
import CodeCatalog.Proofs.Registry.Identifying
import CodeCatalog.Proofs.Registry.Refusing

/-!
# What a declaration touches

Interning and declaring write to the entity that they give and to no other one. Besides, they only
make the namespaces that are missing on the way, and enter what is new with its owner.
-/
namespace CodeCatalog

open Registry

variable {r s t u : Registry} {op : Operation} {scope : Scope} {name : Text} {kind : EntityKind}
  {n : DeclaredName} {p : Placement} {id j o : EntityId} {e : Entity} {is chain : List Identity}
  {i : Identity} {path : Text} {ids : List EntityId}

namespace Registry

theorem members_cons (i : Identity) (is : List Identity) (j : EntityId) :
    members (i :: is) j = (if i.owner = some j then [i.id] else []) ++ members is j := by
  by_cases h : i.owner = some j <;> simp [members, h]

/-- If no two have the same owner, nobody owns more than one of them. -/
theorem members_of_nodup_owners (h : (is.map (·.owner)).Nodup) (j : EntityId) :
    members is j = [] ∨ ∃ i ∈ is, i.owner = some j ∧ members is j = [i.id] := by
  induction is with
  | nil => exact Or.inl rfl
  | cons i is ih =>
      rw [List.map_cons, List.nodup_cons] at h
      rw [members_cons]
      by_cases ho : i.owner = some j
      · have hrest : members is j = [] := by
          refine List.eq_nil_iff_forall_not_mem.mpr fun c hc => ?_
          obtain ⟨i', hi', ho', _⟩ := mem_members.mp hc
          exact h.1 (List.mem_map.mpr ⟨i', hi', ho'.trans ho.symm⟩)
        exact Or.inr ⟨i, List.mem_cons_self, ho, by rw [if_pos ho, hrest]; rfl⟩
      · rw [if_neg ho, List.nil_append]
        refine (ih h.2).imp_right ?_
        rintro ⟨i', hi', h'⟩
        exact ⟨i', List.mem_cons_of_mem _ hi', h'⟩

theorem exists_get?_update {f : Entity → Entity}
    (hf : ∀ e, r.get? id = some e → e.Remains (f e)) (he : r.get? j = some e) :
    ∃ e', (r.update id f).get? j = some e' ∧ e.Remains e' ∧ (j ≠ id → e' = e) := by
  rw [get?_update]
  split
  · rename_i hj
    subst hj
    exact ⟨f e, by rw [he]; rfl, hf e he, fun hne => absurd rfl hne⟩
  · exact ⟨e, he, ⟨rfl, rfl, rfl⟩, fun _ => rfl⟩

namespace Gains

theorem weaken (h : r.Gains is none s) (written : Option EntityId) : r.Gains is written s where
  generation := h.generation
  policy := h.policy
  census := h.census
  entries := h.entries
  kept j e he := by
    obtain ⟨e', he', hi, hchildren, hsame⟩ := h.kept j e he
    exact ⟨e', he', hi, hchildren, fun _ => hsame nofun⟩
  came i hi := by
    obtain ⟨e, he, hid, hchildren, hblank⟩ := h.came i hi
    exact ⟨e, he, hid, hchildren, fun _ => hblank nofun⟩

theorem update (h : r.Gains is none s) {f : Entity → Entity}
    (hf : ∀ e, s.get? id = some e → e.Remains (f e)) : r.Gains is (some id) (s.update id f) where
  generation := (generation_update s id f).trans h.generation
  policy := (policy_update s id f).trans h.policy
  census := (census_update fun e he => (hf e he).identity).trans h.census
  entries := by
    rw [table_update]
    exact h.entries
  kept j e he := by
    obtain ⟨e₁, he₁, hi, hchildren, hsame⟩ := h.kept j e he
    obtain ⟨e', he', hremains, heq⟩ := exists_get?_update hf he₁
    refine ⟨e', he', hremains.identity.trans hi, hremains.children.trans hchildren, fun hne => ?_⟩
    rw [heq fun hj => hne (congrArg some hj.symm)]
    exact hsame nofun
  came i hi := by
    obtain ⟨e₁, he₁, hid, hchildren, hblank⟩ := h.came i hi
    obtain ⟨e', he', hremains, heq⟩ := exists_get?_update hf he₁
    refine ⟨e', he', hremains.identity.trans hid, hremains.children.trans hchildren, fun hne => ?_⟩
    rw [heq fun hj => hne (congrArg some hj.symm)]
    exact hblank nofun

end Gains

end Registry

/-! ## The parts of a declaration -/

/-- What comes after interning writes to the interned entity at most. -/
theorem Operation.gains_finish (h : r.Gains is none u) (he : u.get? id = some e)
    (hfinish : op.finish id u = .ok ids t) : r.Gains is (some id) t := by
  cases op with
  | internWith scope name kind requests =>
      obtain ⟨answers, t', hperform, hret⟩ := RegistryM.exists_of_bind_eq_ok hfinish
      rw [RegistryM.run_perform, performAt_eq he] at hperform
      cases hperform
      cases hret
      refine h.update fun e' he' => ?_
      cases he.symm.trans he'
      exact e.remains_performAll requests
  | declare d =>
      cases hfinish
      exact h.update fun e _ => e.remains_merge d
  | resolve | intern | declareAll | perform =>
      cases hfinish
      exact h.weaken (some id)

/-- A place in the last of the namespaces that a name goes through, all of which are there. -/
structure Placement.Below (p : Placement) (r : Registry) (n : DeclaredName) (o : EntityId)
    (s : Registry) : Prop where
  outer : ∀ m ∈ n.outer, m ≠ []
  built : r.Built n.outer o s
  owner : n.outer ≠ [] → p.owner = some o
  fits : p.Fits s

theorem RegistryM.exists_below (hr : r.Sound) (hres : resolve scope name r = .ok p s) :
    ∃ n o, DeclaredName.read? name = some n ∧ p.Below r n o s := by
  have hfits := ((ends_resolve hr scope name).of_ok hres).fits hr
  obtain ⟨_, n, owner, hn, ho, _⟩ := exists_of_resolve_eq_ok hres
  have hparts := (DeclaredName.parts_ne_nil hn).2
  by_cases houter : n.outer = []
  · rw [run_findOwner, if_neg fun hne => hne houter] at ho
    cases ho
    refine ⟨n, r.rootId, hn, hparts, ?_, fun hne => absurd houter hne, hfits⟩
    rw [houter]
    exact .nil hr
  · obtain ⟨o, hens, howner⟩ := exists_of_resolve_outer hres hn houter
    exact ⟨n, o, hn, hparts, (ends_ensureNamespaces_built hr hparts).of_ok hens, fun _ => howner,
      hfits⟩

namespace Placement.Below

theorem length_lt (h : p.Below r n o s) (hpath : p.path? kind s = some path) :
    (nameSeparator.intercalate n.outer).length < path.length := by
  obtain ⟨_, o', ho', rfl⟩ := Placement.path?_eq_some_iff.mp hpath
  refine Nat.lt_of_le_of_lt ?_ (Path.length_lt_member _ kind h.fits.leaf_ne_nil)
  by_cases houter : n.outer = []
  · rw [houter]
    exact Nat.zero_le _
  · cases (h.owner houter).symm.trans ho'
    rw [h.built.hasPath.pathOf_eq]

/-- What is made on the way does not take the path of the target. -/
theorem bind_at?_eq (h : p.Below r n o s) (hr : r.Sound) (kind : EntityKind) :
    (p.path? kind s).bind s.at? = (p.path? kind s).bind r.at? := by
  cases hpath : p.path? kind s with
  | none => rfl
  | some path => exact h.built.at?_eq hr h.outer (h.length_lt hpath)

/-- The target had its path from the first, or it has come last of all. -/
theorem was_or_came (h : p.Below r n o s) (hr : r.Sound) (hplaced : Placed s kind p id u) :
    (u = s ∧ ∃ path, p.path? kind s = some path ∧ r.at? path = some id) ∨
      (id = s.nextId ∧ (p.path? kind s).bind r.at? = none ∧
        u.census = s.census ++ [⟨id, kind, p.leaf, p.path? kind s, p.owner⟩]) := by
  rw [← h.bind_at?_eq hr kind]
  cases hplaced with
  | @old id path hpath hat =>
      refine Or.inl ⟨rfl, path, hpath, ?_⟩
      rw [← h.built.at?_eq hr h.outer (h.length_lt hpath), hat]
  | new ha room hat =>
      refine Or.inr ⟨rfl, Option.bind_eq_none_iff.mpr hat, ?_⟩
      rw [census_add, identity_newEntity]

/-- Nobody on the way is the target. -/
theorem not_hasPath (h : p.Below r n o s) (hr : r.Sound) (hplaced : Placed s kind p id u)
    {ns : List Text} (hns : ns <+: n.outer) : ¬ r.HasPath id (nameSeparator.intercalate ns) := by
  intro hid
  rcases h.was_or_came hr hplaced with ⟨_, path, hpath, hat⟩ | ⟨rfl, _, _⟩
  · have hlt := h.length_lt hpath
    rw [(hr.hasPath_of_at? hat).eq_of_eq hid] at hlt
    exact Nat.not_le_of_lt hlt (Path.length_intercalate_le h.outer hns)
  · obtain ⟨e, he, _⟩ := h.built.grows.evolves.hasPath hid
    cases (get?_nextId s).symm.trans he

theorem id_ne (h : p.Below r n o s) (hr : r.Sound) (hplaced : Placed s kind p id u)
    (hc : s.census = r.census ++ chain) (hi : i ∈ chain) : i.id ≠ id := by
  have hs := h.built.grows.evolves.sound hr
  rintro rfl
  rcases h.was_or_came hr hplaced with ⟨_, path, hpath, hat⟩ | ⟨hid, _, _⟩
  · obtain ⟨e, he, _⟩ := hr.hasPath_of_at? hat
    cases (hs.get?_of_came hc hi).symm.trans he
  · obtain ⟨e, he, _⟩ := hs.exists_get? (hc ▸ List.mem_append_right _ hi)
    rw [hid, get?_nextId] at he
    cases he

theorem nodup_owners (h : p.Below r n o s) (hchain : s.Chain (r.missing n.outer) chain)
    (ho : i.owner = p.owner) : ((chain ++ [i]).map (·.owner)).Nodup := by
  have hne : ∀ i' ∈ chain, i'.owner ≠ p.owner := by
    intro i' hi'
    -- A name that goes through no namespace may have any owner, but then the chain is empty.
    by_cases houter : n.outer = []
    · obtain ⟨ns, hns, hjoins⟩ := hchain.exists_joins hi'
      rw [houter] at hns
      cases hns
    · rw [h.owner houter]
      exact hchain.owner_ne (fun _ => prefix_of_mem_missing) h.outer h.built.hasPath hi'
  rw [List.map_append, List.map_singleton, List.nodup_append, ho]
  refine ⟨hchain.owners, List.nodup_singleton _, ?_⟩
  simpa using hne

theorem exists_target (h : p.Below r n o s) (hr : r.Sound) (hplaced : Placed s kind p id u)
    (hchain : s.Chain (r.missing n.outer) chain) :
    ∃ target, ((p.path? kind s).bind r.at? = some id ∧ target = [] ∨
        (p.path? kind s).bind r.at? = none ∧
          target = [⟨id, kind, p.leaf, p.path? kind s, p.owner⟩]) ∧
      u.census = s.census ++ target ∧ ((chain ++ target).map (·.owner)).Nodup := by
  rcases h.was_or_came hr hplaced with ⟨rfl, path, hpath, hat⟩ | ⟨_, hnone, hc⟩
  · refine ⟨[], Or.inl ⟨by rw [hpath]; exact hat, rfl⟩, (List.append_nil _).symm, ?_⟩
    rw [List.append_nil]
    exact hchain.owners
  · exact ⟨_, Or.inr ⟨hnone, rfl⟩, hc, h.nodup_owners hchain rfl⟩

end Placement.Below

/-! ## What is left after a declaration -/

namespace Registry

open RegistryM

/-- Interning and declaring write to the entity that they give and to nobody else. What is new are the
namespaces that were missing on the way, with nothing written to them, and after them the entity
itself, unless it had its path before. An owner gets one new child at most, and whoever the name goes
through stays as it was otherwise. -/
theorem Reachable.touches_target (hr : r.Reachable)
    (hop : op.declared? = some (scope, name, kind)) (hrun : op.program r = .ok [id] t) :
    ∃ n p s chain target, DeclaredName.read? name = some n ∧ resolve scope name r = .ok p s ∧
      t.Chain (r.missing n.outer) chain ∧
      ((p.path? kind s).bind r.at? = some id ∧ target = [] ∨
        (p.path? kind s).bind r.at? = none ∧
          target = [⟨id, kind, p.leaf, p.path? kind s, p.owner⟩]) ∧
      r.Gains (chain ++ target) (some id) t ∧ (∀ i ∈ chain, i.id ≠ id) ∧
      (∀ j, members (chain ++ target) j = [] ∨
        ∃ i ∈ chain ++ target, i.owner = some j ∧ members (chain ++ target) j = [i.id]) ∧
      ∀ ns, ns <+: n.outer → ∀ j e, r.get? j = some e →
        e.path = some (nameSeparator.intercalate ns) →
        ∃ e', t.get? j = some e' ∧ e'.kind = e.kind ∧ SameContent e e' := by
  have h := hr.sound
  rw [Operation.program_eq hop] at hrun
  obtain ⟨id', u, hin, hfinish⟩ := exists_of_bind_eq_ok hrun
  obtain ⟨p, s, hres, hplace⟩ := exists_of_bind_eq_ok hin
  obtain ⟨n, o, hn, hbelow⟩ := exists_below h hres
  obtain ⟨hgrows, hpath, chain, hc, hchain⟩ := hbelow.built
  have hs := hgrows.evolves.sound h
  have hplaced := (ends_place hs hbelow.fits).of_ok hplace
  obtain ⟨e, he⟩ := hplaced.live hs
  obtain ⟨t', hfinish', _, hev⟩ := op.run_finish id' u
  cases hfinish.symm.trans hfinish'
  obtain ⟨target, htarget, hcu, hnodup⟩ := hbelow.exists_target h hplaced hchain
  have hcensus : u.census = r.census ++ (chain ++ target) := by rw [hcu, hc, List.append_assoc]
  have hru : r.Grows u := hgrows.trans hplaced.grows
  have hgains := Operation.gains_finish (hru.gains h hcensus) he hfinish
  refine ⟨n, p, s, chain, target, hn, hres, hchain.evolves (hplaced.grows.evolves.trans hev),
    htarget, hgains, fun i => hbelow.id_ne h hplaced hc, members_of_nodup_owners hnodup, ?_⟩
  intro ns hns j e hj hpath
  obtain ⟨e', he', hi, _, hsame⟩ := hgains.kept j e hj
  have hne : j ≠ id := by
    rintro rfl
    exact hbelow.not_hasPath h hplaced hns ⟨e, hj, hpath⟩
  exact ⟨e', he', congrArg Identity.kind hi, hsame fun heq => hne (Option.some.inj heq).symm⟩

/-- A routine is declared in a namespace that is made for it, and there is a type already whose name
gives it the same path. Both stand in a type that has documentation. -/
theorem touches_target_of_type_in_the_way :
    ∃ r t : Registry,
      r = (create .latestDocumented 1).run
        [.declare { scope := .root, name := ['A'], kind := .type, site := ⟨['f'], 1⟩,
                    docstring := some ['x'] },
          .intern .root ['A', ':', ':', 'B', '#', 'b'] .type] ∧
      (Operation.declare { scope := .root, name := ['A', ':', ':', 'B', ':', ':', 'b'],
                           kind := .instanceRoutine, site := ⟨['f'], 2⟩ }).program r =
        .ok [⟨1, 2⟩] t ∧
      ∃ chain, t.Chain [[['A'], ['B']]] chain ∧ r.Gains chain (some ⟨1, 2⟩) t ∧
        ∃ e e', r.get? ⟨1, 1⟩ = some e ∧ e.attributes.docstring = .read ['x'] ∧
          t.get? ⟨1, 1⟩ = some e' ∧ e'.kind = e.kind ∧ SameContent e e' := by
  have hr := (Reachable.create .latestDocumented 1).run
    [.declare { scope := .root, name := ['A'], kind := .type, site := ⟨['f'], 1⟩,
                docstring := some ['x'] },
      .intern .root ['A', ':', ':', 'B', '#', 'b'] .type]
  have hop : (Operation.declare { scope := .root, name := ['A', ':', ':', 'B', ':', ':', 'b'],
                                  kind := .instanceRoutine, site := ⟨['f'], 2⟩ }).declared? =
      some (.root, ['A', ':', ':', 'B', ':', ':', 'b'], .instanceRoutine) := rfl
  refine ⟨_, _, rfl, rfl, ?_⟩
  obtain ⟨n, p, s, chain, target, hn, hres, hchain, htarget, hgains, _, _, hkept⟩ :=
    Reachable.touches_target hr hop rfl
  cases hn
  cases hres
  rcases htarget with ⟨_, rfl⟩ | ⟨hnone, _⟩
  · rw [List.append_nil] at hgains
    obtain ⟨e', he', hkind, hsame⟩ := hkept [['A']] ⟨[['B']], rfl⟩ ⟨1, 1⟩ _ rfl rfl
    exact ⟨chain, hchain, hgains, _, e', rfl, rfl, he', hkind, hsame⟩
  · cases hnone

end Registry

end CodeCatalog
