import Mathlib.Data.List.Forall2
import Mathlib.Data.List.Infix
import CodeCatalog.Proofs.Registry.Repeating

/-!
# What is added

What a registry holds after it has grown, and that a name makes exactly the namespaces that are
missing on its way.
-/
namespace CodeCatalog

namespace Registry

variable {r s : Registry} {is : List Identity} {i : Identity} {id j : EntityId} {e : Entity}
  {written : Option EntityId}

/-! ## Growth, entity by entity -/

/-- Entities have been added, and besides at most `written` has been written to. Whoever was there is
the same but for its new children, and whoever came has its place and its children only. -/
structure Gains (r : Registry) (is : List Identity) (written : Option EntityId) (s : Registry) :
    Prop where
  generation : s.generation = r.generation
  policy : s.policy = r.policy
  census : s.census = r.census ++ is
  entries : s.table.entries =
    r.table.entries ++ is.filterMap fun i => i.path.map fun p => (p, i.id)
  kept : ∀ j e, r.get? j = some e → ∃ e', s.get? j = some e' ∧ e'.identity = e.identity ∧
    e'.children = e.children ++ members is j ∧ (written ≠ some j → SameContent e e')
  came : ∀ i ∈ is, ∃ e, s.get? i.id = some e ∧ e.identity = i ∧ e.children = members is i.id ∧
    (written ≠ some i.id → Blank r.policy e)

/-- Whoever is new in a census has a handle that was dead. -/
theorem Sound.get?_of_came (hs : s.Sound) (hc : s.census = r.census ++ is) (hi : i ∈ is) :
    r.get? i.id = none := by
  obtain ⟨k, hk⟩ := List.getElem?_of_mem hi
  have hk' : s.census[r.census.length + k]? = some i := by
    rw [hc, List.getElem?_append_right (Nat.le_add_right _ _), Nat.add_sub_cancel_left]
    exact hk
  rw [hs.census.id_eq hk', get?]
  split
  · exact Array.getElem?_eq_none (by simp)
  · rfl

theorem Grows.gains (h : r.Grows s) (hr : r.Sound) (hc : s.census = r.census ++ is) :
    r.Gains is none s := by
  have hs : s.Sound := h.evolves.sound hr
  constructor
  case generation => exact h.evolves.generation
  case policy => exact h.evolves.policy
  case census => exact hc
  case entries => rw [hs.table, hc, registrations_append hr.census.ne_nil, ← hr.table]
  case kept =>
    intro j e he
    obtain ⟨e', he', hi⟩ := h.evolves.exists_get? he
    refine ⟨e', he', hi, ?_, fun _ => ?_⟩
    · rw [hs.children j e' he', hc, members_append, ← hr.children j e he]
    · rcases h.content hr he' with ⟨e₀, he₀, hsame⟩ | ⟨hnone, _⟩
      · cases he.symm.trans he₀
        exact hsame
      · cases he.symm.trans hnone
  case came =>
    intro i hi
    obtain ⟨e, he, rfl⟩ := hs.exists_get? (hc ▸ List.mem_append_right _ hi)
    have hnone : r.get? e.identity.id = none := hs.get?_of_came hc hi
    refine ⟨e, he, rfl, ?_, fun _ => ?_⟩
    · rw [hs.children _ e he, hc, members_append, hr.members_of_dead hnone, List.nil_append]
    · rcases h.content hr he with ⟨e₀, he₀, _⟩ | ⟨_, hblank⟩
      · cases hnone.symm.trans he₀
      · exact hblank

/-! ## Missing namespaces -/

/-- The first names and ever more of them, as far as nobody has their path. -/
def missing (r : Registry) (names : List Text) : List (List Text) :=
  names.inits.tail.filter fun ns => (r.at? (nameSeparator.intercalate ns)).isNone

/-- A namespace stands where names lead, in whoever has the path of all but the last of them. -/
structure Joins (s : Registry) (ns : List Text) (i : Identity) : Prop where
  kind : i.kind = .ns
  name : ns.getLast? = some i.name
  path : i.path = some (nameSeparator.intercalate ns)
  owner : ∃ o, i.owner = some o ∧ s.HasPath o (nameSeparator.intercalate ns.dropLast)

/-- One namespace for each of the lists of names, in their order, and no two of them in one owner. -/
structure Chain (s : Registry) (nss : List (List Text)) (is : List Identity) : Prop where
  joins : List.Forall₂ s.Joins nss is
  owners : (is.map (·.owner)).Nodup

/-- From the root names have led to `id`, and what was missing on the way has been made. -/
structure Built (r : Registry) (names : List Text) (id : EntityId) (s : Registry) : Prop where
  grows : r.Grows s
  hasPath : s.HasPath id (nameSeparator.intercalate names)
  chain : ∃ is, s.census = r.census ++ is ∧ s.Chain (r.missing names) is

variable {t : Registry} {names ns : List Text} {n : Text} {nss : List (List Text)}

theorem missing_concat (r : Registry) (names : List Text) (n : Text) :
    r.missing (names ++ [n]) = r.missing names ++
      if (r.at? (nameSeparator.intercalate (names ++ [n]))).isNone then [names ++ [n]] else [] := by
  have hinits : (names ++ [n]).inits = names.inits ++ [names ++ [n]] := by
    rw [List.inits_append]
    rfl
  have hne : names.inits ≠ [] := List.ne_nil_of_length_pos (by simp)
  unfold missing
  rw [hinits, List.tail_append_of_ne_nil hne, List.filter_append]
  congr 1
  simp only [List.filter_cons, List.filter_nil]

theorem prefix_of_mem_missing (h : ns ∈ r.missing names) : ns <+: names :=
  (List.mem_inits _ _).mp (List.mem_of_mem_tail (List.mem_filter.mp h).1)

theorem Joins.evolves (h : s.Joins ns i) (hst : s.Evolves t) : t.Joins ns i where
  kind := h.kind
  name := h.name
  path := h.path
  owner := by
    obtain ⟨o, ho, hp⟩ := h.owner
    exact ⟨o, ho, hst.hasPath hp⟩

theorem Joins.eq_concat (h : s.Joins ns i) : ns = ns.dropLast ++ [i.name] :=
  (List.dropLast_append_getLast? _ h.name).symm

namespace Chain

theorem evolves (h : s.Chain nss is) (hst : s.Evolves t) : t.Chain nss is where
  joins := h.joins.imp fun _ _ hi => hi.evolves hst
  owners := h.owners

theorem exists_joins (h : s.Chain nss is) (hi : i ∈ is) : ∃ ns ∈ nss, s.Joins ns i := by
  obtain ⟨k, hk, rfl⟩ := List.getElem_of_mem hi
  have hk' : k < nss.length := by rwa [h.joins.length_eq]
  exact ⟨nss[k], List.getElem_mem hk', h.joins.get hk' hk⟩

theorem concat (h : s.Chain nss is) (hi : s.Joins ns i) (ho : ∀ j ∈ is, j.owner ≠ i.owner) :
    s.Chain (nss ++ [ns]) (is ++ [i]) where
  joins := List.rel_append h.joins (.cons hi .nil)
  owners := by
    rw [List.map_append, List.map_singleton, List.nodup_append]
    refine ⟨h.owners, List.nodup_singleton _, ?_⟩
    simpa using ho

/-- The owners stand above whoever the names lead to. -/
theorem owner_ne (h : s.Chain nss is) (hns : ∀ ns ∈ nss, ns <+: names) (hn : ∀ n ∈ names, n ≠ [])
    (hid : s.HasPath id (nameSeparator.intercalate names)) (hi : i ∈ is) : i.owner ≠ some id := by
  obtain ⟨ns, hmem, hjoins⟩ := h.exists_joins hi
  obtain ⟨o, ho, hpath⟩ := hjoins.owner
  intro howner
  cases ho.symm.trans howner
  have hpre := hns ns hmem
  have hparts : ∀ m ∈ ns.dropLast ++ [i.name], m ≠ [] :=
    hjoins.eq_concat ▸ fun m hm => hn m (hpre.subset hm)
  have hlt := Path.length_intercalate_lt hparts (List.prefix_refl _)
  rw [← hjoins.eq_concat, hpath.eq_of_eq hid] at hlt
  exact Nat.not_le_of_lt hlt (Path.length_intercalate_le hn hpre)

end Chain

namespace Built

theorem nil (hr : r.Sound) : r.Built [] r.rootId r :=
  ⟨.refl, hr.hasPath_root, [], (List.append_nil _).symm, .nil, .nil⟩

theorem size_eq (h : r.Built names id s) :
    s.arena.size = r.arena.size + (r.missing names).length := by
  obtain ⟨is, hc, hchain⟩ := h.chain
  rw [← length_census, ← length_census, hc, List.length_append, hchain.joins.length_eq]

/-- What has been made on the way does not take a longer path. -/
theorem at?_eq {path : Text} (h : r.Built names id s) (hr : r.Sound) (hn : ∀ m ∈ names, m ≠ [])
    (hlt : (nameSeparator.intercalate names).length < path.length) : s.at? path = r.at? path := by
  cases hat : r.at? path with
  | some j => exact h.grows.evolves.at?_eq hr hat
  | none =>
      by_contra hne
      obtain ⟨j, hj⟩ := Option.ne_none_iff_exists'.mp hne
      obtain ⟨_, e, he, hp⟩ := (h.grows.evolves.sound hr).at?_eq_some_iff.mp hj
      obtain ⟨is, hc, hchain⟩ := h.chain
      -- Whoever has the path now was there before, or stands on the way and has a shorter one.
      have hmem := mem_census he
      rw [hc] at hmem
      rcases List.mem_append.mp hmem with hmem | hmem
      · obtain ⟨e', he', hi⟩ := hr.exists_get? hmem
        have hpath : r.HasPath e.identity.id path := ⟨e', he', (congrArg Identity.path hi).trans hp⟩
        have hsome := hr.at?_of_hasPath hpath (List.ne_nil_of_length_pos (Nat.zero_lt_of_lt hlt))
        cases hat.symm.trans hsome
      · obtain ⟨ns, hns, hjoins⟩ := hchain.exists_joins hmem
        cases hjoins.path.symm.trans hp
        exact Nat.not_le_of_lt hlt (Path.length_intercalate_le hn (prefix_of_mem_missing hns))

theorem at?_concat (h : r.Built names id s) (hr : r.Sound) (hn : ∀ m ∈ names ++ [n], m ≠ []) :
    s.at? (nameSeparator.intercalate (names ++ [n])) =
      r.at? (nameSeparator.intercalate (names ++ [n])) :=
  h.at?_eq hr (fun m hm => hn m (List.mem_append_left _ hm))
    (Path.length_intercalate_lt hn (List.prefix_refl _))

theorem old (h : r.Built names id s) (hr : r.Sound)
    (hat : r.at? (nameSeparator.intercalate (names ++ [n])) = some j) :
    r.Built (names ++ [n]) j s where
  grows := h.grows
  hasPath := h.grows.evolves.hasPath (hr.hasPath_of_at? hat)
  chain := by
    rw [missing_concat, hat]
    simpa using h.chain

theorem new {path : Text} (h : r.Built names id s) (hr : r.Sound)
    (hn : ∀ m ∈ names ++ [n], m ≠ []) (hpath : nameSeparator.intercalate (names ++ [n]) = path)
    (room : s.arena.size < RegistryM.capacity) (hat : r.at? path = none) :
    r.Built (names ++ [n]) s.nextId (s.add (s.newEntity .ns n (some path) (some id))) := by
  have hs : s.Sound := h.grows.evolves.sound hr
  have ha : Admissible s.generation s.census ⟨s.nextId, .ns, n, some path, some id⟩ := by
    have hfree := h.at?_concat hr hn
    rw [hpath, hat, ← hpath, ← Path.member_intercalate hn] at hfree
    rw [← hpath, ← Path.member_intercalate hn]
    exact RegistryM.admissible_inside hs h.hasPath (hn n (by simp)) hfree
  have hgrows : s.Grows (s.add (s.newEntity .ns n (some path) (some id))) := .single ⟨room, ha⟩
  obtain ⟨is, hc, hchain⟩ := h.chain
  have howner : ∀ i ∈ is, i.owner ≠ some id := fun i hi =>
    hchain.owner_ne (fun _ => prefix_of_mem_missing) (fun m hm => hn m (by simp [hm])) h.hasPath hi
  have hjoins : Joins (s.add (s.newEntity .ns n (some path) (some id))) (names ++ [n])
      ⟨s.nextId, .ns, n, some path, some id⟩ := by
    refine ⟨rfl, List.getLast?_concat, congrArg some hpath.symm, id, rfl, ?_⟩
    rw [List.dropLast_concat]
    exact hgrows.evolves.hasPath h.hasPath
  refine ⟨h.grows.trans hgrows, ⟨_, hs.get?_add_nextId ha, congrArg some hpath.symm⟩,
    is ++ [⟨s.nextId, .ns, n, some path, some id⟩], ?_, ?_⟩
  · rw [census_add, hc, identity_newEntity, List.append_assoc]
  · rw [missing_concat, hpath, hat]
    exact (hchain.evolves hgrows.evolves).concat hjoins howner

end Built

end Registry

/-! ## Resolving through namespaces -/

open Registry

variable {r s : Registry} {scope : Scope} {name : Text} {names : List Text} {n : DeclaredName}
  {p : Placement} {o : EntityId} {q : Text}

/-- What stands in a registered owner is registered, unless it is declared in no namespace. -/
theorem Placement.under_eq (h : s.HasPath o q) (scope : Scope) (n : DeclaredName) :
    under scope n (some o) s = ⟨some o, n.leaf, scope ≠ .detached⟩ := by
  obtain ⟨e, he, hq⟩ := h
  simp [under, he, Entity.isRegistered, hq]

namespace RegistryM

theorem ensureNamespaces_concat (o : EntityId) (names : List Text) (n : Text) :
    ensureNamespaces o (names ++ [n]) =
      ensureNamespaces o names >>= fun id => ensureNamespace id n := by
  induction names generalizing o with
  | nil => simp [ensureNamespaces]
  | cons m names ih => simp [ensureNamespaces, ih]

/-- The namespaces that names go through are all there in the end, unless there is no room for those
that are missing. -/
theorem ends_ensureNamespaces_built (hr : r.Sound) (hn : ∀ n ∈ names, n ≠ []) :
    (ensureNamespaces r.rootId names).Ends r (r.Built names)
      (fun _ _ => capacity < r.arena.size + (r.missing names).length) := by
  induction names using List.reverseRecOn with
  | nil => exact .nil hr
  | append_singleton names n ih =>
      rw [ensureNamespaces_concat]
      refine ((ih fun m hm => hn m (by simp [hm])).mono (fun _ _ h => h) ?_).bind ?_
      · intro e s hlt
        rw [missing_concat, List.length_append]
        omega
      · intro id s h
        unfold Ends
        -- The table of `r` decides, as nothing that has been made so far has the path.
        rw [run_ensureNamespace, h.hasPath.pathOf_eq, Path.member_intercalate hn,
          h.at?_concat hr hn]
        cases hat : r.at? (nameSeparator.intercalate (names ++ [n])) with
        | some j => exact h.old hr hat
        | none =>
            refine (ends_allocate s _ _ _ _).mono ?_ ?_
            · rintro _ _ ⟨rfl, rfl, room⟩
              exact h.new hr hn rfl room hat
            · rintro e _ ⟨rfl, _, hfull⟩
              rw [missing_concat, hat, List.length_append, ← Nat.add_assoc, ← h.size_eq]
              exact Nat.lt_succ_of_le hfull

theorem resolve_of_built (hl : scope.Live r) (hn : DeclaredName.read? name = some n)
    (houter : n.outer ≠ []) (hrun : ensureNamespaces r.rootId n.outer r = .ok o s)
    (hs : s.HasPath o q) : resolve scope name r = .ok ⟨some o, n.leaf, scope ≠ .detached⟩ s := by
  have ho : findOwner scope n r = .ok (some o) s := by
    rw [run_findOwner, if_pos houter, run_bind, hrun]
    rfl
  rw [run_resolve hl hn ho, Placement.under_eq hs]

theorem exists_of_resolve_outer (hres : resolve scope name r = .ok p s)
    (hn : DeclaredName.read? name = some n) (houter : n.outer ≠ []) :
    ∃ o, ensureNamespaces r.rootId n.outer r = .ok o s ∧ p.owner = some o := by
  obtain ⟨_, n', owner, hn', ho, rfl⟩ := exists_of_resolve_eq_ok hres
  cases hn.symm.trans hn'
  rw [run_findOwner, if_pos houter] at ho
  obtain ⟨o, s', hens, hret⟩ := exists_of_bind_eq_ok ho
  cases hret
  exact ⟨o, hens, rfl⟩

end RegistryM

namespace Registry

open RegistryM

/-- A name that goes through namespaces leads to the one whose path joins them, in every live scope and
whatever stands after them, if there is room for those that are missing. These are made, each of them
in the one before, and nothing else changes. Any other name is resolved without a change. -/
theorem Reachable.builds_missing (hr : r.Reachable) (hl : scope.Live r)
    (hn : DeclaredName.read? name = some n) :
    (n.outer ≠ [] →
      ((∃ p s, resolve scope name r = .ok p s) ↔
        r.arena.size + (r.missing n.outer).length ≤ capacity) ∧
      ∀ p s, resolve scope name r = .ok p s → ∃ o is,
        p = ⟨some o, n.leaf, scope ≠ .detached⟩ ∧
        s.HasPath o (nameSeparator.intercalate n.outer) ∧
        s.Chain (r.missing n.outer) is ∧ r.Gains is none s ∧
        ∀ scope' name' n', scope'.Live r → DeclaredName.read? name' = some n' → n'.outer = n.outer →
          resolve scope' name' r = .ok ⟨some o, n'.leaf, scope' ≠ .detached⟩ s) ∧
    (n.outer = [] → ∃ p, resolve scope name r = .ok p r ∧ p.leaf = n.leaf ∧
      p.owner = if n.anchored then some r.rootId else scope.entity r) := by
  have h := hr.sound
  have hends := ends_ensureNamespaces_built h (DeclaredName.parts_ne_nil hn).2
  refine ⟨fun houter => ⟨⟨?_, ?_⟩, ?_⟩, ?_⟩
  · rintro ⟨p, s, hres⟩
    obtain ⟨o, hens, _⟩ := exists_of_resolve_outer hres hn houter
    have hbuilt := hends.of_ok hens
    rw [← hbuilt.size_eq]
    exact hbuilt.grows.evolves.size_le_capacity hr.size_le_capacity
  · intro hroom
    cases hens : ensureNamespaces r.rootId n.outer r with
    | ok o s => exact ⟨_, s, resolve_of_built hl hn houter hens (hends.of_ok hens).hasPath⟩
    | error e s => exact absurd (hends.of_error hens) (Nat.not_lt_of_le hroom)
  · intro p s hres
    obtain ⟨o, hens, _⟩ := exists_of_resolve_outer hres hn houter
    obtain ⟨hgrows, hpath, is, hc, hchain⟩ := hends.of_ok hens
    have hplace := resolve_of_built hl hn houter hens hpath
    cases hres.symm.trans hplace
    refine ⟨o, is, rfl, hpath, hchain, hgrows.gains h hc, ?_⟩
    intro scope' name' n' hl' hn' heq
    exact resolve_of_built hl' hn' (heq ▸ houter) (heq ▸ hens) hpath
  · intro houter
    refine ⟨.under scope n (if n.anchored then some r.rootId else scope.entity r) r,
      run_resolve hl hn ?_, rfl, rfl⟩
    rw [run_findOwner, if_neg fun hne => hne houter]

/-- Of three namespaces the one in the middle is there, in another one than that which is made before
it. -/
theorem builds_missing_of_foreign_middle :
    ∃ r s : Registry,
      r = (create .latestDocumented 1).run
        [.intern .root ['A', ':'] .ns, .intern (.within ⟨1, 1⟩) ['B'] .type] ∧
      r.missing [['A'], [':', 'B'], ['D']] = [[['A']], [['A'], [':', 'B'], ['D']]] ∧
      resolve (.within ⟨1, 1⟩) ['A', ':', ':', ':', 'B', ':', ':', 'D', ':', ':', 'c'] r =
        .ok ⟨some ⟨1, 4⟩, ['c'], true⟩ s ∧
      s.HasPath ⟨1, 4⟩ ['A', ':', ':', ':', 'B', ':', ':', 'D'] ∧
      ∃ is, s.Chain [[['A']], [['A'], [':', 'B'], ['D']]] is ∧ r.Gains is none s := by
  have hr := (Reachable.create .latestDocumented 1).run
    [.intern .root ['A', ':'] .ns, .intern (.within ⟨1, 1⟩) ['B'] .type]
  have hl : (Scope.within ⟨1, 1⟩).Live ((create .latestDocumented 1).run
      [.intern .root ['A', ':'] .ns, .intern (.within ⟨1, 1⟩) ['B'] .type]) := by
    rintro _ ⟨⟩
    rfl
  have hn : DeclaredName.read? ['A', ':', ':', ':', 'B', ':', ':', 'D', ':', ':', 'c'] =
      some ⟨false, [['A'], [':', 'B'], ['D']], ['c']⟩ := rfl
  refine ⟨_, _, rfl, rfl, rfl, ?_⟩
  obtain ⟨o, is, hp, hpath, hchain, hgains, _⟩ :=
    ((Reachable.builds_missing hr hl hn).1 (by simp)).2 _ _ rfl
  cases hp
  exact ⟨hpath, is, hchain, hgains⟩

end Registry

end CodeCatalog
