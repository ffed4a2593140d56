import CodeCatalog.Proofs.Registry.Identifying
import CodeCatalog.Proofs.Registry.Table
import CodeCatalog.Proofs.Session.Generations

/-!
# Who is registered

An entity is registered if it is declared in a namespace and what contains it is registered. Any other
one is new, and until the registry is reset no path leads to it, nor to what is declared in it.
-/
namespace CodeCatalog

open Registry Relation

/-- What contains an entity that is declared: the last of the outer parts, the root for an anchored
name without such parts, and otherwise what the scope names. -/
def Scope.owner? (scope : Scope) (n : DeclaredName) (r : Registry) : Option EntityId :=
  if n.outer ≠ [] then r.at? (nameSeparator.intercalate n.outer)
  else if n.anchored then some r.rootId
  else scope.entity r

/-- Whether an operation gives the entities that are declared. -/
def Operation.Declares (op : Operation) : Prop :=
  op.declared?.isSome ∨ ∃ ds, op = .declareAll ds

variable {r s t : Registry} {scope : Scope} {name : Text} {kind : EntityKind} {p : Placement}
  {o c id : EntityId} {ids : List EntityId} {e : Entity} {op : Operation}

/-! ## Entities without a path -/

namespace Registry

/-- A live entity that is not registered. -/
def Unlisted (r : Registry) (id : EntityId) : Prop :=
  ∃ e, r.get? id = some e ∧ e.path = none

theorem Evolves.unlisted (h : r.Evolves s) (hid : r.Unlisted id) : s.Unlisted id := by
  obtain ⟨e, he, hp⟩ := hid
  obtain ⟨e', he', hi⟩ := h.exists_get? he
  exact ⟨e', he', (congrArg Identity.path hi).trans hp⟩

theorem Unlisted.not_hasPath (h : r.Unlisted id) (path : Text) : ¬ r.HasPath id path := by
  obtain ⟨e, he, hnone⟩ := h
  rintro ⟨e', he', hp⟩
  simp_all

/-- Whoever is in an entity that is not registered is not registered either. -/
theorem Unlisted.of_contains (h : r.Unlisted o) (hr : r.Sound) (hc : r.Contains o c) :
    r.Unlisted c := by
  obtain ⟨e, he, ho⟩ := hc
  refine ⟨e, he, ?_⟩
  cases hp : e.path with
  | none => rfl
  | some path =>
      have hne : c ≠ r.rootId := by
        rintro rfl
        obtain ⟨root, hroot, hi⟩ := hr.get?_root
        have hnone : root.owner = none := congrArg Identity.owner hi
        simp_all
      obtain ⟨o', q, ho', hq, _⟩ := hr.owner_of_path he hp hne
      rw [ho, Option.some.injEq] at ho'
      exact absurd (ho' ▸ hq) (h.not_hasPath q)

theorem Unlisted.of_reflTransGen (h : r.Unlisted o) (hr : r.Sound)
    (hc : ReflTransGen r.Contains o c) : r.Unlisted c := by
  induction hc with
  | refl => exact h
  | tail _ hbc ih => exact ih.of_contains hr hbc

theorem Unlisted.at?_ne (h : r.Unlisted id) (hr : r.Sound) (path : Text) :
    r.at? path ≠ some id :=
  fun hat => h.not_hasPath path (hr.hasPath_of_at? hat)

end Registry

/-! ## What a declaration gives -/

/-- Without a path to look up a new entity is made. -/
theorem Placed.new_of_path?_eq_none (h : Placed s kind p id t) (hs : s.Sound)
    (hp : p.path? kind s = none) :
    s.contains id = false ∧ ∃ e, t.get? id = some e ∧ e.path = none ∧ e.owner = p.owner := by
  cases h with
  | old hp' _ => rw [hp] at hp'; cases hp'
  | new ha _ _ =>
      refine ⟨by simp [contains, get?, nextId], _, hs.get?_add_nextId ha, ?_, rfl⟩
      rw [hp]
      rfl

theorem Placement.path?_eq_none_iff (hp : p.Fits s) :
    p.path? kind s = none ↔ p.registers = false := by
  cases hreg : p.registers with
  | false => simp [path?, hreg]
  | true =>
      obtain ⟨o, q, ho, _⟩ := hp.registers hreg
      simp [path?, hreg, ho]

namespace RegistryM

/-- An entity that is not registered is not what a later declaration means. -/
theorem intern_ne_of_unlisted (hr : r.Sound) (h : r.Unlisted c)
    (hin : intern scope name kind r = .ok id t) : id ≠ c := by
  rintro rfl
  obtain ⟨p, s, hp, hplaced⟩ := (ends_intern hr scope name kind).of_ok hin
  have hs := hp.grows.evolves.sound hr
  have hid : s.Unlisted id := hp.grows.evolves.unlisted h
  cases hplaced with
  | old _ hat => exact hid.at?_ne hs _ hat
  | new _ _ _ =>
      obtain ⟨e, he, _⟩ := hid
      simp [get?, nextId] at he

theorem declareAll_not_mem_of_unlisted {ds : List Declaration} (hr : r.Sound) (h : r.Unlisted c)
    (hrun : declareAll ds r = .ok ids t) : c ∉ ids := by
  have htakes := declareAll_eq_ok_iff.mp hrun
  clear hrun
  induction htakes with
  | nil => exact List.not_mem_nil
  | cons hd _ ih =>
      obtain ⟨id', s', hin, hmerge⟩ := exists_of_bind_eq_ok hd
      cases hmerge
      have hrs := (evolving_declare _ _ hr).of_ok hd
      have hne := intern_ne_of_unlisted hr h hin
      have htail := ih (hrs.sound hr) (hrs.unlisted h)
      simp [hne.symm, htail]

end RegistryM

namespace Operation

theorem not_mem_of_unlisted (hr : r.Sound) (h : r.Unlisted c) (hop : op.Declares)
    (hrun : op.program r = .ok ids t) : c ∉ ids := by
  rcases hop with hop | ⟨ds, rfl⟩
  · obtain ⟨⟨scope, name, kind⟩, hop⟩ := Option.isSome_iff_exists.mp hop
    obtain ⟨id, s, rfl, hin, _⟩ := exists_intern hop hrun
    simpa using (RegistryM.intern_ne_of_unlisted hr h hin).symm
  · exact RegistryM.declareAll_not_mem_of_unlisted hr h hrun

end Operation

/-- The owner that is found is the one that name and scope say, also later on. -/
theorem OwnerFound.eq_owner? {n : DeclaredName} {owner : Option EntityId}
    (h : OwnerFound r scope n owner s) (hs : s.Sound) (hn : ∀ l ∈ n.outer, l ≠ [])
    (hst : s.Evolves t) : scope.owner? n t = owner := by
  unfold Scope.owner?
  rcases h with ⟨houter, o, rfl, ho⟩ | ⟨houter, rfl, rfl⟩
  · rw [if_pos houter]
    exact (hst.sound hs).at?_of_hasPath (hst.hasPath ho)
      fun hnil => houter ((Path.intercalate_eq_nil_iff hn).mp hnil)
  · cases scope <;> simp [houter, hst.rootId_eq, Scope.entity]

/-! ## Out of reach -/

namespace Registry

/-- Whatever is done but a reset, an entity stays without a path, none leads to it, and no declaration
gives it. -/
structure Loose (r : Registry) (id : EntityId) : Prop where
  path : ∀ ops, ∃ e, (r.run ops).get? id = some e ∧ e.path = none
  at? : ∀ ops path, (r.run ops).at? path ≠ some id
  lookup? : ∀ ops path e, (r.run ops).lookup? path = some e → e.id ≠ id
  entities : ∀ ops, ∀ e ∈ (r.run ops).entities, e.id ≠ id
  declared : ∀ ops (op : Operation) ids t, op.Declares →
    op.program (r.run ops) = .ok ids t → id ∉ ids

/-- Whatever is declared in an entity by a plain name is new, and it is loose as well. -/
def TakesLoose (r : Registry) (o : EntityId) : Prop :=
  ∀ (op : Operation) name kind n ids t, op.declared? = some (.within o, name, kind) →
    DeclaredName.read? name = some n → n.outer = [] → n.anchored = false →
    op.program r = .ok ids t →
    ∃ id, ids = [id] ∧ r.contains id = false ∧ t.Contains o id ∧ t.Loose id

theorem Unlisted.loose (h : r.Unlisted id) (hr : r.Sound) : r.Loose id := by
  have hrun : ∀ ops, (r.run ops).Sound ∧ (r.run ops).Unlisted id := by
    intro ops
    have hev := evolves_run hr ops
    exact ⟨hev.sound hr, hev.unlisted h⟩
  constructor
  case path => exact fun ops => (hrun ops).2
  case at? => exact fun ops => (hrun ops).2.at?_ne (hrun ops).1
  case lookup? =>
    rintro ops path e he rfl
    obtain ⟨c, hat, hc⟩ := Option.bind_eq_some_iff.mp he
    rw [(hrun ops).1.id_eq hc] at hrun
    exact (hrun ops).2.at?_ne (hrun ops).1 path hat
  case entities =>
    rintro ops e he rfl
    obtain ⟨hget, _, hreg⟩ := (hrun ops).1.mem_entities_iff.mp he
    obtain ⟨path, hp⟩ := Option.isSome_iff_exists.mp hreg
    exact (hrun ops).2.not_hasPath path ⟨e, hget, hp⟩
  case declared =>
    exact fun ops op ids t hop ht => Operation.not_mem_of_unlisted (hrun ops).1 (hrun ops).2 hop ht

end Registry

/-- What a declaration that succeeds gives: one entity, which is registered exactly if the declaration
is in a namespace and the owner is registered; otherwise it is new, and has no path. -/
theorem Operation.gates (hr : r.Sound) (hop : op.declared? = some (scope, name, kind))
    (hrun : op.program r = .ok ids t) :
    ∃ id n p s e, ids = [id] ∧ DeclaredName.read? name = some n ∧
      RegistryM.resolve scope name r = .ok p s ∧ t.get? id = some e ∧
      (e.isRegistered = true ↔ scope ≠ .detached ∧
        ∃ o eo, scope.owner? n t = some o ∧ t.get? o = some eo ∧ eo.isRegistered = true) ∧
      (e.isRegistered = false → s.contains id = false ∧ e.owner = scope.owner? n t) := by
  obtain ⟨id, u, rfl, hin, hut⟩ := exists_intern hop hrun
  obtain ⟨p, s, hres, hplace⟩ : ∃ p s, RegistryM.resolve scope name r = .ok p s ∧
      RegistryM.place kind p s = .ok id u := RegistryM.exists_of_bind_eq_ok hin
  have hp := (RegistryM.ends_resolve hr scope name).of_ok hres
  have hs := hp.grows.evolves.sound hr
  have hplaced := (RegistryM.ends_place hs (hp.fits hr)).of_ok hplace
  have hst : s.Evolves t := hplaced.grows.evolves.trans hut
  obtain ⟨n, hn, _, hfound⟩ := hp.found
  have howner := hfound.eq_owner? hs (DeclaredName.parts_ne_nil hn).2 hst
  obtain ⟨e₀, he₀⟩ := hplaced.live hs
  obtain ⟨e, he, hi⟩ := hut.exists_get? he₀
  have hpath : e.path = e₀.path := congrArg Identity.path hi
  -- whether the owner is registered was seen when the name had been resolved, and stays so
  have hreg : p.registers = true ↔ scope ≠ .detached ∧
      ∃ o eo, scope.owner? n t = some o ∧ t.get? o = some eo ∧ eo.isRegistered = true := by
    rw [hp.registers, howner]
    refine and_congr_right fun _ => ⟨?_, ?_⟩
    · rintro ⟨o, q, ho, hq⟩
      obtain ⟨eo, heo, hpo⟩ := hst.hasPath hq
      exact ⟨o, eo, ho, heo, Option.isSome_iff_exists.mpr ⟨q, hpo⟩⟩
    · rintro ⟨o, eo, ho, heo, hregistered⟩
      obtain ⟨q, hq⟩ := Option.isSome_iff_exists.mp hregistered
      obtain ⟨eo', heo'⟩ := (hp.fits hr).owner_live o ho
      obtain ⟨eo'', heo'', hio⟩ := hst.exists_get? heo'
      rw [heo, Option.some.injEq] at heo''
      subst heo''
      exact ⟨o, q, ho, eo', heo', (congrArg Identity.path hio).symm.trans hq⟩
  refine ⟨id, n, p, s, e, rfl, hn, hres, he, ?_, ?_⟩
  · rw [← hreg, Entity.isRegistered, hpath]
    cases hpath? : p.path? kind s with
    | none =>
        obtain ⟨_, e', he', hnone, _⟩ := hplaced.new_of_path?_eq_none hs hpath?
        rw [he₀, Option.some.injEq] at he'
        simp [he', hnone, (Placement.path?_eq_none_iff (hp.fits hr)).mp hpath?]
    | some path =>
        obtain ⟨e', he', hsome⟩ := hplaced.hasPath hs hpath?
        rw [he₀, Option.some.injEq] at he'
        simp [he', hsome, (Placement.path?_eq_some_iff.mp hpath?).1]
  · intro hno
    cases hpath? : p.path? kind s with
    | none =>
        obtain ⟨hnew, e', he', _, ho⟩ := hplaced.new_of_path?_eq_none hs hpath?
        rw [he₀, Option.some.injEq] at he'
        subst he'
        exact ⟨hnew, (congrArg Identity.owner hi).trans (ho.trans howner.symm)⟩
    | some path =>
        obtain ⟨e', he', hsome⟩ := hplaced.hasPath hs hpath?
        rw [he₀, Option.some.injEq] at he'
        simp [Entity.isRegistered, hpath, he', hsome] at hno

namespace Registry

theorem Unlisted.takesLoose (h : r.Unlisted o) (hr : r.Sound) : r.TakesLoose o := by
  intro op name kind n ids t hop hn houter hanchor hrun
  obtain ⟨id, n', p, s, e, rfl, hn', hres, he, hreg, hloose⟩ := op.gates hr hop hrun
  cases hn.symm.trans hn'
  have howner : (Scope.within o).owner? n t = some o := by
    simp [Scope.owner?, houter, hanchor, Scope.entity]
  have hev := Operation.evolves_of_ok hr hrun
  have hto := hev.unlisted h
  have hno : e.isRegistered = false := by
    rw [← Bool.not_eq_true, hreg, howner]
    rintro ⟨_, o', eo, ⟨⟩, heo, hregistered⟩
    obtain ⟨q, hq⟩ := Option.isSome_iff_exists.mp hregistered
    exact hto.not_hasPath q ⟨eo, heo, hq⟩
  obtain ⟨hnew, heowner⟩ := hloose hno
  have hcontains : t.Contains o id := ⟨e, he, heowner.trans howner⟩
  refine ⟨id, rfl, ?_, hcontains, (hto.of_contains (hev.sound hr) hcontains).loose (hev.sound hr)⟩
  rw [← Bool.not_eq_true] at hnew ⊢
  exact fun hid => hnew (((RegistryM.ends_resolve hr _ _).of_ok hres).grows.evolves.contains hid)

/-- The entity that a declaration gives is registered exactly if the declaration is in a namespace and
what contains the entity is registered. Otherwise its handle has never been issued before, and until
the next reset it is loose, and so is everyone in it, whoever comes there by a plain name included. -/
theorem Reachable.registered_iff_or_loose (hr : r.Reachable)
    (hop : op.declared? = some (scope, name, kind)) (hrun : op.program r = .ok ids t) :
    ∃ id n e, ids = [id] ∧ DeclaredName.read? name = some n ∧ t.get? id = some e ∧
      (e.isRegistered = true ↔ scope ≠ .detached ∧
        ∃ o eo, scope.owner? n t = some o ∧ t.get? o = some eo ∧ eo.isRegistered = true) ∧
      (e.isRegistered = false →
        (r.contains id = false ∧
          (∀ p s, RegistryM.resolve scope name r = .ok p s → s.contains id = false) ∧
          ∀ earlier (k : Nat), (Session.after earlier).registries[k]? = some r →
            id ∉ Session.gather Session.issued {} earlier) ∧
        t.Loose id ∧
        ∀ ops c, ReflTransGen (t.run ops).Contains id c →
          (t.run ops).Loose c ∧ (t.run ops).TakesLoose c) := by
  have hs := hr.sound
  obtain ⟨id, n, p, s, e, rfl, hn, hres, he, hreg, hloose⟩ := op.gates hs hop hrun
  refine ⟨id, n, e, rfl, hn, he, hreg, fun hno => ?_⟩
  have hev := Operation.evolves_of_ok hs hrun
  have ht := hev.sound hs
  have hid : t.Unlisted id := ⟨e, he, by simpa [Entity.isRegistered] using hno⟩
  have hnew := (hloose hno).1
  have hdead : r.contains id = false := by
    rw [← Bool.not_eq_true] at hnew ⊢
    exact fun h => hnew (((RegistryM.ends_resolve hs _ _).of_ok hres).grows.evolves.contains h)
  refine ⟨⟨hdead, ?_, ?_⟩, hid.loose ht, ?_⟩
  · intro p' s' hres'
    cases hres.symm.trans hres'
    exact hnew
  · intro earlier k hk
    -- a handle of this generation that is not alive yet lies beyond the arena
    have hg : id.generation = r.generation := by
      rw [(get?_eq_some_iff.mp he).1, hev.generation]
    have hle : r.arena.size ≤ id.index := by
      rw [← Bool.not_eq_true, contains_iff_lt] at hdead
      omega
    exact (Session.not_mem_gather_of_upcoming .empty (.inr ⟨k, r, hk, hg.symm, hle⟩)).1
  · intro ops c hc
    have hrun := evolves_run ht ops
    have hc' := (hrun.unlisted hid).of_reflTransGen (hrun.sound ht) hc
    exact ⟨hc'.loose (hrun.sound ht), hc'.takesLoose (hrun.sound ht)⟩

/-- A routine `b` of `A` in no namespace, where there is a registered one already. -/
theorem registered_iff_or_loose_of_detached_routine :
    ∃ t e, (Operation.intern .detached ['A', ':', ':', 'b'] .instanceRoutine).program
        ((create .latestDocumented 1).run [.intern .root ['A', ':', ':', 'b'] .instanceRoutine]) =
          .ok [⟨1, 3⟩] t ∧
      t.get? ⟨1, 3⟩ = some e ∧ e.isRegistered = false ∧ e.owner = some ⟨1, 1⟩ ∧ t.Loose ⟨1, 3⟩ := by
  have hr := (Reachable.create .latestDocumented 1).run
    [.intern .root ['A', ':', ':', 'b'] .instanceRoutine]
  have hop : (Operation.intern .detached ['A', ':', ':', 'b'] .instanceRoutine).declared? =
    some (.detached, ['A', ':', ':', 'b'], .instanceRoutine) := rfl
  obtain ⟨id, n, e, hids, _, he, _, hloose⟩ := hr.registered_iff_or_loose hop rfl
  cases hids
  cases he
  exact ⟨_, _, rfl, rfl, rfl, rfl, (hloose rfl).2.1⟩

end Registry

end CodeCatalog
