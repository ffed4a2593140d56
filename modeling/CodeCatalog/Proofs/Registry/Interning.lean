import CodeCatalog.Proofs.Registry.Growth
import CodeCatalog.Registry.Declare

/-!
# What resolving and interning do

For each operation what it may return and what it leaves behind, from any sound registry. All of them
only let the registry grow.
-/
namespace CodeCatalog.RegistryM

variable {α β : Type}

theorem run_bind (x : RegistryM α) (f : α → RegistryM β) (r : Registry) :
    (x >>= f) r =
      match x r with
      | .ok a s => f a s
      | .error e s => .error e s := by
  simp only [Bind.bind, EStateM.bind]
  cases x r <;> rfl

theorem bind_of_error {x : RegistryM α} {r s : Registry} {e : RegistryError}
    (h : x r = .error e s) (f : α → RegistryM β) : (x >>= f) r = .error e s := by
  rw [run_bind, h]

theorem exists_of_bind_eq_ok {x : RegistryM α} {f : α → RegistryM β} {r t : Registry} {b : β}
    (h : (x >>= f) r = .ok b t) : ∃ a s, x r = .ok a s ∧ f a s = .ok b t := by
  rw [run_bind] at h
  cases hx : x r with
  | ok a s =>
      rw [hx] at h
      exact ⟨a, s, rfl, h⟩
  | error e s =>
      rw [hx] at h
      cases h

theorem run_get_bind (f : Registry → RegistryM α) (r : Registry) : (get >>= f) r = f r r := rfl

/-- From `r` an operation succeeds as `ok` says, or is refused as `bad` says. -/
def Ends (x : RegistryM α) (r : Registry) (ok : α → Registry → Prop)
    (bad : RegistryError → Registry → Prop) : Prop :=
  match x r with
  | .ok a s => ok a s
  | .error e s => bad e s

/-- The registry that an operation leaves behind, whether it succeeds or is refused. -/
def after (x : RegistryM α) (r : Registry) : Registry :=
  match x r with
  | .ok _ s => s
  | .error _ s => s

namespace Ends

variable {x : RegistryM α} {r s : Registry} {ok ok' : α → Registry → Prop}
  {bad bad' : RegistryError → Registry → Prop}

theorem run (x : RegistryM α) (r : Registry) :
    x.Ends r (fun a s => x r = .ok a s) (fun e s => x r = .error e s) := by
  unfold Ends
  cases x r <;> rfl

theorem bind {f : α → RegistryM β} {ok' : β → Registry → Prop} (hx : x.Ends r ok bad)
    (hf : ∀ a s, ok a s → (f a).Ends s ok' bad) : (x >>= f).Ends r ok' bad := by
  unfold Ends at hx ⊢
  rw [run_bind]
  cases h : x r with
  | ok a s =>
      rw [h] at hx
      exact hf a s hx
  | error e s =>
      rw [h] at hx
      exact hx

theorem mono (hx : x.Ends r ok bad) (hok : ∀ a s, ok a s → ok' a s)
    (hbad : ∀ e s, bad e s → bad' e s) : x.Ends r ok' bad' := by
  unfold Ends at hx ⊢
  cases h : x r with
  | ok a s =>
      rw [h] at hx
      exact hok a s hx
  | error e s =>
      rw [h] at hx
      exact hbad e s hx

theorem weaken (hx : x.Ends r ok bad) : x.Ends r ok (fun _ _ => True) :=
  hx.mono (fun _ _ h => h) (fun _ _ _ => trivial)

theorem of_ok (hx : x.Ends r ok bad) {a : α} (h : x r = .ok a s) : ok a s := by
  unfold Ends at hx
  rwa [h] at hx

theorem of_error (hx : x.Ends r ok bad) {e : RegistryError} (h : x r = .error e s) : bad e s := by
  unfold Ends at hx
  rwa [h] at hx

theorem after {P : Registry → Prop} (hx : x.Ends r ok bad) (hok : ∀ a s, ok a s → P s)
    (hbad : ∀ e s, bad e s → P s) : P (x.after r) := by
  unfold RegistryM.after
  cases h : x r with
  | ok a s => exact hok a s (hx.of_ok h)
  | error e s => exact hbad e s (hx.of_error h)

end Ends

/-! ## The operations, run -/

variable (r : Registry)

theorem run_perform (id : EntityId) (requests : List EntityRequest) :
    perform id requests r = .ok (r.performAt id requests).1 (r.performAt id requests).2 := rfl

theorem run_checkScope_within (id : EntityId) :
    checkScope (.within id) r =
      if r.contains id = true then .ok () r
      else .error (.invalidNamespace (.deadHandle id)) r := by
  unfold checkScope
  simp only
  rw [run_get_bind]
  split <;> rfl

theorem run_allocate (kind : EntityKind) (name : Text) (path : Option Text)
    (owner : Option EntityId) :
    allocate kind name path owner r =
      if r.arena.size < capacity then .ok r.nextId (r.add (r.newEntity kind name path owner))
      else .error (.capacityExceeded r.arena.size) r := by
  unfold allocate
  rw [run_get_bind]
  split <;> rfl

theorem run_ensureNamespace (owner : EntityId) (name : Text) :
    ensureNamespace owner name r =
      match r.at? (Path.member (r.pathOf owner) .ns name) with
      | some id => .ok id r
      | none => allocate .ns name (some (Path.member (r.pathOf owner) .ns name)) (some owner) r := by
  unfold ensureNamespace
  rw [run_get_bind]
  cases r.at? (Path.member (r.pathOf owner) .ns name) <;> rfl

theorem run_findOwner (scope : Scope) (n : DeclaredName) :
    findOwner scope n r =
      if n.outer ≠ [] then (ensureNamespaces r.rootId n.outer >>= fun o => pure (some o)) r
      else .ok (if n.anchored then some r.rootId else scope.entity r) r := by
  unfold findOwner
  rw [run_get_bind]
  split
  · rfl
  · split <;> rfl

theorem run_place (kind : EntityKind) (p : Placement) :
    place kind p r =
      match (p.path? kind r).bind r.at? with
      | some id => .ok id r
      | none => allocate kind p.leaf (p.path? kind r) p.owner r := by
  unfold place
  rw [run_get_bind]
  cases (p.path? kind r).bind r.at? <;> rfl

theorem run_intern (scope : Scope) (name : Text) (kind : EntityKind) :
    intern scope name kind r =
      match resolve scope name r with
      | .ok p s => place kind p s
      | .error e s => .error e s := by
  unfold intern
  rw [run_bind]
  cases resolve scope name r <;> rfl

end CodeCatalog.RegistryM

namespace CodeCatalog

open Registry

variable {r s : Registry} {scope : Scope} {name : Text} {kind : EntityKind} {p : Placement}
  {o id : EntityId} {q : Text}

/-! ## Making namespaces -/

/-- The arena is full, and the error says so. -/
def Full (e : RegistryError) (s : Registry) : Prop :=
  e = .capacityExceeded s.arena.size ∧ RegistryM.capacity ≤ s.arena.size

namespace RegistryM

theorem ends_allocate (r : Registry) (kind : EntityKind) (name : Text) (path : Option Text)
    (owner : Option EntityId) :
    (allocate kind name path owner).Ends r
      (fun id s => id = r.nextId ∧ s = r.add (r.newEntity kind name path owner) ∧
        r.arena.size < capacity)
      (fun e s => s = r ∧ Full e s) := by
  unfold Ends
  rw [run_allocate]
  by_cases room : r.arena.size < capacity
  · rw [if_pos room]
    exact ⟨rfl, rfl, room⟩
  · rw [if_neg room]
    exact ⟨rfl, rfl, Nat.le_of_not_lt room⟩

/-- A namespace can be made in another one, if its path is free. -/
theorem admissible_inside (h : r.Sound) (ho : r.HasPath o q) (hn : name ≠ [])
    (hat : r.at? (Path.member q .ns name) = none) :
    Admissible r.generation r.census ⟨r.nextId, .ns, name, some (Path.member q .ns name), some o⟩ := by
  refine h.admissible hn ?_ ?_
  · rintro _ ⟨⟩
    obtain ⟨e, he, _⟩ := ho
    exact ⟨e, he⟩
  · rintro _ ⟨⟩
    exact ⟨o, q, rfl, ho, rfl, hat⟩

theorem ends_ensureNamespace (h : r.Sound) (ho : r.HasPath o q) (hn : name ≠ []) :
    (ensureNamespace o name).Ends r
      (fun id s => r.Grows s ∧ s.HasPath id (Path.member q .ns name))
      (fun e s => r.Grows s ∧ Full e s) := by
  unfold Ends
  rw [run_ensureNamespace, ho.pathOf_eq]
  cases hat : r.at? (Path.member q .ns name) with
  | some id => exact ⟨.refl, h.hasPath_of_at? hat⟩
  | none =>
      have ha := admissible_inside h ho hn hat
      refine (ends_allocate r _ _ _ _).mono ?_ ?_
      · rintro _ _ ⟨rfl, rfl, room⟩
        exact ⟨.single ⟨room, ha⟩, _, h.get?_add_nextId ha, rfl⟩
      · rintro e _ ⟨rfl, full⟩
        exact ⟨.refl, full⟩

/-- The last namespace has the path of the first, extended name by name. -/
theorem ends_ensureNamespaces (names : List Text) (h : r.Sound) (ho : r.HasPath o q)
    (hn : ∀ n ∈ names, n ≠ []) :
    (ensureNamespaces o names).Ends r
      (fun id s => r.Grows s ∧ s.HasPath id (names.foldl (fun q n => Path.member q .ns n) q))
      (fun e s => r.Grows s ∧ Full e s) := by
  induction names generalizing r o q with
  | nil => exact ⟨.refl, ho⟩
  | cons n names ih =>
      refine (ends_ensureNamespace h ho (hn n (by simp))).mono (fun _ _ h => h) (fun _ _ h => h)
        |>.bind ?_
      rintro id s ⟨hrs, hid⟩
      refine (ih (hrs.evolves.sound h) hid fun n hm => hn n (by simp [hm])).mono ?_ ?_
      · rintro id' t ⟨hst, hid'⟩
        exact ⟨hrs.trans hst, hid'⟩
      · rintro e t ⟨hst, hf⟩
        exact ⟨hrs.trans hst, hf⟩

end RegistryM

/-! ## Resolving -/

def Scope.Live (scope : Scope) (r : Registry) : Prop :=
  ∀ id, scope = .within id → r.contains id = true

/-- Why a declaration is refused, and what it then leaves behind. Only a full arena lets the registry
grow before the refusal. -/
inductive Refused (r : Registry) (scope : Scope) (name : Text) : RegistryError → Registry → Prop where
  | deadScope {id : EntityId} (hs : scope = .within id) (h : r.contains id = false) :
      Refused r scope name (.invalidNamespace (.deadHandle id)) r
  | emptyName (hl : scope.Live r) (h : DeclaredName.read? name = none) :
      Refused r scope name (.emptyName name) r
  | full {n : DeclaredName} {e : RegistryError} {s : Registry} (hl : scope.Live r)
      (hn : DeclaredName.read? name = some n) (h : r.Grows s) (hf : Full e s) :
      Refused r scope name e s

theorem Refused.grows {e : RegistryError} (h : Refused r scope name e s) : r.Grows s := by
  cases h with
  | deadScope => exact .refl
  | emptyName => exact .refl
  | full _ _ h _ => exact h

/-- What a name's outer parts, its anchor and the scope say of the owner, in this order. -/
def OwnerFound (r : Registry) (scope : Scope) (n : DeclaredName) (owner : Option EntityId)
    (s : Registry) : Prop :=
  (n.outer ≠ [] ∧ ∃ o, owner = some o ∧ s.HasPath o (nameSeparator.intercalate n.outer)) ∨
    (n.outer = [] ∧ s = r ∧ owner = if n.anchored then some r.rootId else scope.entity r)

structure Resolved (r : Registry) (scope : Scope) (name : Text) (p : Placement) (s : Registry) :
    Prop where
  live : scope.Live r
  grows : r.Grows s
  found : ∃ n, DeclaredName.read? name = some n ∧ p.leaf = n.leaf ∧ OwnerFound r scope n p.owner s
  registers : p.registers = true ↔ scope ≠ .detached ∧ ∃ o q, p.owner = some o ∧ s.HasPath o q

namespace RegistryM

theorem ends_checkScope (r : Registry) (scope : Scope) (name : Text) :
    (checkScope scope).Ends r (fun _ s => s = r ∧ scope.Live r) (Refused r scope name) := by
  cases scope with
  | detached => exact ⟨rfl, by rintro _ ⟨⟩⟩
  | root => exact ⟨rfl, by rintro _ ⟨⟩⟩
  | within id =>
      unfold Ends
      rw [run_checkScope_within]
      cases hc : r.contains id with
      | true => exact ⟨rfl, by rintro _ ⟨⟩; exact hc⟩
      | false => exact .deadScope rfl hc

theorem ends_readName (name : Text) (hl : scope.Live r) :
    (readName name).Ends r (fun n s => s = r ∧ DeclaredName.read? name = some n)
      (Refused r scope name) := by
  unfold Ends readName
  cases hn : DeclaredName.read? name with
  | none => exact .emptyName hl hn
  | some n => exact ⟨rfl, rfl⟩

theorem ends_findOwner {n : DeclaredName} (h : r.Sound) (hn : ∀ l ∈ n.outer, l ≠ []) :
    (findOwner scope n).Ends r (fun o s => r.Grows s ∧ OwnerFound r scope n o s)
      (fun e s => r.Grows s ∧ Full e s) := by
  unfold Ends
  rw [run_findOwner]
  by_cases houter : n.outer = []
  · rw [if_neg fun hne => hne houter]
    exact ⟨.refl, Or.inr ⟨houter, rfl, rfl⟩⟩
  · rw [if_pos houter]
    refine (ends_ensureNamespaces n.outer h h.hasPath_root hn).bind ?_
    rintro o s ⟨hg, ho⟩
    rw [Path.foldl_member hn] at ho
    exact ⟨hg, Or.inl ⟨houter, o, rfl, ho⟩⟩

theorem ends_resolve (h : r.Sound) (scope : Scope) (name : Text) :
    (resolve scope name).Ends r (Resolved r scope name) (Refused r scope name) := by
  unfold resolve
  refine (ends_checkScope r scope name).bind ?_
  rintro _ r ⟨rfl, hl⟩
  refine (ends_readName name hl).bind ?_
  rintro n r ⟨rfl, hn⟩
  have hfound : (findOwner scope n).Ends r
      (fun o s => r.Grows s ∧ OwnerFound r scope n o s) (Refused r scope name) := by
    refine (ends_findOwner h (DeclaredName.parts_ne_nil hn).2).mono (fun _ _ h => h) ?_
    rintro e s ⟨hg, hf⟩
    exact .full hl hn hg hf
  refine hfound.bind ?_
  rintro owner s ⟨hg, hf⟩
  refine ⟨hl, hg, ⟨n, hn, rfl, hf⟩, ?_⟩
  simp only [Bool.and_eq_true, decide_eq_true_eq, Option.any_eq_true, Option.bind_eq_some_iff,
    Entity.isRegistered, Option.isSome_iff_exists, HasPath]
  grind

end RegistryM

/-! ## Interning -/

/-- A placement that speaks of live entities, and registers only in a registered owner. -/
structure Placement.Fits (p : Placement) (s : Registry) : Prop where
  leaf_ne_nil : p.leaf ≠ []
  owner_live : ∀ o, p.owner = some o → ∃ e, s.get? o = some e
  registers : p.registers = true → ∃ o q, p.owner = some o ∧ s.HasPath o q

theorem Resolved.fits (hp : Resolved r scope name p s) (h : r.Sound) : p.Fits s := by
  obtain ⟨n, hn, hleaf, hfound⟩ := hp.found
  refine ⟨?_, ?_, fun hreg => (hp.registers.mp hreg).2⟩
  · rw [hleaf]
    exact (DeclaredName.parts_ne_nil hn).1
  · intro o ho
    rcases hfound with ⟨_, o', ho', e, he, _⟩ | ⟨_, rfl, howner⟩
    · rw [ho', Option.some.injEq] at ho
      exact ⟨e, ho ▸ he⟩
    · rw [howner] at ho
      obtain ⟨root, hroot, _⟩ := h.get?_root
      split at ho
      · cases ho
        exact ⟨root, hroot⟩
      · cases scope with
        | detached => cases ho
        | root =>
            cases ho
            exact ⟨root, hroot⟩
        | within id =>
            cases ho
            exact contains_iff.mp (hp.live _ rfl)

theorem Placement.path?_eq_some_iff {path : Text} :
    p.path? kind s = some path ↔
      p.registers = true ∧ ∃ o, p.owner = some o ∧ path = Path.member (s.pathOf o) kind p.leaf := by
  unfold path?
  cases p.registers with
  | true =>
      simp only [if_true, Option.map_eq_some_iff, true_and]
      exact exists_congr fun o => and_congr_right fun _ => eq_comm
  | false => simp

/-- The entity at a place: the one that has the path already, or a new one. -/
inductive Placed (s : Registry) (kind : EntityKind) (p : Placement) : EntityId → Registry → Prop where
  | old {id : EntityId} {path : Text} (hp : p.path? kind s = some path)
      (hat : s.at? path = some id) : Placed s kind p id s
  | new (ha : Admissible s.generation s.census ⟨s.nextId, kind, p.leaf, p.path? kind s, p.owner⟩)
      (room : s.arena.size < RegistryM.capacity)
      (hat : ∀ path, p.path? kind s = some path → s.at? path = none) :
      Placed s kind p s.nextId (s.add (s.newEntity kind p.leaf (p.path? kind s) p.owner))

theorem Placed.grows {t : Registry} (h : Placed s kind p id t) : s.Grows t := by
  cases h with
  | old => exact .refl
  | new ha room _ => exact .single ⟨room, ha⟩

theorem Placed.hasPath {t : Registry} {path : Text} (h : Placed s kind p id t) (hs : s.Sound)
    (hp : p.path? kind s = some path) : t.HasPath id path := by
  cases h with
  | old hp' hat =>
      rw [hp, Option.some.injEq] at hp'
      exact hp' ▸ hs.hasPath_of_at? hat
  | new ha _ _ => exact ⟨_, hs.get?_add_nextId ha, hp⟩

namespace RegistryM

theorem ends_place (hs : s.Sound) (hp : p.Fits s) :
    (place kind p).Ends s (Placed s kind p) (fun e t => t = s ∧ Full e t) := by
  unfold Ends
  rw [run_place]
  cases hat : (p.path? kind s).bind s.at? with
  | some id =>
      obtain ⟨path, hpath, hat⟩ := Option.bind_eq_some_iff.mp hat
      exact .old hpath hat
  | none =>
      have hfree : ∀ path, p.path? kind s = some path → s.at? path = none := by
        intro path hpath
        rwa [hpath] at hat
      have ha : Admissible s.generation s.census
          ⟨s.nextId, kind, p.leaf, p.path? kind s, p.owner⟩ := by
        refine hs.admissible hp.leaf_ne_nil hp.owner_live ?_
        intro path hpath
        obtain ⟨hreg, o, ho, hmember⟩ := Placement.path?_eq_some_iff.mp hpath
        obtain ⟨o', q, ho', hq⟩ := hp.registers hreg
        rw [ho, Option.some.injEq] at ho'
        subst ho'
        rw [hq.pathOf_eq] at hmember
        exact ⟨o, q, ho, hq, hmember, hfree path hpath⟩
      refine (ends_allocate s _ _ _ _).mono ?_ (fun _ _ h => h)
      rintro _ _ ⟨rfl, rfl, room⟩
      exact .new ha room hfree

theorem ends_intern (h : r.Sound) (scope : Scope) (name : Text) (kind : EntityKind) :
    (intern scope name kind).Ends r
      (fun id t => ∃ p s, Resolved r scope name p s ∧ Placed s kind p id t)
      (Refused r scope name) := by
  unfold intern
  refine (ends_resolve h scope name).bind ?_
  intro p s hp
  refine (ends_place (hp.grows.evolves.sound h) (hp.fits h)).mono ?_ ?_
  · intro id t ht
    exact ⟨p, s, hp, ht⟩
  · rintro e _ ⟨rfl, hf⟩
    obtain ⟨n, hn, _⟩ := hp.found
    exact .full hp.live hn hp.grows hf

theorem grows_intern (h : r.Sound) (scope : Scope) (name : Text) (kind : EntityKind) :
    (intern scope name kind).Ends r (fun _ t => r.Grows t) (fun _ t => r.Grows t) := by
  refine (ends_intern h scope name kind).mono ?_ (fun _ _ h => h.grows)
  rintro id t ⟨p, s, hp, ht⟩
  exact hp.grows.trans ht.grows

end RegistryM

end CodeCatalog
