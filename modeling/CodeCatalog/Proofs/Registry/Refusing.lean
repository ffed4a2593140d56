import CodeCatalog.Proofs.Registry.Reachable

/-!
# What is refused

A declaration is refused for a dead scope, and else for a name that cannot be read, and else only
for want of room. The first two leave the registry as it was.
-/
namespace CodeCatalog

open Registry

/-- How many namespaces a name goes through. -/
def DeclaredName.outerCount (name : Text) : Nat :=
  ((read? name).map (·.outer.length)).getD 0

variable {r s t : Registry} {scope : Scope} {name : Text} {kind : EntityKind} {id : EntityId}

/-! ## Room -/

namespace RegistryM

variable {α β : Type} {k l : Nat} {x : RegistryM α}

/-- An operation adds at most `k` entities, and fewer if there is no room for all of them. -/
def AddsUpTo (k : Nat) (x : RegistryM α) : Prop :=
  ∀ r, x.Ends r (fun _ s => s.arena.size ≤ r.arena.size + k)
    (fun e s => Full e s → s.arena.size < r.arena.size + k)

namespace AddsUpTo

theorem bind {f : α → RegistryM β} (hx : AddsUpTo k x)
    (hf : ∀ r a s, x r = .ok a s → AddsUpTo l (f a)) : AddsUpTo (k + l) (x >>= f) := by
  intro r
  have hxr := hx r
  unfold Ends at hxr ⊢
  rw [run_bind]
  cases h : x r with
  | error e s =>
      simp only [h] at hxr ⊢
      intro hfull
      have := hxr hfull
      omega
  | ok a s =>
      simp only [h] at hxr ⊢
      refine (hf r a s h s).mono ?_ ?_
      · intro b t ht
        omega
      · intro e t ht hfull
        have := ht hfull
        omega

theorem pure (a : α) : AddsUpTo 0 (Pure.pure a : RegistryM α) :=
  fun _ => Nat.le_refl _

theorem map (hx : AddsUpTo k x) (f : α → β) : AddsUpTo k (do return f (← x)) :=
  hx.bind fun _ _ _ _ => .pure _

/-- With room for all that it may add an operation does not fill the arena. -/
theorem not_full (hx : AddsUpTo k x) (hroom : r.arena.size + k ≤ capacity) {e : RegistryError}
    (hrun : x r = .error e s) : ¬ Full e s := by
  intro hfull
  have hlt := (hx r).of_error hrun hfull
  have hle := hfull.2
  omega

end AddsUpTo

theorem addsUpTo_allocate (kind : EntityKind) (name : Text) (path : Option Text)
    (owner : Option EntityId) : AddsUpTo 1 (allocate kind name path owner) := by
  intro r
  refine (ends_allocate r kind name path owner).mono ?_ ?_
  · rintro id _ ⟨_, rfl, _⟩
    exact Nat.le_of_eq (size_arena_add r _)
  · rintro e _ ⟨rfl, _⟩ _
    omega

theorem addsUpTo_ensureNamespace (o : EntityId) (name : Text) :
    AddsUpTo 1 (ensureNamespace o name) := by
  intro r
  unfold Ends
  rw [run_ensureNamespace]
  cases r.at? (Path.member (r.pathOf o) .ns name) with
  | some id => exact Nat.le_add_right _ 1
  | none => exact addsUpTo_allocate _ _ _ _ r

theorem addsUpTo_ensureNamespaces (o : EntityId) (names : List Text) :
    AddsUpTo names.length (ensureNamespaces o names) := by
  induction names generalizing o with
  | nil => exact .pure o
  | cons name names ih =>
      rw [List.length_cons, Nat.add_comm]
      exact (addsUpTo_ensureNamespace o name).bind fun _ id _ _ => ih id

theorem addsUpTo_findOwner (scope : Scope) (n : DeclaredName) :
    AddsUpTo n.outer.length (findOwner scope n) := by
  intro r
  unfold Ends
  rw [run_findOwner]
  by_cases houter : n.outer = []
  · rw [if_neg fun hne => hne houter]
    exact Nat.le_add_right _ _
  · rw [if_pos houter]
    exact (addsUpTo_ensureNamespaces r.rootId n.outer).map some r

theorem addsUpTo_checkScope (scope : Scope) : AddsUpTo 0 (checkScope scope) := by
  intro r
  refine (ends_checkScope r scope []).mono ?_ ?_
  · rintro _ _ ⟨rfl, _⟩
    exact Nat.le_refl _
  · rintro e s (_ | _ | ⟨_, hn, _, _⟩) ⟨he, _⟩
    · cases he
    · cases he
    · cases hn

theorem addsUpTo_readName (name : Text) : AddsUpTo 0 (readName name) := by
  intro r
  unfold Ends readName
  cases DeclaredName.read? name with
  | none =>
      rintro ⟨he, _⟩
      cases he
  | some n => exact Nat.le_refl _

theorem outerCount_eq {n : DeclaredName} (h : readName name r = .ok n s) :
    DeclaredName.outerCount name = n.outer.length := by
  unfold readName at h
  cases hread : DeclaredName.read? name with
  | none => rw [hread] at h; cases h
  | some n' =>
      rw [hread] at h
      cases h
      simp [DeclaredName.outerCount, hread]

theorem addsUpTo_resolve (scope : Scope) (name : Text) :
    AddsUpTo (DeclaredName.outerCount name) (resolve scope name) := by
  rw [← Nat.zero_add (DeclaredName.outerCount name)]
  unfold resolve
  refine (addsUpTo_checkScope scope).bind fun _ _ _ _ => ?_
  rw [← Nat.zero_add (DeclaredName.outerCount name)]
  refine (addsUpTo_readName name).bind fun _ n _ hn => ?_
  rw [outerCount_eq hn]
  exact (addsUpTo_findOwner scope n).bind (l := 0) fun _ _ _ _ _ => Nat.le_refl _

theorem addsUpTo_place (kind : EntityKind) (p : Placement) : AddsUpTo 1 (place kind p) := by
  intro r
  unfold Ends
  rw [run_place]
  cases (p.path? kind r).bind r.at? with
  | some id => exact Nat.le_add_right _ 1
  | none => exact addsUpTo_allocate _ _ _ _ r

theorem addsUpTo_intern (scope : Scope) (name : Text) (kind : EntityKind) :
    AddsUpTo (DeclaredName.outerCount name + 1) (intern scope name kind) :=
  (addsUpTo_resolve scope name).bind fun _ p _ _ => addsUpTo_place kind p

theorem addsUpTo_perform (id : EntityId) (requests : List EntityRequest) :
    AddsUpTo 0 (perform id requests) := by
  intro r
  unfold Ends
  rw [run_perform, performAt]
  cases r.get? id with
  | none => exact Nat.le_refl _
  | some e => exact Nat.le_of_eq (size_arena_update r id _)

theorem addsUpTo_internWith (scope : Scope) (name : Text) (kind : EntityKind)
    (requests : List EntityRequest) :
    AddsUpTo (DeclaredName.outerCount name + 1) (internWith scope name kind requests) :=
  (addsUpTo_intern scope name kind).bind fun _ id _ _ => (addsUpTo_perform id requests).map _

theorem addsUpTo_declare (d : Declaration) :
    AddsUpTo (DeclaredName.outerCount d.name + 1) (declare d) := by
  unfold declare
  refine (addsUpTo_intern d.scope d.name d.kind).bind (l := 0) fun _ id _ _ => ?_
  exact AddsUpTo.bind (l := 0) (k := 0) (fun r => Nat.le_of_eq (size_arena_update r id _))
    fun _ _ _ _ => .pure id

end RegistryM

/-! ## Refusals -/

theorem Resolved.guard {p : Placement} (h : Resolved r scope name p s) :
    scope.Live r ∧ DeclaredName.read? name ≠ none := by
  obtain ⟨n, hn, _⟩ := h.found
  exact ⟨h.live, by simp [hn]⟩

theorem Scope.not_live (h : r.contains id = false) : ¬ (Scope.within id).Live r := by
  intro hl
  rw [hl id rfl] at h
  cases h

namespace Refused

variable {e : RegistryError}

theorem of_dead (h : Refused r (.within id) name e s) (hdead : r.contains id = false) :
    e = .invalidNamespace (.deadHandle id) ∧ s = r := by
  cases h with
  | deadScope hs _ => cases hs; exact ⟨rfl, rfl⟩
  | emptyName hl _ => exact absurd hl (Scope.not_live hdead)
  | full hl _ _ _ => exact absurd hl (Scope.not_live hdead)

theorem of_unreadable (h : Refused r scope name e s) (hl : scope.Live r)
    (hn : DeclaredName.read? name = none) : e = .emptyName name ∧ s = r := by
  cases h with
  | deadScope hs hdead => rw [hl _ hs] at hdead; cases hdead
  | emptyName _ _ => exact ⟨rfl, rfl⟩
  | full _ hn' _ _ => rw [hn] at hn'; cases hn'

theorem full_of_readable (h : Refused r scope name e s) (hl : scope.Live r)
    (hn : DeclaredName.read? name ≠ none) : Full e s := by
  cases h with
  | deadScope hs hdead => rw [hl _ hs] at hdead; cases hdead
  | emptyName _ hn' => exact absurd hn' hn
  | full _ _ _ hf => exact hf

end Refused

namespace RegistryM

variable {α : Type} {x : RegistryM α} {k : Nat}

/-- An operation succeeds only for a live scope and a name that can be read, and is otherwise refused
as declarations are. -/
def Guarded (x : RegistryM α) (r : Registry) (scope : Scope) (name : Text) : Prop :=
  x.Ends r (fun _ _ => scope.Live r ∧ DeclaredName.read? name ≠ none) (Refused r scope name)

namespace Guarded

theorem error_of_dead (hx : Guarded x r (.within id) name) (hdead : r.contains id = false) :
    x r = .error (.invalidNamespace (.deadHandle id)) r := by
  cases h : x r with
  | ok a s => exact absurd (hx.of_ok h).1 (Scope.not_live hdead)
  | error e s =>
      obtain ⟨rfl, rfl⟩ := (hx.of_error h).of_dead hdead
      rfl

theorem error_of_unreadable (hx : Guarded x r scope name) (hl : scope.Live r)
    (hn : DeclaredName.read? name = none) : x r = .error (.emptyName name) r := by
  cases h : x r with
  | ok a s => exact absurd hn (hx.of_ok h).2
  | error e s =>
      obtain ⟨rfl, rfl⟩ := (hx.of_error h).of_unreadable hl hn
      rfl

theorem ok_of_room (hx : Guarded x r scope name) (hk : AddsUpTo k x)
    (hroom : r.arena.size + k ≤ capacity) (hl : scope.Live r)
    (hn : DeclaredName.read? name ≠ none) : ∃ a s, x r = .ok a s := by
  cases h : x r with
  | ok a s => exact ⟨a, s, rfl⟩
  | error e s => exact absurd ((hx.of_error h).full_of_readable hl hn) (hk.not_full hroom h)

end Guarded

theorem guarded_resolve (h : r.Sound) (scope : Scope) (name : Text) :
    Guarded (resolve scope name) r scope name :=
  (ends_resolve h scope name).mono (fun _ _ h => h.guard) (fun _ _ h => h)

theorem guarded_intern (h : r.Sound) (scope : Scope) (name : Text) (kind : EntityKind) :
    Guarded (intern scope name kind) r scope name := by
  refine (ends_intern h scope name kind).mono ?_ (fun _ _ h => h)
  rintro id t ⟨p, s, hp, _⟩
  exact hp.guard

theorem guarded_internWith (h : r.Sound) (scope : Scope) (name : Text) (kind : EntityKind)
    (requests : List EntityRequest) : Guarded (internWith scope name kind requests) r scope name :=
  (guarded_intern h scope name kind).bind fun _ _ hg => hg

theorem guarded_declare (h : r.Sound) (d : Declaration) : Guarded (declare d) r d.scope d.name :=
  (guarded_intern h d.scope d.name d.kind).bind fun _ _ hg => hg

/-- Exactly when an operation on a scope and a name is refused and why, if it adds at most `k`
entities. Want of room is the only other reason. -/
structure Judges (x : RegistryM α) (r : Registry) (scope : Scope) (name : Text) (k : Nat) : Prop where
  deadScope_iff : ∀ found s, x r = .error (.invalidNamespace found) s ↔
    s = r ∧ ∃ id, scope = .within id ∧ r.contains id = false ∧ found = .deadHandle id
  emptyName_iff : ∀ text s, x r = .error (.emptyName text) s ↔
    s = r ∧ scope.Live r ∧ DeclaredName.read? name = none ∧ text = name
  ok_iff : r.arena.size + k ≤ capacity →
    ((∃ a s, x r = .ok a s) ↔ scope.Live r ∧ DeclaredName.read? name ≠ none)
  full : ∀ e s, x r = .error e s → scope.Live r → DeclaredName.read? name ≠ none → Full e s

theorem Guarded.judges (hx : Guarded x r scope name) (hk : AddsUpTo k x) :
    Judges x r scope name k where
  deadScope_iff found s := by
    constructor
    · intro h
      cases hx.of_error h with
      | deadScope hs hdead => exact ⟨rfl, _, hs, hdead, rfl⟩
      | full _ _ _ hf => cases hf.1
    · rintro ⟨rfl, id, rfl, hdead, rfl⟩
      exact hx.error_of_dead hdead
  emptyName_iff text s := by
    constructor
    · intro h
      cases hx.of_error h with
      | emptyName hl hn => exact ⟨rfl, hl, hn, rfl⟩
      | full _ _ _ hf => cases hf.1
    · rintro ⟨rfl, hl, hn, rfl⟩
      exact hx.error_of_unreadable hl hn
  ok_iff hroom := by
    constructor
    · rintro ⟨a, s, h⟩
      exact hx.of_ok h
    · rintro ⟨hl, hn⟩
      exact hx.ok_of_room hk hroom hl hn
  full _ _ h hl hn := (hx.of_error h).full_of_readable hl hn

end RegistryM

/-! ## What runs after interning -/

theorem Placed.live {p : Placement} (h : Placed s kind p id t) (hs : s.Sound) :
    ∃ e, t.get? id = some e := by
  cases h with
  | old hp hat =>
      obtain ⟨e, he, _⟩ := hs.hasPath_of_at? hat
      exact ⟨e, he⟩
  | new ha room hat => exact ⟨_, hs.get?_add_nextId ha⟩

theorem RegistryM.live_of_intern (h : r.Sound) (hin : intern scope name kind r = .ok id s) :
    ∃ e, s.get? id = some e := by
  obtain ⟨p, s', hp, hs⟩ := (ends_intern h scope name kind).of_ok hin
  exact hs.live (hp.grows.evolves.sound h)

theorem Registry.performAt_eq {e : Entity} (he : r.get? id = some e) (requests : List EntityRequest) :
    r.performAt id requests =
      (some (e.performAll requests).1, r.update id fun _ => (e.performAll requests).2) := by
  unfold performAt
  rw [he]

/-- What the handle leads to decides what a change makes of it. -/
theorem Registry.update_eq_const {e : Entity} (he : r.get? id = some e) (f : Entity → Entity) :
    r.update id f = r.update id fun _ => f e := by
  obtain ⟨hg, hk⟩ := get?_eq_some_iff.mp he
  have harena : r.arena.modify id.index f = r.arena.modify id.index fun _ => f e := by
    apply Array.ext_getElem?
    intro k
    rw [Array.getElem?_modify, Array.getElem?_modify]
    split
    · rename_i hi
      rw [← hi, hk]
      rfl
    · rfl
  rw [update, update, if_pos hg, if_pos hg, harena]

namespace Registry

open RegistryM

/-- Resolving, interning and declaring are refused exactly for a dead scope, whatever the name is, and
else for a name that cannot be read, and leave the registry as it was. Otherwise they succeed, if
there is room for all that they may add; then the requests or the merge are carried out once, on the
entity whose handle is given. -/
theorem Reachable.refusals (hr : r.Reachable) (scope : Scope) (name : Text) (kind : EntityKind)
    (requests : List EntityRequest) (d : Declaration) :
    Judges (resolve scope name) r scope name (DeclaredName.outerCount name) ∧
    Judges (internWith scope name kind requests) r scope name (DeclaredName.outerCount name + 1) ∧
    Judges (declare d) r d.scope d.name (DeclaredName.outerCount d.name + 1) ∧
    (∀ id answers t, internWith scope name kind requests r = .ok (id, answers) t →
      ∃ s e, intern scope name kind r = .ok id s ∧ s.get? id = some e ∧
        answers = (e.performAll requests).1 ∧
        t = s.update id fun _ => (e.performAll requests).2) ∧
    ∀ id t, declare d r = .ok id t →
      ∃ s e, intern d.scope d.name d.kind r = .ok id s ∧ s.get? id = some e ∧
        t = s.update id fun _ => e.merge d := by
  have h := hr.sound
  refine ⟨(guarded_resolve h scope name).judges (addsUpTo_resolve scope name),
    (guarded_internWith h scope name kind requests).judges
      (addsUpTo_internWith scope name kind requests),
    (guarded_declare h d).judges (addsUpTo_declare d), ?_, ?_⟩
  · intro id answers t hrun
    obtain ⟨id', s, hin, hrest⟩ := exists_of_bind_eq_ok hrun
    obtain ⟨given, _, hperform, hret⟩ := exists_of_bind_eq_ok hrest
    cases hret
    obtain ⟨e, he⟩ := live_of_intern h hin
    rw [run_perform, performAt_eq he] at hperform
    cases hperform
    exact ⟨s, e, hin, he, rfl, rfl⟩
  · intro id t hrun
    obtain ⟨id', s, hin, hrest⟩ := exists_of_bind_eq_ok hrun
    cases hrest
    obtain ⟨e, he⟩ := live_of_intern h hin
    exact ⟨s, e, hin, he, update_eq_const he _⟩

/-- The old root of a registry that has been reset, with a name that cannot be read either, and then
a name that goes through two namespaces. -/
theorem refusals_of_root_before_reset :
    resolve (.within ⟨1, 0⟩) ['A', ':', ':'] ((create .latestDocumented 1).reset 2) =
      .error (.invalidNamespace (.deadHandle ⟨1, 0⟩)) ((create .latestDocumented 1).reset 2) ∧
    ∃ a s, internWith .root ['A', ':', ':', 'B', ':', ':', 'c'] .type [.get "path"]
      ((create .latestDocumented 1).reset 2) = .ok a s :=
  have hr := (Reachable.create .latestDocumented 1).reset 2
  ⟨((Reachable.refusals hr (.within ⟨1, 0⟩) ['A', ':', ':'] .type []
      { scope := .root, name := [], kind := .type, site := ⟨[], 0⟩ }).1.deadScope_iff _ _).mpr
      ⟨rfl, _, rfl, rfl, rfl⟩,
    ((Reachable.refusals hr .root ['A', ':', ':', 'B', ':', ':', 'c'] .type [.get "path"]
      { scope := .root, name := [], kind := .type, site := ⟨[], 0⟩ }).2.1.ok_iff (by decide)).mpr
      ⟨by rintro _ ⟨⟩, by decide⟩⟩

end Registry

end CodeCatalog
