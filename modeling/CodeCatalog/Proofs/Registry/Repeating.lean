import CodeCatalog.Proofs.Registry.Reachable

/-!
# Doing it again

What resolving and interning have found or made they find again, as long as the registry only
evolves: the second time nothing is added.
-/
namespace CodeCatalog

open Registry

variable {r s t u : Registry} {scope : Scope} {name : Text} {kind kind' : EntityKind}
  {p : Placement} {o id id' : EntityId} {q path : Text} {names : List Text}

theorem Path.member_congr (h : kind.separator = kind'.separator) (q l : Text) :
    Path.member q kind l = Path.member q kind' l := by
  rw [Path.member, Path.member, h]

namespace Registry.Evolves

theorem at?_eq (h : r.Evolves s) (hr : r.Sound) (hat : r.at? path = some id) :
    s.at? path = some id := by
  obtain ⟨hne, hp⟩ := hr.at?_eq_some_iff.mp hat
  refine (h.sound hr).at?_eq_some_iff.mpr ⟨?_, h.hasPath hp⟩
  rwa [rootId, h.generation]

theorem rootId_eq (h : r.Evolves s) : s.rootId = r.rootId := by
  rw [rootId, h.generation]
  rfl

theorem live (h : r.Evolves s) (hl : scope.Live r) : scope.Live s :=
  fun id hid => h.contains (hl id hid)

/-- A live entity stays registered, or not registered, as it is. -/
theorem isRegistered_eq (h : r.Evolves s) {owner : Option EntityId}
    (ho : ∀ o, owner = some o → ∃ e, r.get? o = some e) :
    (owner.bind s.get?).any Entity.isRegistered = (owner.bind r.get?).any Entity.isRegistered := by
  cases owner with
  | none => rfl
  | some o =>
      obtain ⟨e, he⟩ := ho o rfl
      obtain ⟨e', he', hi⟩ := h.exists_get? he
      have hpath : e'.path = e.path := congrArg Identity.path hi
      simp [he, he', Entity.isRegistered, hpath]

theorem path?_eq (h : s.Evolves t) (hp : p.Fits s) : p.path? kind t = p.path? kind s := by
  unfold Placement.path?
  cases hreg : p.registers with
  | false => rfl
  | true =>
      obtain ⟨o, q, ho, hq⟩ := hp.registers hreg
      simp [ho, hq.pathOf_eq, (h.hasPath hq).pathOf_eq]

end Registry.Evolves

/-! ## Places -/

theorem Placement.path?_congr (h : kind.separator = kind'.separator) :
    p.path? kind s = p.path? kind' s := by
  simp only [path?, Path.member_congr h]

theorem Placed.at?_eq (h : Placed s kind p id t) (hs : s.Sound) (hp : p.Fits s)
    (hpath : p.path? kind s = some path) : t.at? path = some id := by
  have hne : path ≠ [] := by
    obtain ⟨_, o, _, rfl⟩ := Placement.path?_eq_some_iff.mp hpath
    exact Path.member_ne_nil hp.leaf_ne_nil
  exact (h.grows.evolves.sound hs).at?_of_hasPath (h.hasPath hs hpath) hne

/-- A registered place is found again, also for any other kind with the same separator. -/
theorem Placed.again (h : Placed s kind p id t) (hs : s.Sound) (hp : p.Fits s)
    (hpath : p.path? kind s = some path) (hsep : kind'.separator = kind.separator)
    (htu : t.Evolves u) : RegistryM.place kind' p u = .ok id u := by
  have hsu : s.Evolves u := h.grows.evolves.trans htu
  have hat : u.at? path = some id :=
    htu.at?_eq (h.grows.evolves.sound hs) (h.at?_eq hs hp hpath)
  rw [RegistryM.run_place, hsu.path?_eq hp, Placement.path?_congr hsep, hpath, Option.bind_some, hat]

/-! ## Namespaces one within the other -/

/-- The place of a namespace within another one. -/
def Placement.inside (o : EntityId) (name : Text) : Placement :=
  ⟨some o, name, true⟩

/-- From one namespace names lead to another one, and what is missing on the way is added. -/
inductive Registry.Leads : Registry → EntityId → List Text → EntityId → Registry → Prop where
  | nil (r : Registry) (o : EntityId) : Leads r o [] o r
  | cons {r s t : Registry} {o id id' : EntityId} {name : Text} {names : List Text}
      (h : Placed r .ns (.inside o name) id s) (hs : Leads s id names id' t) :
      Leads r o (name :: names) id' t

theorem Placement.fits_inside (ho : r.HasPath o q) (hn : name ≠ []) : (inside o name).Fits r where
  leaf_ne_nil := hn
  owner_live := by
    rintro _ ⟨⟩
    obtain ⟨e, he, _⟩ := ho
    exact ⟨e, he⟩
  registers _ := ⟨o, q, rfl, ho⟩

theorem Placement.path?_inside (ho : r.HasPath o q) (kind : EntityKind) (name : Text) :
    (inside o name).path? kind r = some (Path.member q kind name) := by
  simp [path?, inside, ho.pathOf_eq]

namespace RegistryM

theorem ensureNamespace_eq_place (o : EntityId) (name : Text) :
    ensureNamespace o name = place .ns (.inside o name) := by
  funext r
  rw [run_ensureNamespace, run_place]
  rfl

theorem leads_ensureNamespaces (h : r.Sound) (ho : r.HasPath o q) (hn : ∀ n ∈ names, n ≠ []) :
    (ensureNamespaces o names).Ends r (fun id s => r.Leads o names id s) (fun _ _ => True) := by
  induction names generalizing r o q with
  | nil => exact .nil r o
  | cons n names ih =>
      have hfits := Placement.fits_inside ho (hn n (by simp))
      have hpath := Placement.path?_inside ho .ns n
      unfold ensureNamespaces
      rw [ensureNamespace_eq_place]
      refine (ends_place h hfits).weaken.bind ?_
      intro id s hid
      refine (ih (hid.grows.evolves.sound h) (hid.hasPath h hpath) fun n hm => hn n (by simp [hm])).mono
        ?_ (fun _ _ h => h)
      intro id' t ht
      exact .cons hid ht

end RegistryM

namespace Registry.Leads

theorem grows (h : r.Leads o names id s) : r.Grows s := by
  induction h with
  | nil => exact .refl
  | cons h _ ih => exact h.grows.trans ih

theorem again (h : r.Leads o names id s) (hr : r.Sound) (ho : r.HasPath o q)
    (hn : ∀ n ∈ names, n ≠ []) (hst : s.Evolves t) :
    RegistryM.ensureNamespaces o names t = .ok id t := by
  induction h generalizing q with
  | nil => rfl
  | @cons r s' s o id id' name names h hs ih =>
      have hfits := Placement.fits_inside ho (hn name (by simp))
      have hpath := Placement.path?_inside ho .ns name
      have hplace := h.again hr hfits hpath rfl (hs.grows.evolves.trans hst)
      rw [RegistryM.ensureNamespaces, RegistryM.ensureNamespace_eq_place, RegistryM.run_bind, hplace]
      exact ih (h.grows.evolves.sound hr) (h.hasPath hr hpath) (fun n hm => hn n (by simp [hm])) hst

end Registry.Leads

/-! ## Resolving and interning -/

/-- The place that a scope and a name give under an owner. -/
def Placement.under (scope : Scope) (n : DeclaredName) (owner : Option EntityId) (s : Registry) :
    Placement where
  owner
  leaf := n.leaf
  registers := scope ≠ .detached && (owner.bind s.get?).any Entity.isRegistered

namespace RegistryM

variable {n : DeclaredName} {owner : Option EntityId}

/-- In a live scope a name that can be read is resolved by finding its owner. -/
theorem resolve_eq_bind (hl : scope.Live r) (hn : DeclaredName.read? name = some n) :
    resolve scope name r =
      (findOwner scope n >>= fun owner => do return .under scope n owner (← get)) r := by
  have hcheck : checkScope scope r = .ok () r := by
    cases scope with
    | detached => rfl
    | root => rfl
    | within id => rw [run_checkScope_within, if_pos (hl id rfl)]
  have hread : readName name r = .ok n r := by
    unfold readName
    rw [hn]
    rfl
  unfold resolve
  rw [run_bind, hcheck]
  simp only
  rw [run_bind, hread]
  rfl

theorem run_resolve (hl : scope.Live r) (hn : DeclaredName.read? name = some n)
    (ho : findOwner scope n r = .ok owner s) :
    resolve scope name r = .ok (.under scope n owner s) s := by
  rw [resolve_eq_bind hl hn, run_bind, ho]
  rfl

theorem exists_of_resolve_eq_ok (hres : resolve scope name r = .ok p s) :
    scope.Live r ∧ ∃ n owner, DeclaredName.read? name = some n ∧
      findOwner scope n r = .ok owner s ∧ p = .under scope n owner s := by
  unfold resolve at hres
  obtain ⟨_, r, hcheck, hreading⟩ := exists_of_bind_eq_ok hres
  obtain ⟨rfl, hl⟩ := (ends_checkScope _ scope name).of_ok hcheck
  obtain ⟨n, r, hread, hfinding⟩ := exists_of_bind_eq_ok hreading
  obtain ⟨rfl, hn⟩ := (ends_readName name hl).of_ok hread
  obtain ⟨owner, s, ho, hret⟩ := exists_of_bind_eq_ok hfinding
  cases hret
  exact ⟨hl, n, owner, hn, ho, rfl⟩

theorem findOwner_again (hr : r.Sound) (hn : ∀ l ∈ n.outer, l ≠ [])
    (ho : findOwner scope n r = .ok owner s) (hst : s.Evolves t) :
    findOwner scope n t = .ok owner t := by
  rw [run_findOwner] at ho ⊢
  split at ho
  · rename_i houter
    obtain ⟨o, s', hens, hret⟩ := exists_of_bind_eq_ok ho
    cases hret
    have hleads := (leads_ensureNamespaces hr hr.hasPath_root hn).of_ok hens
    have hrt : r.Evolves t := hleads.grows.evolves.trans hst
    rw [if_pos houter, run_bind, hrt.rootId_eq, hleads.again hr hr.hasPath_root hn hst]
    rfl
  · rename_i houter
    cases ho
    rw [if_neg houter, hst.rootId_eq]
    cases scope with
    | root => simp only [Scope.entity, hst.rootId_eq]
    | detached | within => rfl

/-- What has been resolved is resolved to the same place again, and nothing is added. -/
theorem resolve_again (hr : r.Sound) (hres : resolve scope name r = .ok p s) (hst : s.Evolves t) :
    resolve scope name t = .ok p t := by
  have hp := (ends_resolve hr scope name).of_ok hres
  have hrt : r.Evolves t := hp.grows.evolves.trans hst
  obtain ⟨hl, n, owner, hn, ho, rfl⟩ := exists_of_resolve_eq_ok hres
  rw [run_resolve (hrt.live hl) hn
    (findOwner_again hr (DeclaredName.parts_ne_nil hn).2 ho hst)]
  have hreg := hst.isRegistered_eq (hp.fits hr).owner_live
  simp only [Placement.under] at hreg ⊢
  rw [hreg]

/-- What has been interned under a path is found there again, also for another kind with the same
separator, and nothing is added. -/
theorem intern_again (hr : r.Sound) (hres : resolve scope name r = .ok p s)
    (hpath : p.path? kind s = some path) (hin : intern scope name kind r = .ok id t)
    (hsep : kind'.separator = kind.separator) (htu : t.Evolves u) :
    intern scope name kind' u = .ok id u := by
  have hp := (ends_resolve hr scope name).of_ok hres
  have hs := hp.grows.evolves.sound hr
  rw [run_intern, hres] at hin
  have ht := (ends_place hs (hp.fits hr)).of_ok hin
  rw [run_intern, resolve_again hr hres (ht.grows.evolves.trans htu)]
  exact ht.again hs (hp.fits hr) hpath hsep htu

/-- Interning starts with resolving, so it goes on in the same way when the name has been resolved. -/
theorem intern_of_resolved (hr : r.Sound) (hres : resolve scope name r = .ok p s)
    (kind : EntityKind) : intern scope name kind s = intern scope name kind r := by
  rw [run_intern, run_intern, resolve_again hr hres .refl, hres]

end RegistryM

namespace Registry

open RegistryM

/-- What a name has been resolved to it is resolved to again at any later time, and nothing changes.
Interning and declaring end in the same way, in handle, answers and state, whether the name has been
resolved before or not. -/
theorem Reachable.resolves_ahead (hr : r.Reachable) (hres : resolve scope name r = .ok p s) :
    (∀ ops, resolve scope name (s.run ops) = .ok p (s.run ops)) ∧
    (∀ kind requests,
      internWith scope name kind requests s = internWith scope name kind requests r) ∧
    ∀ d : Declaration, d.scope = scope → d.name = name → declare d s = declare d r := by
  have h := hr.sound
  have hs : s.Sound := ((ends_resolve h scope name).of_ok hres).grows.evolves.sound h
  refine ⟨fun ops => resolve_again h hres (evolves_run hs ops), ?_, ?_⟩
  · intro kind requests
    unfold internWith
    rw [run_bind, run_bind, intern_of_resolved h hres]
  · rintro d rfl rfl
    unfold declare
    rw [run_bind, run_bind, intern_of_resolved h hres]

/-- A name that goes through two namespaces, one of which there is already, in a scope that it does not
use. -/
theorem resolves_ahead_of_compound_name :
    ∃ s, resolve (.within ⟨1, 2⟩) ['A', ':', ':', 'B', ':', ':', 'c']
        ((create .latestDocumented 1).run
          [.intern .root ['A'] .type, .intern .detached ['X'] .ns]) =
          .ok ⟨some ⟨1, 3⟩, ['c'], true⟩ s ∧
      s.arena.size = 4 ∧
      ∀ kind requests, internWith (.within ⟨1, 2⟩) ['A', ':', ':', 'B', ':', ':', 'c'] kind requests s =
        internWith (.within ⟨1, 2⟩) ['A', ':', ':', 'B', ':', ':', 'c'] kind requests
          ((create .latestDocumented 1).run
            [.intern .root ['A'] .type, .intern .detached ['X'] .ns]) :=
  ⟨_, rfl, rfl, (Reachable.resolves_ahead ((Reachable.create _ 1).run _) rfl).2.1⟩

end Registry

end CodeCatalog
