import CodeCatalog.Proofs.Registry.Batching
import CodeCatalog.Proofs.Registry.Containment

/-!
# Handles that a registry gives

Whatever a registry gives is alive in it, and the handles follow each other without gaps.
-/
namespace CodeCatalog

open Registry

variable {r s : Registry} {c id o : EntityId} {e : Entity} {n : Nat}

namespace Registry

/-- A registry gives the handles of its root, of what it finds under a path, and the ones that its
entities hold. -/
inductive Shows (r : Registry) : EntityId → Prop where
  | root : Shows r r.rootId
  | found {path : Text} {id : EntityId} (h : r.at? path = some id) : Shows r id
  | own {id : EntityId} {e : Entity} (he : r.get? id = some e) : Shows r e.id
  | owner {id o : EntityId} {e : Entity} (he : r.get? id = some e) (ho : e.owner = some o) : Shows r o
  | child {id c : EntityId} {e : Entity} (he : r.get? id = some e) (hc : c ∈ e.children) : Shows r c

theorem Shows.contains (h : r.Shows id) (hr : r.Sound) : r.contains id = true := by
  rw [contains_iff]
  cases h with
  | root =>
      obtain ⟨e, he, _⟩ := hr.get?_root
      exact ⟨e, he⟩
  | found h =>
      obtain ⟨e, he, _⟩ := hr.hasPath_of_at? h
      exact ⟨e, he⟩
  | @own id e he =>
      rw [hr.id_eq he]
      exact ⟨e, he⟩
  | owner he ho => exact (hr.owner_lt he ho).1
  | child he hc => exact hr.children_live he hc

theorem contains_update (r : Registry) (id j : EntityId) (f : Entity → Entity) :
    (r.update id f).contains j = r.contains j := by
  unfold contains
  rw [get?_update]
  split
  · rw [Option.isSome_map]
  · rfl

theorem contains_iff_lt :
    r.contains id = true ↔ id.generation = r.generation ∧ id.index < r.arena.size := by
  rw [contains_iff]
  constructor
  · rintro ⟨e, he⟩
    obtain ⟨hg, hk⟩ := get?_eq_some_iff.mp he
    exact ⟨hg, (Array.getElem?_eq_some_iff.mp hk).1⟩
  · rintro ⟨hg, hlt⟩
    exact ⟨_, get?_eq_some_iff.mpr ⟨hg, Array.getElem?_eq_getElem hlt⟩⟩

/-- The handles of all entities from a position in the arena on, in the order they were made. -/
def handlesFrom (r : Registry) (n : Nat) : List EntityId :=
  (r.arena.toList.drop n).map (·.id)

theorem Sound.handlesFrom_eq (h : r.Sound) (n : Nat) :
    r.handlesFrom n = (List.range' n (r.arena.size - n)).map (⟨r.generation, ·⟩) := by
  apply List.ext_getElem
  · simp [handlesFrom]
  · intro i hi _
    simp only [handlesFrom, List.getElem_map, List.getElem_drop, List.getElem_range', Nat.one_mul,
      Array.getElem_toList]
    simp only [handlesFrom, List.length_map, List.length_drop, Array.length_toList] at hi
    have hlt : n + i < r.arena.size := by omega
    exact h.id_eq (get?_eq_some_iff.mpr ⟨rfl, Array.getElem?_eq_getElem hlt⟩)

theorem Sound.mem_handlesFrom (h : r.Sound) :
    id ∈ r.handlesFrom n ↔ r.contains id = true ∧ n ≤ id.index := by
  rw [h.handlesFrom_eq, contains_iff_lt, List.mem_map]
  simp only [List.mem_range'_1]
  constructor
  · rintro ⟨i, hi, rfl⟩
    exact ⟨⟨rfl, by simp only; omega⟩, hi.1⟩
  · rintro ⟨⟨hg, hlt⟩, hn⟩
    refine ⟨id.index, ⟨hn, by omega⟩, ?_⟩
    rw [← hg]

theorem Sound.handlesFrom_sorted (h : r.Sound) (n : Nat) :
    (r.handlesFrom n).Pairwise (·.index < ·.index) := by
  rw [h.handlesFrom_eq, List.pairwise_map]
  exact List.pairwise_lt_range'

end Registry

/-! ## What operations give -/

namespace RegistryM

theorem contains_of_resolve (hr : r.Sound) (scope : Scope) (name : Text) :
    (resolve scope name).Ends r (fun p s => ∀ o, p.owner = some o → s.contains o = true)
      (fun _ _ => True) := by
  refine (ends_resolve hr scope name).mono (fun p s hp o ho => ?_) (fun _ _ _ => trivial)
  exact contains_iff.mpr ((hp.fits hr).owner_live o ho)

theorem contains_of_intern (hr : r.Sound) (scope : Scope) (name : Text) (kind : EntityKind) :
    (intern scope name kind).Ends r (fun id s => s.contains id = true) (fun _ _ => True) :=
  (Ends.run _ r).mono (fun _ _ h => contains_iff.mpr (live_of_intern hr h)) (fun _ _ _ => trivial)

theorem contains_of_internWith (hr : r.Sound) (scope : Scope) (name : Text) (kind : EntityKind)
    (requests : List EntityRequest) :
    (internWith scope name kind requests).Ends r (fun given s => s.contains given.1 = true)
      (fun _ _ => True) := by
  refine (Ends.run (intern scope name kind) r).weaken.bind ?_
  intro id s hs
  have hid := (contains_of_intern hr scope name kind).of_ok hs
  have hrs : r.Evolves s := (evolving_intern scope name kind r hr).of_ok hs
  refine (evolving_perform id requests s (hrs.sound hr)).weaken.bind ?_
  intro answers t hst
  exact hst.contains hid

theorem contains_of_declare (hr : r.Sound) (d : Declaration) :
    (declare d).Ends r (fun id s => s.contains id = true) (fun _ _ => True) := by
  refine (contains_of_intern hr d.scope d.name d.kind).bind ?_
  intro id s hid
  exact (contains_update s id id _).trans hid

/-- What has been declared stays alive when more is declared. -/
theorem contains_of_declareAll (hr : r.Sound) (ds : List Declaration) :
    (declareAll ds).Ends r (fun ids s => ∀ id ∈ ids, s.contains id = true) (fun _ _ => True) := by
  refine (Ends.run _ r).mono (fun ids t ht => ?_) (fun _ _ _ => trivial)
  have htakes := declareAll_eq_ok_iff.mp ht
  clear ht
  induction htakes with
  | nil => exact nofun
  | cons hd hs ih =>
      have hrs := (evolving_declare _ _ hr).of_ok hd
      have hst := hs.evolves (hrs.sound hr)
      exact List.forall_mem_cons.mpr
        ⟨hst.contains ((contains_of_declare hr _).of_ok hd), ih (hrs.sound hr)⟩

end RegistryM

namespace Operation

open RegistryM

theorem contains_of_program (op : Operation) (hr : r.Sound) :
    op.program.Ends r (fun ids s => ∀ id ∈ ids, s.contains id = true) (fun _ _ => True) := by
  cases op with
  | resolve scope name =>
      refine (contains_of_resolve hr scope name).bind ?_
      intro p s hp id hid
      exact hp id (Option.mem_toList.mp hid)
  | intern scope name kind =>
      refine (contains_of_intern hr scope name kind).bind ?_
      intro id s hid
      exact List.forall_mem_singleton.mpr hid
  | internWith scope name kind requests =>
      refine (contains_of_internWith hr scope name kind requests).bind ?_
      intro given s hid
      exact List.forall_mem_singleton.mpr hid
  | declare d =>
      refine (contains_of_declare hr d).bind ?_
      intro id s hid
      exact List.forall_mem_singleton.mpr hid
  | declareAll ds => exact contains_of_declareAll hr ds
  | perform id requests =>
      refine (evolving_perform id requests r hr).weaken.bind ?_
      intro answers s _
      exact nofun

/-- The scope that an operation looks at first. -/
def scope? : Operation → Option Scope
  | resolve scope _ => some scope
  | intern scope _ _ => some scope
  | internWith scope _ _ _ => some scope
  | declare d => some d.scope
  | declareAll ds => ds.head?.map (·.scope)
  | perform .. => none

/-- A dead handle is refused as a scope, and nothing changes. -/
theorem program_of_dead {op : Operation} (hr : r.Sound) (hop : op.scope? = some (.within id))
    (hdead : r.contains id = false) :
    op.program r = .error (.invalidNamespace (.deadHandle id)) r := by
  have hdeclare : ∀ d : Declaration, d.scope = .within id →
      RegistryM.declare d r = .error (.invalidNamespace (.deadHandle id)) r := by
    intro d hd
    have hguard := guarded_declare hr d
    rw [hd] at hguard
    exact hguard.error_of_dead hdead
  cases op with
  | resolve scope name =>
      cases hop
      exact bind_of_error ((guarded_resolve hr _ name).error_of_dead hdead) _
  | intern scope name kind =>
      cases hop
      exact bind_of_error ((guarded_intern hr _ name kind).error_of_dead hdead) _
  | internWith scope name kind requests =>
      cases hop
      exact bind_of_error ((guarded_internWith hr _ name kind requests).error_of_dead hdead) _
  | declare d => exact bind_of_error (hdeclare d (Option.some.inj hop)) _
  | declareAll ds =>
      cases ds with
      | nil => cases hop
      | cons d ds => exact bind_of_error (hdeclare d (Option.some.inj hop)) _
  | perform => cases hop

end Operation

end CodeCatalog
