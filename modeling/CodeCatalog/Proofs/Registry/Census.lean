import CodeCatalog.Proofs.Path
import CodeCatalog.Registry.Basic

/-!
# The census of a registry

What is fixed about an entity when it is made, for all entities in the order they came. The census
never shrinks and no entry of it changes, so what was so when an entity came stays so. The table and
the children of every entity can be read off it.
-/
namespace CodeCatalog

/-- What is fixed about an entity when it is made. -/
structure Identity where
  id : EntityId
  kind : EntityKind
  name : Text
  path : Option Text
  owner : Option EntityId
deriving DecidableEq

def Entity.identity (e : Entity) : Identity :=
  ⟨e.id, e.kind, e.name, e.path, e.owner⟩

def Registry.census (r : Registry) : List Identity :=
  r.arena.toList.map Entity.identity

/-! ## What a census may hold -/

/-- Where an entity may come after others. A path is that of its owner, extended by its own kind and
name, and nobody has had it before. -/
structure Admissible (g : Nat) (earlier : List Identity) (i : Identity) : Prop where
  id : i.id = ⟨g, earlier.length⟩
  name_ne_nil : i.name ≠ []
  owner : ∀ o, i.owner = some o → ∃ j ∈ earlier, j.id = o
  path : ∀ p, i.path = some p → ∃ j ∈ earlier, i.owner = some j.id ∧
    ∃ q, j.path = some q ∧ p = Path.member q i.kind i.name
  fresh : ∀ p, i.path = some p → ∀ j ∈ earlier, j.path ≠ some p

/-- The root, and then entities each of which could come when it came. -/
inductive Census (g : Nat) : List Identity → Prop where
  | root (policy : CanonicalPolicy) : Census g [(Registry.rootEntity policy g).identity]
  | snoc {is : List Identity} {i : Identity} (h : Census g is) (hi : Admissible g is i) :
      Census g (is ++ [i])

namespace Census

variable {g k : Nat} {is : List Identity} {i j : Identity} {p : Text}

theorem head (h : Census g is) : is[0]? = some ⟨⟨g, 0⟩, .ns, ['r', 'o', 'o', 't'], some [], none⟩ := by
  induction h with
  | root policy => rfl
  | snoc h hi ih =>
      have hlt := (List.getElem?_eq_some_iff.mp ih).1
      rw [List.getElem?_append_left hlt]
      exact ih

theorem ne_nil (h : Census g is) : is ≠ [] := by
  intro he
  have hh := h.head
  simp [he] at hh

/-- Whoever is not the root was admissible after those before it. -/
theorem admissible (h : Census g is) (hk : is[k]? = some i) (h0 : k ≠ 0) :
    Admissible g (is.take k) i := by
  induction h with
  | root policy =>
      have hlt := (List.getElem?_eq_some_iff.mp hk).1
      simp only [List.length_singleton] at hlt
      omega
  | @snoc is a h ha ih =>
      by_cases hlt : k < is.length
      · rw [List.getElem?_append_left hlt] at hk
        rw [List.take_append_of_le_length (Nat.le_of_lt hlt)]
        exact ih hk
      · have hlen := (List.getElem?_eq_some_iff.mp hk).1
        simp only [List.length_append, List.length_singleton] at hlen
        have he : k = is.length := by omega
        subst he
        simp only [List.getElem?_concat_length, Option.some.injEq] at hk
        subst hk
        rw [List.take_left']
        · exact ha
        · rfl

theorem id_eq (h : Census g is) (hk : is[k]? = some i) : i.id = ⟨g, k⟩ := by
  by_cases h0 : k = 0
  · subst h0
    have hh := h.head
    rw [hk, Option.some.injEq] at hh
    rw [hh]
  · have ha := (h.admissible hk h0).id
    have hlt := (List.getElem?_eq_some_iff.mp hk).1
    rwa [List.length_take, Nat.min_eq_left (Nat.le_of_lt hlt)] at ha

theorem getElem?_of_mem (h : Census g is) (hi : i ∈ is) : is[i.id.index]? = some i := by
  obtain ⟨k, hk⟩ := List.getElem?_of_mem hi
  rw [h.id_eq hk]
  exact hk

theorem generation_of_mem (h : Census g is) (hi : i ∈ is) : i.id.generation = g := by
  obtain ⟨k, hk⟩ := List.getElem?_of_mem hi
  rw [h.id_eq hk]

theorem index_lt (h : Census g is) (hi : i ∈ is) : i.id.index < is.length :=
  (List.getElem?_eq_some_iff.mp (h.getElem?_of_mem hi)).1

theorem owner_lt (h : Census g is) (hi : i ∈ is) {o : EntityId} (ho : i.owner = some o) :
    ∃ j ∈ is, j.id = o ∧ o.index < i.id.index := by
  obtain ⟨k, hk⟩ := List.getElem?_of_mem hi
  have hid := h.id_eq hk
  by_cases h0 : k = 0
  · subst h0
    have hh := h.head
    rw [hk, Option.some.injEq] at hh
    rw [hh] at ho
    cases ho
  · obtain ⟨j, hj, rfl⟩ := (h.admissible hk h0).owner o ho
    obtain ⟨m, hm⟩ := List.getElem?_of_mem hj
    rw [List.getElem?_take] at hm
    split at hm
    · rename_i hlt
      refine ⟨j, List.mem_of_mem_take hj, rfl, ?_⟩
      rw [h.id_eq hm, hid]
      exact hlt
    · cases hm

theorem lt_of_path_eq (h : Census g is) {m : Nat} (hk : is[k]? = some i) (hm : is[m]? = some j)
    (hi : i.path = some p) (hj : j.path = some p) : ¬ k < m := by
  intro hlt
  refine (h.admissible hm (by omega)).fresh p hj i ?_ hi
  exact List.mem_of_getElem? (i := k) (by rw [List.getElem?_take, if_pos hlt]; exact hk)

theorem eq_of_path_eq (h : Census g is) (hi : i ∈ is) (hj : j ∈ is) (hpi : i.path = some p)
    (hpj : j.path = some p) : i = j := by
  obtain ⟨k, hk⟩ := List.getElem?_of_mem hi
  obtain ⟨m, hm⟩ := List.getElem?_of_mem hj
  have hkm := h.lt_of_path_eq hk hm hpi hpj
  have hmk := h.lt_of_path_eq hm hk hpj hpi
  have he : k = m := by omega
  subst he
  rw [hk, Option.some.injEq] at hm
  exact hm

end Census

/-! ## What is read off a census -/

/-- The registered entities by path; the root comes first in a census and is left out. -/
def registrations (is : List Identity) : List (Text × EntityId) :=
  is.tail.filterMap fun i => i.path.map fun p => (p, i.id)

/-- The entities in one, in the order they came. -/
def members (is : List Identity) (o : EntityId) : List EntityId :=
  (is.filter fun i => i.owner = some o).map Identity.id

theorem registrations_append {is : List Identity} (h : is ≠ []) (js : List Identity) :
    registrations (is ++ js) =
      registrations is ++ js.filterMap fun i => i.path.map fun p => (p, i.id) := by
  unfold registrations
  rw [List.tail_append_of_ne_nil h, List.filterMap_append]

theorem registrations_concat {is : List Identity} (h : is ≠ []) (i : Identity) :
    registrations (is ++ [i]) =
      registrations is ++ (i.path.map fun p => (p, i.id)).toList := by
  rw [registrations_append h]
  cases hp : i.path <;> simp [hp]

theorem members_append (is js : List Identity) (o : EntityId) :
    members (is ++ js) o = members is o ++ members js o := by
  unfold members
  rw [List.filter_append, List.map_append]

theorem members_concat (is : List Identity) (i : Identity) (o : EntityId) :
    members (is ++ [i]) o = members is o ++ if i.owner = some o then [i.id] else [] := by
  rw [members_append]
  by_cases h : i.owner = some o <;> simp [members, h]

theorem mem_members {is : List Identity} {o c : EntityId} :
    c ∈ members is o ↔ ∃ i ∈ is, i.owner = some o ∧ i.id = c := by
  simp [members, and_assoc]

namespace Census

variable {g : Nat} {is : List Identity} {p : Text} {o c : EntityId}

/-- Later entities have greater handles, and other paths. -/
theorem pairwise (h : Census g is) :
    is.Pairwise fun i j => i.id < j.id ∧ ∀ p, i.path = some p → j.path ≠ some p := by
  induction h with
  | root policy => exact List.pairwise_singleton _ _
  | @snoc is j h hj ih =>
      refine List.pairwise_append.mpr ⟨ih, List.pairwise_singleton _ _, ?_⟩
      intro i hi j' hj'
      cases List.mem_singleton.mp hj'
      constructor
      · rw [hj.id]
        exact Or.inr ⟨h.generation_of_mem hi, h.index_lt hi⟩
      · intro p hp hp'
        exact hj.fresh p hp' i hi hp

theorem members_sorted (h : Census g is) (o : EntityId) : (members is o).Pairwise (· < ·) := by
  unfold members
  rw [List.pairwise_map]
  exact (h.pairwise.imp And.left).filter _

theorem registrations_pairwise (h : Census g is) :
    (registrations is).Pairwise fun a b => a.2 < b.2 ∧ a.1 ≠ b.1 := by
  unfold registrations
  rw [List.pairwise_filterMap]
  refine h.pairwise.tail.imp ?_
  intro i j hij a ha b hb
  obtain ⟨p, hp, rfl⟩ := Option.map_eq_some_iff.mp ha
  obtain ⟨q, hq, rfl⟩ := Option.map_eq_some_iff.mp hb
  refine ⟨hij.1, ?_⟩
  rintro rfl
  exact hij.2 p hp hq

theorem mem_tail_iff (h : Census g is) {i : Identity} :
    i ∈ is.tail ↔ i ∈ is ∧ i.id ≠ ⟨g, 0⟩ := by
  have hh := h.head
  have hp := h.pairwise
  cases is with
  | nil => simp at hh
  | cons root rest =>
      simp only [List.getElem?_cons_zero, Option.some.injEq] at hh
      constructor
      · intro hi
        refine ⟨List.mem_cons_of_mem _ hi, ?_⟩
        have hlt := ((List.pairwise_cons.mp hp).1 i hi).1
        intro he
        rw [he, hh] at hlt
        rcases hlt with hlt | hlt
        · exact Nat.lt_irrefl _ hlt
        · exact Nat.lt_irrefl _ hlt.2
      · rintro ⟨hi, hne⟩
        rcases List.mem_cons.mp hi with rfl | hi
        · rw [hh] at hne
          exact absurd rfl hne
        · exact hi

theorem mem_registrations (h : Census g is) :
    (p, c) ∈ registrations is ↔ c ≠ ⟨g, 0⟩ ∧ ∃ i ∈ is, i.id = c ∧ i.path = some p := by
  unfold registrations
  simp only [List.mem_filterMap, h.mem_tail_iff, Option.map_eq_some_iff, Prod.mk.injEq]
  constructor
  · rintro ⟨i, ⟨hi, hne⟩, q, hq, rfl, rfl⟩
    exact ⟨hne, i, hi, rfl, hq⟩
  · rintro ⟨hne, i, hi, rfl, hp⟩
    exact ⟨i, ⟨hi, hne⟩, p, hp, rfl, rfl⟩

end Census

end CodeCatalog
