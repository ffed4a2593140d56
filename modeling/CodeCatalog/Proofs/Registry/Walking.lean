import Mathlib.Data.List.Nodup
import Mathlib.Data.List.Perm.Subperm
import CodeCatalog.Proofs.Registry.Containment
import CodeCatalog.Proofs.Registry.Table

/-!
# Walks

A walk goes through all that an entity contains, every entity before what it contains itself, and
through each once.
-/
namespace CodeCatalog.Registry

open Relation

variable {r : Registry} {a b c o id : EntityId} {e e' : Entity} {n m depth : Nat}
  {ids stack : List EntityId} {es : List Entity}

/-! ## Chains of owners -/

theorem Contains.eq (h : r.Contains a c) (h' : r.Contains b c) : a = b := by
  obtain ⟨e, he, ho⟩ := h
  obtain ⟨e', he', ho'⟩ := h'
  cases he.symm.trans he'
  exact Option.some.inj (ho.symm.trans ho')

/-- As everyone has one owner, of two that contain a third one contains the other. -/
theorem comparable (h : ReflTransGen r.Contains a c) (h' : ReflTransGen r.Contains b c) :
    ReflTransGen r.Contains a b ∨ ReflTransGen r.Contains b a := by
  have htotal := ReflTransGen.total_of_right_unique
    (r := Function.swap r.Contains) (fun _ _ _ h h' => h.eq h')
    (reflTransGen_swap.mpr h) (reflTransGen_swap.mpr h')
  rcases htotal with hba | hab
  · exact .inr (reflTransGen_swap.mp hba)
  · exact .inl (reflTransGen_swap.mp hab)

theorem eq_of_owner_eq_none (h : ReflTransGen r.Contains a c) (he : r.get? c = some e)
    (ho : e.owner = none) : a = c := by
  rcases h.cases_tail with heq | ⟨b, _, e', he', ho'⟩
  · exact heq.symm
  · cases he.symm.trans he'
    rw [ho] at ho'
    cases ho'

theorem Rooted.reflTransGen (h : r.Rooted c) : ReflTransGen r.Contains r.rootId c := by
  induction h with
  | root => exact .refl
  | member he _ ho _ ih => exact ih.tail ⟨_, he, ho⟩

theorem children_of_none (h : r.get? id = none) : r.children id = [] := by
  rw [children, h]

theorem children_of_some (h : r.get? id = some e) : r.children id = e.children.filterMap r.get? := by
  rw [children, h]

theorem get?_eq_none_of_size_le (h : r.arena.size ≤ id.index) : r.get? id = none := by
  unfold get?
  split
  · exact Array.getElem?_eq_none h
  · rfl

namespace Sound

theorem index_le_of_reflTransGen (h : r.Sound) (hc : ReflTransGen r.Contains a c) :
    a.index ≤ c.index := by
  rcases reflTransGen_iff_eq_or_transGen.mp hc with rfl | hc
  · exact Nat.le_refl _
  · exact Nat.le_of_lt (h.index_lt_of_transGen hc)

theorem mem_children (h : r.Sound) :
    e ∈ r.children o ↔ r.get? e.id = some e ∧ e.owner = some o := by
  constructor
  · intro he
    cases heo : r.get? o with
    | none =>
        rw [children_of_none heo] at he
        cases he
    | some eo =>
        rw [children_of_some heo] at he
        obtain ⟨c, hc, hget⟩ := List.mem_filterMap.mp he
        rw [h.id_eq hget]
        exact ⟨hget, (h.mem_children_iff heo hget).mp hc⟩
  · rintro ⟨he, ho⟩
    obtain ⟨eo, heo⟩ := (h.owner_lt he ho).1
    rw [children_of_some heo]
    exact List.mem_filterMap.mpr ⟨e.id, (h.mem_children_iff heo he).mpr ho, he⟩

theorem contains_of_mem_children (h : r.Sound) (he : e ∈ r.children o) : r.Contains o e.id := by
  obtain ⟨hget, ho⟩ := h.mem_children.mp he
  exact ⟨e, hget, ho⟩

theorem index_lt_of_mem_children (h : r.Sound) (he : r.get? o = some e) (hc : c ∈ e.children) :
    o.index < c.index := by
  obtain ⟨e', he'⟩ := h.children_live he hc
  exact (h.owner_lt he' ((h.mem_children_iff he he').mp hc)).2

/-- Different children of one entity do not contain each other. -/
theorem not_contains_sibling (h : r.Sound) (ha : r.Contains o a) (hb : r.Contains o b)
    (hne : a ≠ b) : ¬ ReflTransGen r.Contains a b := by
  intro hab
  rcases hab.cases_tail with heq | ⟨o', hao, hob⟩
  · exact hne heq.symm
  · rw [hob.eq hb] at hao
    have hle := h.index_le_of_reflTransGen hao
    have hlt := h.index_lt_of_transGen (.single ha)
    omega

theorem children_distinct (h : r.Sound) (o : EntityId) :
    (r.children o).Pairwise (·.id ≠ ·.id) := by
  cases heo : r.get? o with
  | none =>
      rw [children_of_none heo]
      exact .nil
  | some eo =>
      rw [children_of_some heo, List.pairwise_filterMap]
      refine (h.children_sorted heo).imp ?_
      intro c c' hlt e he e' he' heq
      rw [h.id_eq he, h.id_eq he'] at heq
      subst heq
      rcases hlt with hlt | ⟨_, hlt⟩
      · exact Nat.lt_irrefl _ hlt
      · exact Nat.lt_irrefl _ hlt

/-- Whoever is alive is in a chain of owners that begins with someone in no namespace. -/
theorem exists_top (h : r.Sound) (he : r.get? c = some e) : ∃ top et, r.get? top = some et ∧
    et.owner = none ∧ ReflTransGen r.Contains top c := by
  induction hn : c.index using Nat.strongRecOn generalizing c e with
  | ind n ih =>
      cases ho : e.owner with
      | none => exact ⟨c, e, he, ho, .refl⟩
      | some o =>
          obtain ⟨⟨eo, heo⟩, hlt⟩ := h.owner_lt he ho
          obtain ⟨top, et, het, hnone, htop⟩ := ih o.index (hn ▸ hlt) heo rfl
          exact ⟨top, et, het, hnone, htop.tail ⟨e, he, ho⟩⟩

end Sound

/-! ## What is below an entity -/

/-- What an entity contains through at most so many levels, every entity before its children. -/
def below (r : Registry) : (depth : Nat) → EntityId → List Entity
  | 0, _ => []
  | depth + 1, id => (r.children id).flatMap fun e => e :: r.below depth e.id

/-- Beyond the end of the arena nothing is left. -/
theorem Sound.below_succ (h : r.Sound) (hd : r.arena.size ≤ id.index + depth) :
    r.below (depth + 1) id = r.below depth id := by
  induction depth generalizing id with
  | zero =>
      rw [below, below, children_of_none (get?_eq_none_of_size_le hd)]
      rfl
  | succ depth ih =>
      rw [below, below]
      refine List.flatMap_congr fun e he => ?_
      have hlt := h.index_lt_of_transGen (.single (h.contains_of_mem_children he))
      rw [ih (by omega)]

/-- There is one way to list what is below each entity. -/
theorem Sound.eq_below (h : r.Sound) {pre : EntityId → List Entity}
    (hpre : ∀ id, pre id = (r.children id).flatMap fun e => e :: pre e.id)
    (hd : r.arena.size ≤ id.index + depth) : pre id = r.below depth id := by
  induction depth generalizing id with
  | zero =>
      rw [hpre, children_of_none (get?_eq_none_of_size_le hd)]
      rfl
  | succ depth ih =>
      rw [hpre, below]
      refine List.flatMap_congr fun e he => ?_
      have hlt := h.index_lt_of_transGen (.single (h.contains_of_mem_children he))
      rw [ih (by omega)]

theorem Sound.of_mem_below (h : r.Sound) (he : e ∈ r.below depth o) :
    r.get? e.id = some e ∧ TransGen r.Contains o e.id := by
  induction depth generalizing o with
  | zero => cases he
  | succ depth ih =>
      obtain ⟨c, hc, he⟩ := List.mem_flatMap.mp he
      have hoc := h.contains_of_mem_children hc
      rcases List.mem_cons.mp he with rfl | he
      · exact ⟨(h.mem_children.mp hc).1, .single hoc⟩
      · obtain ⟨hget, hce⟩ := ih he
        exact ⟨hget, hce.head hoc⟩

/-- No entity comes after what it contains, and none comes twice. -/
theorem Sound.below_ordered (h : r.Sound) (depth : Nat) (o : EntityId) :
    (r.below depth o).Pairwise fun a b => ¬ ReflTransGen r.Contains b.id a.id := by
  induction depth generalizing o with
  | zero => exact .nil
  | succ depth ih =>
      have hblock : ∀ e, ∀ x ∈ e :: r.below depth e.id, ReflTransGen r.Contains e.id x.id := by
        intro e x hx
        rcases List.mem_cons.mp hx with rfl | hx
        · exact .refl
        · exact (h.of_mem_below hx).2.to_reflTransGen
      refine List.pairwise_flatMap.mpr ⟨?_, ?_⟩
      · intro e _
        refine List.pairwise_cons.mpr ⟨fun x hx hxe => ?_, ih e.id⟩
        have hlt := h.index_lt_of_transGen (h.of_mem_below hx).2
        have hle := h.index_le_of_reflTransGen hxe
        omega
      · -- what two children contain is apart, as neither contains the other
        refine (h.children_distinct o).imp_of_mem ?_
        intro e e' he he' hne x hx y hy hyx
        have hoe := h.contains_of_mem_children he
        have hoe' := h.contains_of_mem_children he'
        rcases comparable (hblock e x hx) ((hblock e' y hy).trans hyx) with hee | hee
        · exact h.not_contains_sibling hoe hoe' hne hee
        · exact h.not_contains_sibling hoe' hoe hne.symm hee

theorem Sound.below_nodup (h : r.Sound) (depth : Nat) (o : EntityId) :
    ((r.below depth o).map (·.id)).Nodup := by
  rw [List.Nodup, List.pairwise_map]
  refine (h.below_ordered depth o).imp ?_
  intro a b hab heq
  rw [heq] at hab
  exact hab .refl

theorem Sound.length_below_le (h : r.Sound) (depth : Nat) (o : EntityId) :
    (r.below depth o).length ≤ r.arena.size := by
  have hsub : r.below depth o ⊆ r.arena.toList := by
    intro e he
    have hget := (get?_eq_some_iff.mp (h.of_mem_below he).1).2
    rw [← Array.getElem?_toList] at hget
    exact List.mem_of_getElem? hget
  have hnodup := List.Nodup.of_map Entity.id (h.below_nodup depth o)
  have hle := (hnodup.subperm hsub).length_le
  rwa [Array.length_toList] at hle

/-! ## The loop of a walk -/

/-- A loop works off a stack, whose top is last. Each of the `n` steps takes one handle; if it is alive
its children are put on the stack, the first of them on top. -/
inductive WorksOff (r : Registry) : List EntityId → Nat → List Entity → Prop where
  | done : WorksOff r [] 0 []
  | skip {stack : List EntityId} {id : EntityId} {n : Nat} {es : List Entity}
      (he : r.get? id = none) (h : WorksOff r stack n es) : WorksOff r (stack ++ [id]) (n + 1) es
  | visit {stack : List EntityId} {id : EntityId} {e : Entity} {n : Nat} {es : List Entity}
      (he : r.get? id = some e) (h : WorksOff r (stack ++ e.children.reverse) n es) :
      WorksOff r (stack ++ [id]) (n + 1) (e :: es)

namespace WorksOff

/-- With enough steps a walk does the same as the loop. -/
theorem visit_eq (h : r.WorksOff stack n es) {steps : Nat} (hn : n ≤ steps) :
    r.visit steps stack.reverse = es := by
  induction h generalizing steps with
  | done => cases steps <;> rfl
  | skip he _ ih =>
      obtain ⟨steps, rfl⟩ := Nat.exists_eq_add_of_le' (Nat.one_le_of_lt hn)
      rw [List.reverse_append, List.reverse_singleton, List.singleton_append, Registry.visit, he]
      exact ih (Nat.le_of_succ_le_succ hn)
  | visit he _ ih =>
      obtain ⟨steps, rfl⟩ := Nat.exists_eq_add_of_le' (Nat.one_le_of_lt hn)
      rw [List.reverse_append, List.reverse_singleton, List.singleton_append, Registry.visit, he]
      have hrest := ih (Nat.le_of_succ_le_succ hn)
      rw [List.reverse_append, List.reverse_reverse] at hrest
      exact congrArg _ hrest

theorem unique (h : r.WorksOff stack n es) {es' : List Entity} (h' : r.WorksOff stack m es') :
    es' = es := by
  rw [← h.visit_eq (Nat.le_max_left n m), ← h'.visit_eq (Nat.le_max_right n m)]

/-- No handle that the loop takes is dead, if none on the stack is. -/
theorem length_eq (h : r.WorksOff stack n es) (hr : r.Sound)
    (hlive : ∀ id ∈ stack, ∃ e, r.get? id = some e) : n = es.length := by
  induction h with
  | done => rfl
  | @skip stack id n es he _ ih =>
      obtain ⟨e, he'⟩ := hlive id (by simp)
      rw [he] at he'
      cases he'
  | @visit stack id e n es he _ ih =>
      rw [List.length_cons, ih]
      intro c hc
      rcases List.mem_append.mp hc with hc | hc
      · exact hlive c (List.mem_append_left _ hc)
      · exact hr.children_live he (List.mem_reverse.mp hc)

/-- The loop works off handles one after the other, if it works off the children of each. -/
theorem append_reverse (hr : r.Sound) {pre : EntityId → List Entity}
    (hpre : ∀ id ∈ ids, ∀ e stack n es, r.get? id = some e → r.WorksOff stack n es →
      ∃ m, r.WorksOff (stack ++ e.children.reverse) m (pre id ++ es))
    (h : r.WorksOff stack n es) : ∃ m, r.WorksOff (stack ++ ids.reverse) m
      ((ids.filterMap r.get?).flatMap (fun e => e :: pre e.id) ++ es) := by
  induction ids with
  | nil =>
      rw [List.reverse_nil, List.append_nil]
      exact ⟨n, h⟩
  | cons id ids ih =>
      obtain ⟨m, hm⟩ := ih fun id hid => hpre id (List.mem_cons_of_mem _ hid)
      rw [List.reverse_cons, ← List.append_assoc]
      cases he : r.get? id with
      | none =>
          rw [List.filterMap_cons_none he]
          exact ⟨m + 1, .skip he hm⟩
      | some e =>
          obtain ⟨m', hm'⟩ := hpre id List.mem_cons_self e _ _ _ he hm
          rw [List.filterMap_cons_some he, List.flatMap_cons, hr.id_eq he, List.cons_append,
            List.cons_append, List.append_assoc (pre id)]
          exact ⟨m' + 1, .visit he hm'⟩

end WorksOff

theorem Sound.worksOff_below (h : r.Sound) (hd : r.arena.size ≤ id.index + depth)
    (he : r.get? id = some e) (hw : r.WorksOff stack n es) :
    ∃ m, r.WorksOff (stack ++ e.children.reverse) m (r.below depth id ++ es) := by
  induction depth generalizing id e stack n es with
  | zero =>
      rw [get?_eq_none_of_size_le hd] at he
      cases he
  | succ depth ih =>
      rw [below, children_of_some he]
      refine WorksOff.append_reverse h ?_ hw
      intro c hc ec stack n es hec hw
      have hlt := h.index_lt_of_mem_children he hc
      exact ih (by omega) hec hw

theorem Sound.worksOff_children (h : r.Sound) (he : r.get? id = some e) :
    ∃ n, r.WorksOff e.children.reverse n (r.below r.arena.size id) := by
  obtain ⟨n, hn⟩ := h.worksOff_below (Nat.le_add_left r.arena.size id.index) he .done
  rw [List.nil_append, List.append_nil] at hn
  exact ⟨n, hn⟩

theorem walk_of_none (h : r.get? id = none) : r.walk id = [] := by
  rw [walk, h]

theorem Sound.walk_eq_below (h : r.Sound) (id : EntityId) :
    r.walk id = r.below r.arena.size id := by
  cases he : r.get? id with
  | none =>
      rw [walk_of_none he]
      cases r.arena.size with
      | zero => rfl
      | succ size =>
          rw [below, children_of_none he]
          rfl
  | some e =>
      obtain ⟨n, hn⟩ := h.worksOff_children he
      have hlen := hn.length_eq h fun c hc => h.children_live he (List.mem_reverse.mp hc)
      have hsteps : n ≤ r.arena.size := hlen ▸ h.length_below_le r.arena.size id
      have hvisit := hn.visit_eq hsteps
      rw [List.reverse_reverse] at hvisit
      rw [walk, he]
      exact hvisit

theorem Sound.walk_eq (h : r.Sound) (id : EntityId) :
    r.walk id = (r.children id).flatMap fun e => e :: r.walk e.id := by
  rw [h.walk_eq_below, ← h.below_succ (Nat.le_add_left _ _), below]
  refine List.flatMap_congr fun e _ => ?_
  rw [h.walk_eq_below]

theorem Sound.mem_walk_iff (h : r.Sound) :
    e ∈ r.walk o ↔ r.get? e.id = some e ∧ TransGen r.Contains o e.id := by
  constructor
  · intro he
    rw [h.walk_eq_below] at he
    exact h.of_mem_below he
  · rintro ⟨he, hoe⟩
    induction hoe using TransGen.head_induction_on with
    | single hoe =>
        obtain ⟨e', he', ho⟩ := hoe
        cases he.symm.trans he'
        rw [h.walk_eq]
        exact List.mem_flatMap.mpr ⟨e, h.mem_children.mpr ⟨he, ho⟩, List.mem_cons_self⟩
    | head hoc _ ih =>
        obtain ⟨c, hc, ho⟩ := hoc
        have hid := h.id_eq hc
        subst hid
        rw [h.walk_eq]
        exact List.mem_flatMap.mpr ⟨c, h.mem_children.mpr ⟨hc, ho⟩, List.mem_cons_of_mem _ ih⟩

/-! ## The whole walk -/

/-- A walk lists all that an entity contains, every entity before its children, and the children in the
order they came. -/
structure WalksInPreorder (r : Registry) : Prop where
  ends : ∀ id e, r.get? id = some e → ∃ n, r.WorksOff e.children.reverse n (r.walk id)
  eq_of_ends : ∀ id e n es, r.get? id = some e → r.WorksOff e.children.reverse n es → es = r.walk id
  walk_eq : ∀ id, r.walk id = (r.children id).flatMap fun e => e :: r.walk e.id
  eq_walk : ∀ pre : EntityId → List Entity,
    (∀ id, pre id = (r.children id).flatMap fun e => e :: pre e.id) → pre = r.walk
  mem_iff : ∀ id e, e ∈ r.walk id ↔ r.get? e.id = some e ∧ TransGen r.Contains id e.id
  nodup : ∀ id, ((r.walk id).map (·.id)).Nodup
  owner_first : ∀ (id : EntityId) (i j : Nat) a b, (r.walk id)[i]? = some a →
    (r.walk id)[j]? = some b → TransGen r.Contains a.id b.id → i < j
  not_self : ∀ id, ∀ e ∈ r.walk id, e.id ≠ id
  registered : ∀ e ∈ r.entities, e ∈ r.walk r.rootId
  omitted_iff : ∀ id e, r.get? id = some e → (e ∉ r.walk r.rootId ↔ id = r.rootId ∨
    ∃ top et, r.get? top = some et ∧ top ≠ r.rootId ∧ et.owner = none ∧
      ReflTransGen r.Contains top id)
  dead : ∀ id, r.contains id = false → r.walk id = []

theorem Sound.owner_root (h : r.Sound) (he : r.get? r.rootId = some e) : e.owner = none := by
  obtain ⟨e', he', hi⟩ := h.get?_root
  cases he.symm.trans he'
  exact congrArg Identity.owner hi

theorem Sound.walk_owner_first (h : r.Sound) {i j : Nat} {x y : Entity}
    (hx : (r.walk id)[i]? = some x) (hy : (r.walk id)[j]? = some y)
    (hc : TransGen r.Contains x.id y.id) : i < j := by
  rw [h.walk_eq_below] at hx hy
  have hsorted := h.below_ordered r.arena.size id
  rcases Nat.lt_trichotomy i j with hlt | rfl | hlt
  · exact hlt
  · cases hx.symm.trans hy
    exact absurd (h.index_lt_of_transGen hc) (Nat.lt_irrefl _)
  · obtain ⟨hi, rfl⟩ := List.getElem?_eq_some_iff.mp hx
    obtain ⟨hj, rfl⟩ := List.getElem?_eq_some_iff.mp hy
    exact absurd hc.to_reflTransGen (List.pairwise_iff_getElem.mp hsorted j i hj hi hlt)

theorem Sound.mem_walk_root_iff (h : r.Sound) (he : r.get? id = some e) (hne : id ≠ r.rootId) :
    e ∈ r.walk r.rootId ↔ ReflTransGen r.Contains r.rootId id := by
  have hid := h.id_eq he
  subst hid
  rw [h.mem_walk_iff, reflTransGen_iff_eq_or_transGen]
  constructor
  · rintro ⟨_, hc⟩
    exact .inr hc
  · rintro (heq | hc)
    · exact absurd heq hne
    · exact ⟨he, hc⟩

/-- Someone in no namespace begins the chain of owners of everyone whom a walk of the root omits. -/
theorem Sound.not_mem_walk_root_iff (h : r.Sound) (he : r.get? id = some e) :
    e ∉ r.walk r.rootId ↔ id = r.rootId ∨ ∃ top et, r.get? top = some et ∧ top ≠ r.rootId ∧
      et.owner = none ∧ ReflTransGen r.Contains top id := by
  obtain ⟨eroot, heroot, _⟩ := h.get?_root
  by_cases hroot : id = r.rootId
  · subst hroot
    refine iff_of_true (fun hmem => ?_) (.inl rfl)
    have hlt := h.index_lt_of_transGen (h.mem_walk_iff.mp hmem).2
    rw [h.id_eq he] at hlt
    exact Nat.lt_irrefl _ hlt
  · rw [h.mem_walk_root_iff he hroot]
    constructor
    · intro hnot
      obtain ⟨top, et, het, ho, hc⟩ := h.exists_top he
      refine .inr ⟨top, et, het, ?_, ho, hc⟩
      rintro rfl
      exact hnot hc
    · rintro (heq | ⟨top, et, het, hne, ho, hc⟩) hrooted
      · exact hroot heq
      · rcases comparable hc hrooted with hc | hc
        · exact hne (eq_of_owner_eq_none hc heroot (h.owner_root heroot))
        · exact hne (eq_of_owner_eq_none hc het ho).symm

theorem Reachable.walks_in_preorder (hr : r.Reachable) : r.WalksInPreorder := by
  have h := hr.sound
  have hends : ∀ id e, r.get? id = some e → ∃ n, r.WorksOff e.children.reverse n (r.walk id) := by
    intro id e he
    rw [h.walk_eq_below]
    exact h.worksOff_children he
  constructor
  case ends => exact hends
  case eq_of_ends =>
    intro id e n es he hes
    obtain ⟨m, hm⟩ := hends id e he
    exact hm.unique hes
  case walk_eq => exact h.walk_eq
  case eq_walk =>
    intro pre hpre
    funext id
    rw [h.walk_eq_below]
    exact h.eq_below hpre (Nat.le_add_left _ _)
  case mem_iff => exact fun id e => h.mem_walk_iff
  case nodup =>
    intro id
    rw [h.walk_eq_below]
    exact h.below_nodup _ _
  case owner_first => exact fun id i j a b ha hb => h.walk_owner_first ha hb
  case not_self =>
    rintro id e he rfl
    exact Nat.lt_irrefl _ (h.index_lt_of_transGen (h.mem_walk_iff.mp he).2)
  case registered =>
    intro e he
    obtain ⟨hget, hne, hreg⟩ := h.mem_entities_iff.mp he
    obtain ⟨p, hp⟩ := Option.isSome_iff_exists.mp hreg
    exact (h.mem_walk_root_iff hget hne).mpr (h.rooted ⟨e, hget, hp⟩).reflTransGen
  case omitted_iff => exact fun id e => h.not_mem_walk_root_iff
  case dead =>
    intro id hid
    refine walk_of_none (Option.eq_none_iff_forall_ne_some.mpr fun e he => ?_)
    rw [contains_iff.mpr ⟨e, he⟩] at hid
    cases hid

/-- Two namespaces with entities made by turns, and a namespace outside the root with an entity in it. -/
theorem walks_in_preorder_of_detached_owner :
    (((Registry.create .latestDocumented 1).reset 2).run
      [.intern .root ['A', ':', ':', 'x'] .type, .intern .root ['B', ':', ':', 'y'] .type,
        .intern .root ['A', ':', ':', 'z'] .type, .intern .detached ['L'] .type,
        .intern (.within ⟨2, 6⟩) ['m'] .instanceRoutine]).WalksInPreorder ∧
    ((((Registry.create .latestDocumented 1).reset 2).run
      [.intern .root ['A', ':', ':', 'x'] .type, .intern .root ['B', ':', ':', 'y'] .type,
        .intern .root ['A', ':', ':', 'z'] .type, .intern .detached ['L'] .type,
        .intern (.within ⟨2, 6⟩) ['m'] .instanceRoutine]).walk ⟨2, 0⟩).map (·.id.index) =
      [1, 2, 5, 3, 4] :=
  ⟨Reachable.walks_in_preorder (((Reachable.create _ 1).reset 2).run _), by decide⟩

end CodeCatalog.Registry
