import Mathlib.Data.List.Basic
import CodeCatalog.Proofs.Registry.Reachable
import CodeCatalog.Registry.Traverse

/-!
# The table and the arena

In every reachable registry the table is an index of the arena: the registered entities but the root,
each under its own path, in the order they were made.
-/
namespace CodeCatalog.Registry

/-! ## The registered entities -/

namespace Sound

variable {r : Registry} {id o : EntityId} {e e' : Entity} {p : Text}

theorem get?_id (h : r.Sound) (he : e ∈ r.arena.toList) : r.get? e.id = some e := by
  obtain ⟨k, hk⟩ := List.getElem?_of_mem he
  have hc : r.census[k]? = some e.identity := by rw [Registry.census, List.getElem?_map, hk]; rfl
  have hid : e.id = ⟨r.generation, k⟩ := h.census.id_eq hc
  rw [hid]
  exact get?_eq_some_iff.mpr ⟨rfl, by rwa [Array.getElem?_toList] at hk⟩

theorem mem_tail_iff (h : r.Sound) :
    e ∈ r.arena.toList.tail ↔ r.get? e.id = some e ∧ e.id ≠ r.rootId := by
  constructor
  · intro he
    refine ⟨h.get?_id (List.mem_of_mem_tail he), ?_⟩
    have hi : e.identity ∈ r.census.tail := by
      rw [Registry.census, ← List.map_tail]
      exact List.mem_map_of_mem he
    exact (h.census.mem_tail_iff.mp hi).2
  · rintro ⟨he, hne⟩
    obtain ⟨k, hk⟩ := Nat.exists_eq_succ_of_ne_zero (index_ne_zero he hne)
    refine List.mem_of_getElem? (i := k) ?_
    rw [List.getElem?_tail, ← Nat.succ_eq_add_one, ← hk, Array.getElem?_toList]
    exact (get?_eq_some_iff.mp he).2

/-- Going through the table is going through the arena without its root. -/
theorem entities_eq (h : r.Sound) :
    r.entities = r.arena.toList.tail.filter Entity.isRegistered := by
  have hvalues : r.table.values =
      r.arena.toList.tail.filterMap fun e => e.path.map fun _ => e.id := by
    rw [OrderedMap.values, h.table, registrations, Registry.census, ← List.map_tail,
      List.filterMap_map, List.map_filterMap]
    refine List.filterMap_congr fun e _ => ?_
    simp [Entity.identity, Function.comp_def]
  rw [entities, hvalues, List.filterMap_filterMap, ← List.filterMap_eq_filter]
  refine List.filterMap_congr fun e he => ?_
  have hget := h.get?_id (List.mem_of_mem_tail he)
  cases hp : e.path with
  | none => simp [Option.guard, Entity.isRegistered, hp]
  | some p => simp [Option.guard, Entity.isRegistered, hp, hget]

theorem paths_eq (h : r.Sound) : r.paths.map some = r.entities.map (·.path) := by
  rw [h.entities_eq, paths, OrderedMap.keys, h.table, registrations, Registry.census,
    ← List.map_tail, List.filterMap_map, List.map_filterMap, List.map_filterMap,
    ← List.filterMap_eq_filter, List.map_filterMap]
  refine List.filterMap_congr fun e _ => ?_
  cases hp : e.path with
  | none => simp [Option.guard, Entity.isRegistered, Entity.identity, hp]
  | some p => simp [Option.guard, Entity.isRegistered, Entity.identity, hp]

theorem mem_entities_iff (h : r.Sound) :
    e ∈ r.entities ↔ r.get? e.id = some e ∧ e.id ≠ r.rootId ∧ e.isRegistered = true := by
  rw [h.entities_eq, List.mem_filter, h.mem_tail_iff, and_assoc]

theorem entities_sorted (h : r.Sound) : r.entities.Pairwise (·.id < ·.id) := by
  have hp := h.census.pairwise
  rw [Registry.census, List.pairwise_map] at hp
  rw [h.entities_eq]
  exact (hp.tail.imp And.left).filter _

theorem root_not_mem_values (h : r.Sound) : r.rootId ∉ r.table.values := by
  intro hm
  obtain ⟨⟨p, c⟩, hpc, hc⟩ := List.mem_map.mp hm
  rw [h.table, h.census.mem_registrations] at hpc
  exact hpc.1 hc

theorem nil_not_mem_paths (h : r.Sound) : [] ∉ r.paths := by
  intro hm
  obtain ⟨id, hid⟩ := Option.isSome_iff_exists.mp (OrderedMap.contains_iff.mpr hm)
  obtain ⟨hne, hp⟩ := h.at?_eq_some_iff.mp hid
  exact hne (h.hasPath_unique hp h.hasPath_root)

theorem owner_before (h : r.Sound) {k : Nat} (hk : r.entities[k]? = some e)
    (ho : e.owner = some o) (hne : o ≠ r.rootId) :
    ∃ j < k, ∃ e', r.entities[j]? = some e' ∧ e'.id = o := by
  obtain ⟨he, hroot, hreg⟩ := h.mem_entities_iff.mp (List.mem_of_getElem? hk)
  obtain ⟨p, hp⟩ := Option.isSome_iff_exists.mp hreg
  obtain ⟨o', q, ho', ⟨e', he', hq⟩, _⟩ := h.owner_of_path he hp hroot
  cases ho.symm.trans ho'
  cases h.id_eq he'
  have hmem : e' ∈ r.entities :=
    h.mem_entities_iff.mpr ⟨he', hne, Option.isSome_iff_exists.mpr ⟨q, hq⟩⟩
  obtain ⟨j, hj⟩ := List.getElem?_of_mem hmem
  refine ⟨j, ?_, e', hj, rfl⟩
  have hlt : e'.id.index < e.id.index := (h.owner_lt he ho).2
  by_contra hge
  rcases Nat.eq_or_lt_of_le (Nat.le_of_not_lt hge) with rfl | hkj
  · rw [hk, Option.some.injEq] at hj
    rw [hj] at hlt
    exact Nat.lt_irrefl _ hlt
  · obtain ⟨hkl, rfl⟩ := List.getElem?_eq_some_iff.mp hk
    obtain ⟨hjl, rfl⟩ := List.getElem?_eq_some_iff.mp hj
    rcases List.pairwise_iff_getElem.mp h.entities_sorted k j hkl hjl hkj with hg | ⟨_, hi⟩
    · have hg₁ := (get?_eq_some_iff.mp he).1
      have hg₂ := (get?_eq_some_iff.mp he').1
      omega
    · omega

end Sound

/-! ## The index -/

/-- The table is an index of the arena. -/
structure Indexed (r : Registry) : Prop where
  root : ∃ e, r.arena[0]? = some e ∧ e.kind = .ns ∧ e.path = some [] ∧ e.owner = none
  root_not_mem : r.rootId ∉ r.table.values
  id_eq : ∀ (k : Nat) (e : Entity), r.arena[k]? = some e → e.id = ⟨r.generation, k⟩
  nodup_paths : r.paths.Nodup
  nil_not_mem : [] ∉ r.paths
  at?_iff : ∀ p id, r.at? p = some id ↔
    id ≠ r.rootId ∧ ∃ e, r.get? id = some e ∧ e.path = some p
  path_unique : ∀ e ∈ r.arena, ∀ e' ∈ r.arena, ∀ p, e.path = some p → e'.path = some p → e = e'
  length_entities : r.entities.length = r.size
  paths_eq : r.paths.map some = r.entities.map (·.path)
  mem_iff : ∀ e, e ∈ r.entities ↔ e ∈ r.arena ∧ e.id ≠ r.rootId ∧ e.isRegistered = true
  sorted : r.entities.Pairwise (·.id < ·.id)
  owner_first : ∀ (k : Nat) (e : Entity) (o : EntityId), r.entities[k]? = some e →
    e.owner = some o → o ≠ r.rootId → ∃ j < k, ∃ e' : Entity, r.entities[j]? = some e' ∧ e'.id = o

variable {r : Registry}

theorem Reachable.indexed (hr : r.Reachable) : r.Indexed := by
  have h := hr.sound
  have hmem : ∀ e, e ∈ r.arena ↔ r.get? e.id = some e := by
    intro e
    constructor
    · intro he
      exact h.get?_id (Array.mem_def.mp he)
    · intro he
      exact Array.mem_of_getElem? (get?_eq_some_iff.mp he).2
  constructor
  case root =>
    obtain ⟨e, he, hi⟩ := h.get?_root
    exact ⟨e, (get?_eq_some_iff.mp he).2, congrArg Identity.kind hi, congrArg Identity.path hi,
      congrArg Identity.owner hi⟩
  case root_not_mem => exact h.root_not_mem_values
  case id_eq =>
    intro k e hk
    exact h.id_eq (get?_eq_some_iff.mpr ⟨rfl, hk⟩)
  case nodup_paths => exact h.nodup_keys
  case nil_not_mem => exact h.nil_not_mem_paths
  case at?_iff => exact fun p id => h.at?_eq_some_iff
  case path_unique =>
    intro e he e' he' p hp hp'
    have hid := h.eq_of_path_eq ((hmem e).mp he) ((hmem e').mp he') hp hp'
    have hget := (hmem e).mp he
    rw [hid, (hmem e').mp he', Option.some.injEq] at hget
    exact hget.symm
  case length_entities =>
    have hl := congrArg List.length h.paths_eq
    rw [List.length_map, List.length_map] at hl
    rw [← hl]
    exact List.length_map _
  case paths_eq => exact h.paths_eq
  case mem_iff =>
    intro e
    rw [h.mem_entities_iff, hmem]
  case sorted => exact h.entities_sorted
  case owner_first => exact fun k e o => h.owner_before

/-- Two compound names that give one path, in a registry that has been reset. -/
theorem indexed_of_colliding_names :
    (((Registry.create .latestDocumented 1).reset 2).run
      [.intern .root ['A', '#', 'b'] .type, .intern .root ['A', ':', ':', 'b'] .instanceRoutine,
        .perform ⟨2, 1⟩ [.set "source" (.text ['x'])]]).Indexed ∧
    (((Registry.create .latestDocumented 1).reset 2).run
      [.intern .root ['A', '#', 'b'] .type, .intern .root ['A', ':', ':', 'b'] .instanceRoutine,
        .perform ⟨2, 1⟩ [.set "source" (.text ['x'])]]).paths = [['A', '#', 'b'], ['A']] :=
  ⟨Reachable.indexed (((Reachable.create _ 1).reset 2).run _), by decide⟩

end CodeCatalog.Registry
