import CodeCatalog.Proofs.Registry.Census

/-!
# Sound registries

A registry is sound if its entities are those of a census and its table and the children of every
entity are what the census says. Adding an entity that the census admits keeps a registry sound, and
so does any change to an entity's attributes and sites.
-/
namespace CodeCatalog

/-! ## Entities -/

namespace Entity

variable (e : Entity) (c : EntityId)

@[simp] theorem identity_adopt : (e.adopt c).identity = e.identity := by
  unfold adopt
  split <;> rfl

@[simp] theorem attributes_adopt : (e.adopt c).attributes = e.attributes := by
  unfold adopt
  split <;> rfl

@[simp] theorem ledger_adopt : (e.adopt c).ledger = e.ledger := by
  unfold adopt
  split <;> rfl

theorem children_adopt (h : c ∉ e.children) : (e.adopt c).children = e.children ++ [c] := by
  simp [adopt, hasChild, h]

/-- What no change to an entity touches once it is made, but for its children. -/
structure Remains (e e' : Entity) : Prop where
  identity : e'.identity = e.identity
  children : e'.children = e.children
  policy : e'.ledger.policy = e.ledger.policy

end Entity

/-! ## Looking up -/

namespace Registry

variable {r : Registry} {id j : EntityId} {e : Entity}

theorem get?_eq_some_iff :
    r.get? id = some e ↔ id.generation = r.generation ∧ r.arena[id.index]? = some e := by
  unfold get?
  split
  · rename_i h
    simp [h]
  · rename_i h
    simp [h]

theorem contains_iff : r.contains id = true ↔ ∃ e, r.get? id = some e := by
  simp [contains, Option.isSome_iff_exists]

theorem get?_nextId (r : Registry) : r.get? r.nextId = none := by
  simp [get?, nextId]

theorem index_ne_zero (he : r.get? id = some e) (hne : id ≠ r.rootId) : id.index ≠ 0 := by
  intro h0
  obtain ⟨g, k⟩ := id
  cases h0
  cases (get?_eq_some_iff.mp he).1
  exact hne rfl

theorem get?_create {policy : CanonicalPolicy} {g : Nat} (h : (create policy g).get? id = some e) :
    id = ⟨g, 0⟩ ∧ e = rootEntity policy g := by
  obtain ⟨g', k⟩ := id
  obtain ⟨hg, hk⟩ := get?_eq_some_iff.mp h
  cases k with
  | zero =>
      simp only [arena_create, List.getElem?_toArray, List.getElem?_cons_zero, Option.some.injEq] at hk
      obtain rfl : g' = g := hg
      exact ⟨rfl, hk.symm⟩
  | succ k => simp at hk

@[simp] theorem length_census : r.census.length = r.arena.size := by
  simp [census]

theorem getElem?_census (h : r.get? id = some e) : r.census[id.index]? = some e.identity := by
  rw [census, List.getElem?_map, Array.getElem?_toList, (get?_eq_some_iff.mp h).2]
  rfl

theorem mem_census (h : r.get? id = some e) : e.identity ∈ r.census :=
  List.mem_of_getElem? (getElem?_census h)

theorem census_update {f : Entity → Entity}
    (h : ∀ e, r.get? id = some e → (f e).identity = e.identity) :
    (r.update id f).census = r.census := by
  unfold update
  split
  · rename_i hg
    unfold census
    apply List.ext_getElem?
    intro k
    simp only [Array.toList_modify, List.getElem?_map, List.getElem?_modify, Array.getElem?_toList]
    cases hk : r.arena[k]? with
    | none => simp
    | some e =>
        by_cases hi : id.index = k
        · have he := h e (get?_eq_some_iff.mpr ⟨hg, hi ▸ hk⟩)
          simp [hi, he]
        · simp [hi]
  · rfl

theorem remains_of_get?_update {f : Entity → Entity} {e' : Entity}
    (hf : ∀ e, r.get? id = some e → e.Remains (f e)) (h : (r.update id f).get? j = some e') :
    ∃ e, r.get? j = some e ∧ e.Remains e' := by
  rw [get?_update] at h
  split at h
  · rename_i hj
    subst hj
    obtain ⟨e, he, rfl⟩ := Option.map_eq_some_iff.mp h
    exact ⟨e, he, hf e he⟩
  · exact ⟨e', h, rfl, rfl, rfl⟩

/-! ## Adding -/

@[simp] theorem identity_newEntity (r : Registry) (kind : EntityKind) (name : Text)
    (path : Option Text) (owner : Option EntityId) :
    (r.newEntity kind name path owner).identity = ⟨r.nextId, kind, name, path, owner⟩ := rfl

@[simp] theorem generation_add (r : Registry) (e : Entity) : (r.add e).generation = r.generation := by
  unfold add
  cases e.owner <;> simp

@[simp] theorem policy_add (r : Registry) (e : Entity) : (r.add e).policy = r.policy := by
  unfold add
  cases e.owner <;> simp

theorem table_add (r : Registry) (e : Entity) :
    (r.add e).table = (match e.path with
      | some p => r.table.insert p e.id
      | none => r.table) := by
  unfold add
  cases e.owner <;> cases e.path <;> simp

theorem census_add (r : Registry) (e : Entity) : (r.add e).census = r.census ++ [e.identity] := by
  unfold add
  cases e.owner with
  | none => simp [census]
  | some o =>
      simp only
      rw [census_update]
      · simp [census]
      · simp

@[simp] theorem size_arena_add (r : Registry) (e : Entity) :
    (r.add e).arena.size = r.arena.size + 1 := by
  rw [← length_census, census_add, List.length_append, length_census, List.length_singleton]

theorem get?_push (r : Registry) (e : Entity) (t : OrderedMap Text EntityId) (j : EntityId) :
    ({ r with arena := r.arena.push e, table := t } : Registry).get? j =
      if j = r.nextId then some e else r.get? j := by
  obtain ⟨g, k⟩ := j
  simp only [get?, nextId, EntityId.mk.injEq, Array.getElem?_push]
  by_cases hg : g = r.generation
  · simp only [hg, true_and, if_true]
  · simp [hg]

/-- Only the new entity and its owner differ. -/
theorem get?_add (r : Registry) {e : Entity} (h : e.owner ≠ some r.nextId) (j : EntityId) :
    (r.add e).get? j =
      if j = r.nextId then some e
      else if e.owner = some j then (r.get? j).map (·.adopt e.id) else r.get? j := by
  unfold add
  cases ho : e.owner with
  | none => simp [get?_push]
  | some o =>
      simp only [get?_update, get?_push, Option.some.injEq]
      have hne : o ≠ r.nextId := fun he => h (by rw [ho, he])
      by_cases hj : j = o
      · simp [hj, hne]
      · simp [hj, Ne.symm hj]

end Registry

/-! ## Soundness -/

/-- The arena is a census, and table and children agree with it. -/
structure Registry.Sound (r : Registry) : Prop where
  census : Census r.generation r.census
  table : r.table.entries = registrations r.census
  children : ∀ id e, r.get? id = some e → e.children = members r.census id
  policy : ∀ id e, r.get? id = some e → e.ledger.policy = r.policy

namespace Registry.Sound

variable {r : Registry} {id o : EntityId} {e : Entity} {p : Text} {i : Identity}

theorem id_eq (h : Sound r) (he : r.get? id = some e) : e.id = id := by
  have hid := h.census.id_eq (getElem?_census he)
  rw [← (get?_eq_some_iff.mp he).1] at hid
  exact hid

theorem exists_get? (h : Sound r) (hi : i ∈ r.census) :
    ∃ e, r.get? i.id = some e ∧ e.identity = i := by
  have hk := h.census.getElem?_of_mem hi
  rw [Registry.census, List.getElem?_map, Option.map_eq_some_iff] at hk
  obtain ⟨e, he, rfl⟩ := hk
  rw [Array.getElem?_toList] at he
  exact ⟨e, get?_eq_some_iff.mpr ⟨h.census.generation_of_mem hi, he⟩, rfl⟩

theorem nodup_keys (h : Sound r) : r.table.keys.Nodup := by
  unfold OrderedMap.keys
  rw [h.table, List.Nodup, List.pairwise_map]
  exact h.census.registrations_pairwise.imp And.right

/-- The table holds exactly the registered entities but the root. -/
theorem at?_eq_some_iff (h : Sound r) :
    r.at? p = some id ↔ id ≠ r.rootId ∧ ∃ e, r.get? id = some e ∧ e.path = some p := by
  unfold at?
  rw [OrderedMap.find?_eq_some_iff h.nodup_keys, h.table, h.census.mem_registrations]
  refine and_congr_right fun _ => ?_
  constructor
  · rintro ⟨i, hi, rfl, hp⟩
    obtain ⟨e, he, rfl⟩ := h.exists_get? hi
    exact ⟨e, he, hp⟩
  · rintro ⟨e, he, hp⟩
    exact ⟨e.identity, mem_census he, h.id_eq he, hp⟩

theorem eq_of_path_eq (h : Sound r) {e' : Entity} (he : r.get? id = some e)
    (he' : r.get? o = some e') (hp : e.path = some p) (hp' : e'.path = some p) : id = o := by
  have hi := h.census.eq_of_path_eq (mem_census he) (mem_census he') hp hp'
  rw [← h.id_eq he, ← h.id_eq he']
  exact congrArg Identity.id hi

theorem create (policy : CanonicalPolicy) (g : Nat) : Sound (Registry.create policy g) where
  census := .root policy
  table := rfl
  children := by
    intro id e he
    obtain ⟨rfl, rfl⟩ := get?_create he
    rfl
  policy := by
    intro id e he
    obtain ⟨rfl, rfl⟩ := get?_create he
    rfl

theorem update (h : Sound r) {f : Entity → Entity}
    (hf : ∀ e, r.get? id = some e → e.Remains (f e)) : Sound (r.update id f) := by
  have hc : (r.update id f).census = r.census := census_update fun e he => (hf e he).identity
  constructor
  case census =>
    rw [hc, generation_update]
    exact h.census
  case table =>
    rw [hc, table_update]
    exact h.table
  case children =>
    intro j e' he'
    obtain ⟨e, he, hr⟩ := remains_of_get?_update hf he'
    rw [hc, hr.children]
    exact h.children j e he
  case policy =>
    intro j e' he'
    obtain ⟨e, he, hr⟩ := remains_of_get?_update hf he'
    rw [hr.policy, policy_update]
    exact h.policy j e he

theorem index_lt (h : Sound r) (hi : i ∈ r.census) : i.id.index < r.arena.size := by
  have hlt := h.census.index_lt hi
  rwa [length_census] at hlt

theorem nextId_not_mem_members (h : Sound r) (o : EntityId) : r.nextId ∉ members r.census o := by
  intro hm
  obtain ⟨i, hi, _, hid⟩ := mem_members.mp hm
  have hlt := h.index_lt hi
  rw [hid] at hlt
  exact Nat.lt_irrefl _ hlt

/-- Nothing has a dead owner. -/
theorem members_of_dead (h : Sound r) (hdead : r.get? o = none) : members r.census o = [] := by
  rw [List.eq_nil_iff_forall_not_mem]
  intro c hc
  obtain ⟨i, hi, ho, _⟩ := mem_members.mp hc
  obtain ⟨j, hj, rfl, _⟩ := h.census.owner_lt hi ho
  obtain ⟨e, he, _⟩ := h.exists_get? hj
  rw [hdead] at he
  cases he

theorem members_nextId (h : Sound r) : members r.census r.nextId = [] :=
  h.members_of_dead (get?_nextId r)

section Add

variable {kind : EntityKind} {name : Text} {path : Option Text} {owner : Option EntityId}

theorem owner_ne_nextId (h : Sound r)
    (ha : Admissible r.generation r.census ⟨r.nextId, kind, name, path, owner⟩) :
    owner ≠ some r.nextId := by
  intro ho
  obtain ⟨j, hj, hid⟩ := ha.owner r.nextId ho
  have hlt := h.index_lt hj
  rw [hid] at hlt
  exact Nat.lt_irrefl _ hlt

theorem get?_add_nextId (h : Sound r)
    (ha : Admissible r.generation r.census ⟨r.nextId, kind, name, path, owner⟩) :
    (r.add (r.newEntity kind name path owner)).get? r.nextId =
      some (r.newEntity kind name path owner) := by
  rw [get?_add r (h.owner_ne_nextId ha), if_pos rfl]

theorem entries_add (h : Sound r)
    (ha : Admissible r.generation r.census ⟨r.nextId, kind, name, path, owner⟩) :
    (r.add (r.newEntity kind name path owner)).table.entries =
      registrations (r.add (r.newEntity kind name path owner)).census := by
  rw [table_add, census_add, identity_newEntity, registrations_concat h.census.ne_nil, ← h.table]
  cases path with
  | none => simp [newEntity]
  | some p =>
      have hp : r.table.contains p = false := by
        rw [← Bool.not_eq_true, OrderedMap.contains_iff, OrderedMap.keys, h.table]
        intro hm
        obtain ⟨⟨q, c⟩, hqc, rfl⟩ := List.mem_map.mp hm
        obtain ⟨_, i, hi, _, hq⟩ := h.census.mem_registrations.mp hqc
        exact ha.fresh q rfl i hi hq
      simp [newEntity, OrderedMap.insert, hp]

theorem children_add (h : Sound r)
    (ha : Admissible r.generation r.census ⟨r.nextId, kind, name, path, owner⟩)
    (he : (r.add (r.newEntity kind name path owner)).get? id = some e) :
    e.children = members (r.add (r.newEntity kind name path owner)).census id := by
  have hself := h.owner_ne_nextId ha
  rw [census_add, identity_newEntity, members_concat]
  rw [get?_add r hself] at he
  split at he
  · rename_i hid
    subst hid
    rw [Option.some.injEq] at he
    subst he
    rw [h.members_nextId, if_neg hself]
    rfl
  · split at he
    · rename_i ho
      obtain ⟨e', he', rfl⟩ := Option.map_eq_some_iff.mp he
      have hc := h.children id e' he'
      rw [Entity.children_adopt _ _ (hc ▸ h.nextId_not_mem_members id), hc]
      exact congrArg _ (if_pos ho).symm
    · rename_i ho
      rw [h.children id e he]
      exact (List.append_nil _).symm.trans (congrArg _ (if_neg ho).symm)

theorem ledger_policy_add (h : Sound r)
    (ha : Admissible r.generation r.census ⟨r.nextId, kind, name, path, owner⟩)
    (he : (r.add (r.newEntity kind name path owner)).get? id = some e) :
    e.ledger.policy = r.policy := by
  rw [get?_add r (h.owner_ne_nextId ha)] at he
  split at he
  · cases he
    rfl
  · split at he
    · obtain ⟨e', he', rfl⟩ := Option.map_eq_some_iff.mp he
      rw [Entity.ledger_adopt]
      exact h.policy id e' he'
    · exact h.policy id e he

theorem add (h : Sound r)
    (ha : Admissible r.generation r.census ⟨r.nextId, kind, name, path, owner⟩) :
    Sound (r.add (r.newEntity kind name path owner)) where
  census := by
    rw [census_add, generation_add]
    exact .snoc h.census ha
  table := h.entries_add ha
  children := fun _ _ he => h.children_add ha he
  policy := by
    intro id e he
    rw [policy_add]
    exact h.ledger_policy_add ha he

end Add

end Registry.Sound

end CodeCatalog
