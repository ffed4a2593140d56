/-! Maps that remember the order in which their keys first arrived. -/
namespace CodeCatalog

/-- The entries of a map, oldest first. -/
structure OrderedMap (κ α : Type) where
  entries : List (κ × α) := []
deriving DecidableEq

namespace OrderedMap
variable {κ α : Type} [DecidableEq κ]

def find? (m : OrderedMap κ α) (k : κ) : Option α :=
  m.entries.lookup k

def keys (m : OrderedMap κ α) : List κ :=
  m.entries.map Prod.fst

def values (m : OrderedMap κ α) : List α :=
  m.entries.map Prod.snd

def contains (m : OrderedMap κ α) (k : κ) : Bool :=
  (m.find? k).isSome

def size (m : OrderedMap κ α) : Nat :=
  m.entries.length

/-- A new key goes to the end; a key that is present keeps its place and takes the new value. -/
def insert (m : OrderedMap κ α) (k : κ) (v : α) : OrderedMap κ α :=
  if m.contains k then ⟨m.entries.map fun e => if e.1 = k then (k, v) else e⟩
  else ⟨m.entries ++ [(k, v)]⟩

/-- Removes a key; the others keep their order. -/
def erase (m : OrderedMap κ α) (k : κ) : OrderedMap κ α :=
  ⟨m.entries.filter (·.1 ≠ k)⟩

/-! ## Looking up -/

omit [DecidableEq κ] in
@[simp] theorem keys_mk (es : List (κ × α)) : keys ⟨es⟩ = es.map Prod.fst := rfl

@[simp] theorem find?_nil (k : κ) : find? (⟨[]⟩ : OrderedMap κ α) k = none := rfl

theorem find?_cons (k k' : κ) (v : α) (es : List (κ × α)) :
    find? ⟨(k', v) :: es⟩ k = if k = k' then some v else find? ⟨es⟩ k := by
  by_cases h : k = k'
  · simp [find?, h]
  · simp [find?, List.lookup_cons, beq_eq_false_iff_ne.mpr h, h]

theorem contains_iff {m : OrderedMap κ α} {k : κ} : m.contains k = true ↔ k ∈ m.keys := by
  obtain ⟨es⟩ := m
  induction es with
  | nil => simp [contains]
  | cons e es ih =>
    obtain ⟨k', v⟩ := e
    by_cases h : k = k'
    · simp [contains, find?_cons, h]
    · simp only [contains, find?_cons, h, if_false] at ih ⊢
      simp [ih, h]

theorem find?_eq_none_iff {m : OrderedMap κ α} {k : κ} : m.find? k = none ↔ k ∉ m.keys := by
  rw [← contains_iff, contains]
  cases m.find? k <;> simp

/-- Without repeated keys, looking up finds every entry. -/
theorem find?_eq_some_iff {m : OrderedMap κ α} (h : m.keys.Nodup) {k : κ} {v : α} :
    m.find? k = some v ↔ (k, v) ∈ m.entries := by
  obtain ⟨es⟩ := m
  induction es with
  | nil => simp
  | cons e es ih =>
    obtain ⟨k', w⟩ := e
    obtain ⟨hk, hes⟩ := List.nodup_cons.mp h
    rw [find?_cons]
    split
    · rename_i he
      subst he
      have hno : (k, v) ∉ es := fun hm => hk (List.mem_map.mpr ⟨_, hm, rfl⟩)
      simp only [List.mem_cons, hno, or_false, Prod.mk.injEq, true_and, Option.some.injEq]
      exact eq_comm
    · rename_i he
      rw [ih hes]
      simp [he]

/-! ## Inserting and erasing -/

@[simp] theorem find?_insert_self (m : OrderedMap κ α) (k : κ) (v : α) :
    (m.insert k v).find? k = some v := by
  unfold insert
  split
  · rename_i h
    obtain ⟨es⟩ := m
    induction es with
    | nil => simp [contains] at h
    | cons e es ih =>
      obtain ⟨k', w⟩ := e
      by_cases hk : k' = k
      · simp [hk, find?_cons]
      · have hk' : k ≠ k' := fun he => hk he.symm
        simp only [contains, find?_cons, hk', if_false] at h
        simp only [List.map_cons, hk, if_false, find?_cons, hk']
        exact ih h
  · rename_i h
    obtain ⟨es⟩ := m
    induction es with
    | nil => simp [find?_cons]
    | cons e es ih =>
      obtain ⟨k', w⟩ := e
      by_cases hk : k = k'
      · simp [contains, find?_cons, hk] at h
      · simp only [contains, find?_cons, hk, if_false] at h
        simp only [List.cons_append, find?_cons, hk, if_false]
        exact ih h

theorem find?_insert_of_ne (m : OrderedMap κ α) {k k' : κ} (v : α) (h : k' ≠ k) :
    (m.insert k v).find? k' = m.find? k' := by
  unfold insert
  split
  · obtain ⟨es⟩ := m
    rename_i hc
    clear hc
    induction es with
    | nil => rfl
    | cons e es ih =>
      obtain ⟨j, w⟩ := e
      by_cases hj : j = k
      · subst hj
        simp only [List.map_cons, if_true, find?_cons, h, if_false]
        exact ih
      · simp only [List.map_cons, hj, if_false, find?_cons]
        rw [ih]
  · obtain ⟨es⟩ := m
    rename_i hc
    clear hc
    induction es with
    | nil => simp [find?_cons, h]
    | cons e es ih =>
      obtain ⟨j, w⟩ := e
      simp only [List.cons_append, find?_cons]
      rw [ih]

theorem keys_insert_of_mem {m : OrderedMap κ α} {k : κ} (v : α) (h : k ∈ m.keys) :
    (m.insert k v).keys = m.keys := by
  simp only [insert, contains_iff.mpr h, if_true, keys, List.map_map]
  apply List.map_congr_left
  intro e _
  by_cases he : e.1 = k <;> simp [he]

theorem keys_insert_of_not_mem {m : OrderedMap κ α} {k : κ} (v : α) (h : k ∉ m.keys) :
    (m.insert k v).keys = m.keys ++ [k] := by
  have hc : m.contains k = false := by
    rw [← Bool.not_eq_true, contains_iff]; exact h
  simp [insert, hc, keys]

/-- What is there already may be inserted again. -/
theorem insert_of_find? {m : OrderedMap κ α} {k : κ} {v : α} (h : m.keys.Nodup)
    (hfind : m.find? k = some v) : m.insert k v = m := by
  have hc : m.contains k = true := by rw [contains, hfind]; rfl
  have hsame : ∀ e ∈ m.entries, (if e.1 = k then (k, v) else e) = e := by
    rintro ⟨k', w⟩ he
    split
    · next hk =>
        obtain rfl : k' = k := hk
        rw [← find?_eq_some_iff h, hfind] at he
        rw [Option.some.inj he]
    · rfl
  rw [insert, if_pos hc, List.map_congr_left hsame, List.map_id']

theorem find?_erase (m : OrderedMap κ α) (k k' : κ) :
    (m.erase k).find? k' = if k' = k then none else m.find? k' := by
  obtain ⟨es⟩ := m
  induction es with
  | nil => simp [erase]
  | cons e es ih =>
    obtain ⟨j, w⟩ := e
    simp only [erase] at ih ⊢
    by_cases hj : j = k
    · subst hj
      simp only [List.filter_cons, ne_eq, not_true_eq_false, decide_false, Bool.false_eq_true,
        if_false, ih, find?_cons]
      by_cases hk : k' = j <;> simp [hk]
    · simp only [List.filter_cons, ne_eq, hj, not_false_eq_true, decide_true, if_true, find?_cons, ih]
      by_cases hk : k' = k
      · subst hk; simp [Ne.symm hj]
      · simp [hk]

theorem erase_of_not_mem {m : OrderedMap κ α} {k : κ} (h : k ∉ m.keys) : m.erase k = m := by
  have hkeep : ∀ e ∈ m.entries, decide (e.1 ≠ k) = true := by
    intro e he
    refine decide_eq_true fun heq => h ?_
    rw [← heq]
    exact List.mem_map_of_mem he
  rw [erase, List.filter_eq_self.mpr hkeep]

theorem keys_erase (m : OrderedMap κ α) (k : κ) : (m.erase k).keys = m.keys.filter (· ≠ k) := by
  simp only [erase, keys, List.filter_map]
  rfl

end OrderedMap

end CodeCatalog
