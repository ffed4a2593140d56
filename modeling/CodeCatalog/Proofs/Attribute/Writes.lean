import Mathlib.Data.List.Induction
import Mathlib.Data.List.Nodup
import CodeCatalog.Attribute.Request

/-!
# Writes

What a table of attributes holds after any number of requests, said of the list of them: under each key
what was written last, through its field or by the key, and the slots in the order of the writes that made
them.
-/
namespace CodeCatalog

/-! ## Fields -/

namespace Accessor

variable {k : String} {a : Accessor}

/-- The key of a field. -/
def key : Accessor → String
  | source => "source"
  | signature => "signature"
  | docstring => "docstring"
  | dynamic => "dynamic"

/-- The kinds of values that a field takes. -/
def kinds : Accessor → List String
  | source | signature => ["text"]
  | docstring => ["text", "docstring"]
  | dynamic => ["bool"]

theorem ofKey?_eq_some_iff : ofKey? k = some a ↔ k = a.key := by
  constructor
  · intro h
    unfold ofKey? at h
    split at h <;> cases h <;> rfl
  · rintro rfl
    cases a <;> rfl

theorem ofKey?_key (a : Accessor) : ofKey? a.key = some a :=
  ofKey?_eq_some_iff.mpr rfl

theorem key_inj {b : Accessor} : a.key = b.key ↔ a = b := by
  rw [← ofKey?_eq_some_iff, ofKey?_key, Option.some.injEq]

theorem ne_key_of_slot (h : ofKey? k = none) (a : Accessor) : k ≠ a.key := by
  rintro rfl
  rw [ofKey?_key] at h
  cases h

end Accessor

namespace AttributeTable

variable {t t' : AttributeTable} {key : String} {value : AttributeValue} {a : Accessor}

/-- The value of a field. -/
def field (t : AttributeTable) : Accessor → Option AttributeValue
  | .source => t.source.map .text
  | .signature => t.signature.map .text
  | .docstring => some (.docstring t.docstring)
  | .dynamic => some (.bool t.dynamic)

theorem get_key (t : AttributeTable) (a : Accessor) : t.get a.key = t.field a := by
  rw [get, Accessor.ofKey?_key]
  cases a <;> rfl

theorem get_of_slot (h : Accessor.ofKey? key = none) (t : AttributeTable) :
    t.get key = t.slots.find? key := by
  rw [get, h]

theorem get_key_slots (t : AttributeTable) (a : Accessor) (slots : OrderedMap String AttributeValue) :
    { t with slots }.get a.key = t.get a.key := by
  rw [get_key, get_key]
  cases a <;> rfl

/-- Whether a value has a shape that is taken under a key. A slot takes values of all kinds. -/
def takes (key : String) (value : AttributeValue) : Bool :=
  (Accessor.ofKey? key).all (·.kinds.contains value.kind)

/-- What is kept of a value that is written under a key. -/
def kept (key : String) (value : AttributeValue) : AttributeValue :=
  match Accessor.ofKey? key, value with
  | some .source, .text raw => .text (Snippet.dedent raw)
  | some .docstring, .text raw => .docstring (.read raw)
  | _, value => value

/-- What a new table has under a key. -/
def initial (key : String) : Option AttributeValue :=
  match Accessor.ofKey? key with
  | some .docstring => some (.docstring {})
  | some .dynamic => some (.bool false)
  | some .source | some .signature | none => none

theorem takes_key (a : Accessor) (value : AttributeValue) :
    takes a.key value = a.kinds.contains value.kind := by
  rw [takes, Accessor.ofKey?_key, Option.all_some]

theorem takes_of_slot (h : Accessor.ofKey? key = none) : takes key value = true := by
  rw [takes, h, Option.all_none]

theorem kept_of_slot (h : Accessor.ofKey? key = none) : kept key value = value := by
  unfold kept
  rw [h]

theorem takes_eq_false_iff :
    takes key value = false ↔ ∃ a : Accessor, key = a.key ∧ value.kind ∉ a.kinds := by
  constructor
  · intro h
    cases ha : Accessor.ofKey? key with
    | none => rw [takes_of_slot ha] at h; cases h
    | some a =>
        obtain rfl := Accessor.ofKey?_eq_some_iff.mp ha
        exact ⟨a, rfl, by simpa [takes_key] using h⟩
  · rintro ⟨a, rfl, h⟩
    simpa [takes_key] using h

/-! ## One write -/

theorem set?_of_slot (h : Accessor.ofKey? key = none) (t : AttributeTable) (value : AttributeValue) :
    t.set? key value = some { t with slots := t.slots.insert key value } := by
  unfold set?
  rw [h]

/-- What is written to a field changes that field alone, and what the field does not take is refused. -/
theorem set?_key (t : AttributeTable) (a : Accessor) (value : AttributeValue) :
    (takes a.key value = false ∧ t.set? a.key value = none) ∨
      (takes a.key value = true ∧ ∃ t', t.set? a.key value = some t' ∧ t'.slots = t.slots ∧
        ∀ b, t'.field b = if b = a then some (kept a.key value) else t.field b) := by
  cases a with
  | source =>
      cases value with
      | text raw => exact Or.inr ⟨rfl, _, rfl, rfl, fun b => by cases b <;> rfl⟩
      | _ => exact Or.inl ⟨rfl, rfl⟩
  | signature =>
      cases value with
      | text signature => exact Or.inr ⟨rfl, _, rfl, rfl, fun b => by cases b <;> rfl⟩
      | _ => exact Or.inl ⟨rfl, rfl⟩
  | docstring =>
      cases value with
      | text raw => exact Or.inr ⟨rfl, _, rfl, rfl, fun b => by cases b <;> rfl⟩
      | docstring d => exact Or.inr ⟨rfl, _, rfl, rfl, fun b => by cases b <;> rfl⟩
      | _ => exact Or.inl ⟨rfl, rfl⟩
  | dynamic =>
      cases value with
      | bool flag => exact Or.inr ⟨rfl, _, rfl, rfl, fun b => by cases b <;> rfl⟩
      | _ => exact Or.inl ⟨rfl, rfl⟩

/-- A value that is taken is found under its key, and nothing changes under any other. -/
theorem get_set? (h : t.set? key value = some t') (other : String) :
    t'.get other = if other = key then some (kept key value) else t.get other := by
  cases ha : Accessor.ofKey? key with
  | none =>
      rw [set?_of_slot ha] at h
      obtain rfl := Option.some.inj h
      rw [kept_of_slot ha]
      cases hb : Accessor.ofKey? other with
      | none =>
          rw [get_of_slot hb, get_of_slot hb]
          split
          · next heq => rw [heq, OrderedMap.find?_insert_self]
          · next hne => exact OrderedMap.find?_insert_of_ne _ _ hne
      | some b =>
          obtain rfl := Accessor.ofKey?_eq_some_iff.mp hb
          rw [if_neg (Accessor.ne_key_of_slot ha b).symm, get_key_slots]
  | some a =>
      obtain rfl := Accessor.ofKey?_eq_some_iff.mp ha
      obtain ⟨-, hnone⟩ | ⟨-, u, hu, hslots, hfield⟩ := set?_key t a value
      · rw [hnone] at h
        cases h
      · obtain rfl := Option.some.inj (hu.symm.trans h)
        cases hb : Accessor.ofKey? other with
        | none =>
            rw [if_neg (Accessor.ne_key_of_slot hb a), get_of_slot hb, get_of_slot hb, hslots]
        | some b =>
            obtain rfl := Accessor.ofKey?_eq_some_iff.mp hb
            simp only [get_key, hfield, Accessor.key_inj]

theorem set?_eq_none_iff : t.set? key value = none ↔ takes key value = false := by
  cases ha : Accessor.ofKey? key with
  | none => simp [set?_of_slot ha, takes_of_slot ha]
  | some a =>
      obtain rfl := Accessor.ofKey?_eq_some_iff.mp ha
      obtain ⟨htakes, hnone⟩ | ⟨htakes, u, hu, -⟩ := set?_key t a value
      · simp [htakes, hnone]
      · simp [htakes, hu]

theorem slots_set? (h : t.set? key value = some t') :
    t'.slots = if Accessor.ofKey? key = none then t.slots.insert key value else t.slots := by
  cases ha : Accessor.ofKey? key with
  | none =>
      rw [set?_of_slot ha] at h
      rw [← Option.some.inj h]
      rfl
  | some a =>
      obtain rfl := Accessor.ofKey?_eq_some_iff.mp ha
      obtain ⟨-, hnone⟩ | ⟨-, u, hu, hslots, -⟩ := set?_key t a value
      · rw [hnone] at h
        cases h
      · obtain rfl := Option.some.inj (hu.symm.trans h)
        exact hslots

end AttributeTable

/-! ## Requests as writes -/

namespace AttributeRequest

open AttributeTable

variable {r : AttributeRequest} {key : String} {value : AttributeValue}

/-- The key and the value that a request writes. A write through a field is one under the key of the
field. -/
def write? : AttributeRequest → Option (String × AttributeValue)
  | set key value => some (key, value)
  | setSource raw => some (Accessor.source.key, .text raw)
  | setSignature signature => some (Accessor.signature.key, .text signature)
  | setDocstring d => some (Accessor.docstring.key, .docstring d)
  | setDynamic flag => some (Accessor.dynamic.key, .bool flag)
  | get _ | remove _ | contains _ => none

def writes (key : String) (r : AttributeRequest) : Bool :=
  r.write?.any (·.1 = key)

def removes (key : String) : AttributeRequest → Bool
  | remove key' => key' = key
  | _ => false

/-- What a request leaves under a key, if it changes what is there: a value that is taken, or nothing in
place of a slot. -/
def effect? (key : String) (r : AttributeRequest) : Option (Option AttributeValue) :=
  match r.write? with
  | some (key', value) => if key' = key ∧ takes key value then some (some (kept key value)) else none
  | none => if r.removes key ∧ Accessor.ofKey? key = none then some none else none

end AttributeRequest

namespace AttributeTable

open AttributeRequest

variable {t : AttributeTable} {r : AttributeRequest} {key : String} {value : AttributeValue}

/-- A request that writes does the same as a write by the key. -/
theorem perform_of_write? (h : r.write? = some (key, value)) (t : AttributeTable) :
    (t.perform r).2 = (t.set? key value).getD t := by
  cases r with
  | set key value =>
      obtain ⟨rfl, rfl⟩ := Prod.mk.inj (Option.some.inj h)
      rw [perform]
      cases t.set? key value <;> rfl
  | setSource raw =>
      obtain ⟨rfl, rfl⟩ := Prod.mk.inj (Option.some.inj h)
      rfl
  | setSignature signature =>
      obtain ⟨rfl, rfl⟩ := Prod.mk.inj (Option.some.inj h)
      rfl
  | setDocstring d =>
      obtain ⟨rfl, rfl⟩ := Prod.mk.inj (Option.some.inj h)
      rfl
  | setDynamic flag =>
      obtain ⟨rfl, rfl⟩ := Prod.mk.inj (Option.some.inj h)
      rfl
  | get key => cases h
  | remove key => cases h
  | contains key => cases h

/-- A removal empties a slot, and nothing changes under any other key. -/
theorem get_remove (t : AttributeTable) (key other : String) :
    (t.remove key).2.get other =
      if key = other ∧ Accessor.ofKey? other = none then none else t.get other := by
  simp only [remove]
  cases ha : Accessor.ofKey? other with
  | none =>
      rw [get_of_slot ha, get_of_slot ha, OrderedMap.find?_erase]
      simp only [eq_comm, and_true]
  | some a =>
      obtain rfl := Accessor.ofKey?_eq_some_iff.mp ha
      rw [get_key_slots, if_neg (by simp)]

/-- Under each key a request leaves what it writes there, and else what there was. -/
theorem get_perform (t : AttributeTable) (r : AttributeRequest) (key : String) :
    (t.perform r).2.get key = (r.effect? key).getD (t.get key) := by
  cases hwrite : r.write? with
  | some written =>
      obtain ⟨key', value⟩ := written
      rw [perform_of_write? hwrite, effect?, hwrite]
      cases hset : t.set? key' value with
      | none =>
          have hrefused := set?_eq_none_iff.mp hset
          have hkeep : ¬ (key' = key ∧ takes key value = true) := by
            rintro ⟨rfl, htakes⟩
            rw [hrefused] at htakes
            cases htakes
          simp only [if_neg hkeep, Option.getD_none]
      | some t' =>
          rw [Option.getD_some, get_set? hset]
          by_cases heq : key' = key
          · subst heq
            have htakes : takes key' value = true := by
              rw [← Bool.not_eq_false, ← set?_eq_none_iff, hset]
              simp
            simp only [htakes, and_self, if_true, Option.getD_some]
          · simp only [heq, Ne.symm heq, false_and, if_false, Option.getD_none]
  | none =>
      cases r with
      | get key' => rfl
      | contains key' => rfl
      | remove key' =>
          rw [perform, effect?, write?]
          simp only [get_remove, removes, decide_eq_true_eq]
          split <;> rfl
      | _ => cases hwrite

/-! ## Slots -/

theorem slots_perform_of_write? (h : r.write? = some (key, value)) (t : AttributeTable) :
    (t.perform r).2.slots =
      if Accessor.ofKey? key = none then t.slots.insert key value else t.slots := by
  rw [perform_of_write? h]
  cases hset : t.set? key value with
  | some t' => exact slots_set? hset
  | none =>
      obtain ⟨a, rfl, -⟩ := takes_eq_false_iff.mp (set?_eq_none_iff.mp hset)
      rw [Accessor.ofKey?_key]
      rfl

theorem keys_remove (t : AttributeTable) (key : String) :
    (t.remove key).2.slots.keys = t.slots.keys.filter (· ≠ key) :=
  OrderedMap.keys_erase t.slots key

/-! ## Arrival -/

/-- The position of the first write under a key behind all removals of it. -/
def arrival (rs : List AttributeRequest) (key : String) : Option Nat :=
  (rs.findIdxs (·.writes key)).find? fun i => (rs.findIdxs (·.removes key)).all (· < i)

variable {rs rs' : List AttributeRequest} {keys : List String}

theorem findIdxs_concat (p : AttributeRequest → Bool) (rs : List AttributeRequest)
    (r : AttributeRequest) :
    (rs ++ [r]).findIdxs p = rs.findIdxs p ++ if p r then [rs.length] else [] := by
  cases h : p r <;> simp [h]

theorem lt_length_of_mem_findIdxs {p : AttributeRequest → Bool} {i : Nat}
    (h : i ∈ rs.findIdxs p) : i < rs.length :=
  (List.mem_findIdxs_iff_exists_getElem_pos.mp h).1

theorem lt_length_of_arrival {i : Nat} (h : arrival rs key = some i) : i < rs.length :=
  lt_length_of_mem_findIdxs (List.mem_of_find?_eq_some h)

theorem writes_eq_false_of_removes (h : r.removes key = true) : r.writes key = false := by
  cases r with
  | remove key' => rfl
  | _ => cases h

theorem arrival_concat (rs : List AttributeRequest) (r : AttributeRequest) (key : String) :
    arrival (rs ++ [r]) key =
      if r.removes key then none
      else (arrival rs key).or (if r.writes key then some rs.length else none) := by
  rw [arrival, findIdxs_concat, findIdxs_concat]
  cases hremoves : r.removes key with
  | true =>
      simp only [writes_eq_false_of_removes hremoves, if_true, Bool.false_eq_true, if_false,
        List.append_nil]
      rw [List.find?_eq_none]
      intro i hi hall
      have hlt : rs.length < i := by
        have hlast := List.all_eq_true.mp hall rs.length (by simp)
        exact of_decide_eq_true hlast
      have := lt_length_of_mem_findIdxs hi
      omega
  | false =>
      have hlast : ((rs.findIdxs (·.removes key)).all (· < rs.length)) = true :=
        List.all_eq_true.mpr fun i hi => decide_eq_true (lt_length_of_mem_findIdxs hi)
      simp only [Bool.false_eq_true, if_false, List.append_nil, List.find?_append]
      rw [arrival]
      cases r.writes key with
      | true => simp [hlast]
      | false => simp

/-- Keys of slots, each of them once, in the order in which they arrived. -/
structure Arranged (rs : List AttributeRequest) (keys : List String) : Prop where
  mem_iff : ∀ key, key ∈ keys ↔ Accessor.ofKey? key = none ∧ (arrival rs key).isSome = true
  sorted : keys.Pairwise fun a b => ∃ i ∈ arrival rs a, ∃ j ∈ arrival rs b, i < j

namespace Arranged

theorem congr (h : Arranged rs keys)
    (heq : ∀ key, Accessor.ofKey? key = none → arrival rs' key = arrival rs key) :
    Arranged rs' keys where
  mem_iff key := by
    rw [h.mem_iff]
    exact and_congr_right fun hslot => by rw [heq key hslot]
  sorted := by
    refine h.sorted.imp_of_mem fun ha hb hlt => ?_
    rwa [heq _ ((h.mem_iff _).mp ha).1, heq _ ((h.mem_iff _).mp hb).1]

theorem concat (h : Arranged rs keys) (hslot : Accessor.ofKey? key = none) (hnot : key ∉ keys)
    (hself : arrival rs' key = some rs.length)
    (hother : ∀ other, other ≠ key → arrival rs' other = arrival rs other) :
    Arranged rs' (keys ++ [key]) where
  mem_iff other := by
    rw [List.mem_append, List.mem_singleton]
    by_cases heq : other = key
    · subst heq
      simp [hslot, hself]
    · rw [hother other heq, h.mem_iff]
      simp [heq]
  sorted := by
    have hne : ∀ a ∈ keys, a ≠ key := fun a ha heq => hnot (heq ▸ ha)
    rw [List.pairwise_append]
    refine ⟨?_, List.pairwise_singleton _ _, ?_⟩
    · refine h.sorted.imp_of_mem fun ha hb hlt => ?_
      rwa [hother _ (hne _ ha), hother _ (hne _ hb)]
    · intro a ha b hb
      obtain rfl := List.mem_singleton.mp hb
      obtain ⟨i, hi⟩ := Option.isSome_iff_exists.mp ((h.mem_iff a).mp ha).2
      rw [hother a (hne a ha), hself]
      exact ⟨i, hi, rs.length, rfl, lt_length_of_arrival hi⟩

theorem filter (h : Arranged rs keys) (hself : arrival rs' key = none)
    (hother : ∀ other, other ≠ key → arrival rs' other = arrival rs other) :
    Arranged rs' (keys.filter (· ≠ key)) where
  mem_iff other := by
    rw [List.mem_filter]
    by_cases heq : other = key
    · subst heq
      simp [hself]
    · rw [hother other heq, h.mem_iff]
      simp [heq]
  sorted := by
    refine (h.sorted.filter _).imp_of_mem fun ha hb hlt => ?_
    rwa [hother _ (by simpa using (List.mem_filter.mp ha).2),
      hother _ (by simpa using (List.mem_filter.mp hb).2)]

theorem nodup (h : Arranged rs keys) : keys.Nodup := by
  refine h.sorted.imp fun hlt heq => ?_
  obtain ⟨i, hi, j, hj, hij⟩ := hlt
  rw [heq, hj] at hi
  cases hi
  omega

end Arranged

/-! ## Any number of requests -/

/-- What was left under a key last. -/
def valueAfter (rs : List AttributeRequest) (key : String) : Option AttributeValue :=
  ((rs.filterMap (·.effect? key)).getLast?).getD (initial key)

/-- A new table with requests carried out on it one after the other. -/
def ofRequests (rs : List AttributeRequest) : AttributeTable :=
  rs.foldl (fun t r => (t.perform r).2) {}

/-- A table holds what requests have left in it. -/
structure Holds (rs : List AttributeRequest) (t : AttributeTable) : Prop where
  get_eq : ∀ key, t.get key = valueAfter rs key
  arranged : Arranged rs t.slots.keys

theorem get_new (key : String) : get {} key = initial key := by
  rw [get, initial]
  cases Accessor.ofKey? key with
  | none => rfl
  | some a => cases a <;> rfl

theorem valueAfter_concat (rs : List AttributeRequest) (r : AttributeRequest) (key : String) :
    valueAfter (rs ++ [r]) key = (r.effect? key).getD (valueAfter rs key) := by
  rw [valueAfter, valueAfter, List.filterMap_append]
  cases h : r.effect? key <;> simp [h]

theorem Arranged.perform (h : Arranged rs t.slots.keys) (r : AttributeRequest) :
    Arranged (rs ++ [r]) (t.perform r).2.slots.keys := by
  cases hwrite : r.write? with
  | some written =>
      obtain ⟨key, value⟩ := written
      have hremoves (other : String) : r.removes other = false := by
        cases r with
        | remove key' => cases hwrite
        | _ => rfl
      have hother {other : String} (hne : other ≠ key) :
          arrival (rs ++ [r]) other = arrival rs other := by
        simp [arrival_concat, hremoves, writes, hwrite, hne.symm]
      have hself : arrival (rs ++ [r]) key = (arrival rs key).or (some rs.length) := by
        simp [arrival_concat, hremoves, writes, hwrite]
      rw [slots_perform_of_write? hwrite]
      by_cases hslot : Accessor.ofKey? key = none
      · rw [if_pos hslot]
        by_cases hmem : key ∈ t.slots.keys
        · -- a slot that is there keeps its place, and its arrival is the one it had
          rw [OrderedMap.keys_insert_of_mem value hmem]
          obtain ⟨i, hi⟩ := Option.isSome_iff_exists.mp ((h.mem_iff key).mp hmem).2
          refine h.congr fun other _ => ?_
          by_cases heq : other = key
          · rw [heq, hself, hi, Option.some_or]
          · exact hother heq
        · rw [OrderedMap.keys_insert_of_not_mem value hmem]
          have hnone : arrival rs key = none := by simpa [h.mem_iff, hslot] using hmem
          exact h.concat hslot hmem (by rw [hself, hnone, Option.none_or]) fun _ => hother
      · rw [if_neg hslot]
        exact h.congr fun other hother' => hother fun heq => hslot (heq ▸ hother')
  | none =>
      have hwrites (other : String) : r.writes other = false := by simp [writes, hwrite]
      cases r with
      | remove key =>
          have hother {other : String} (hne : other ≠ key) :
              arrival (rs ++ [.remove key]) other = arrival rs other := by
            simp [arrival_concat, removes, hwrites, hne.symm]
          rw [AttributeTable.perform, keys_remove]
          exact h.filter (by simp [arrival_concat, removes]) fun _ => hother
      | get key => exact h.congr fun other _ => by simp [arrival_concat, removes, hwrites]
      | contains key => exact h.congr fun other _ => by simp [arrival_concat, removes, hwrites]
      | _ => cases hwrite

theorem Holds.perform (h : Holds rs t) (r : AttributeRequest) :
    Holds (rs ++ [r]) (t.perform r).2 where
  get_eq key := by rw [get_perform, h.get_eq, valueAfter_concat]
  arranged := h.arranged.perform r

theorem holds_ofRequests (rs : List AttributeRequest) : Holds rs (ofRequests rs) := by
  induction rs using List.reverseRecOn with
  | nil => exact ⟨get_new, fun key => by simp [arrival, ofRequests, OrderedMap.keys], List.Pairwise.nil⟩
  | append_singleton rs r ih =>
      rw [ofRequests, List.foldl_append]
      exact ih.perform r

namespace Holds

theorem mem_entries_iff (h : Holds rs t) :
    (key, value) ∈ t.slots.entries ↔ Accessor.ofKey? key = none ∧ t.get key = some value := by
  rw [← OrderedMap.find?_eq_some_iff h.arranged.nodup]
  constructor
  · intro hfind
    have hmem : key ∈ t.slots.keys := by
      rw [← OrderedMap.contains_iff, OrderedMap.contains, hfind]
      rfl
    have hslot := ((h.arranged.mem_iff key).mp hmem).1
    exact ⟨hslot, by rwa [get_of_slot hslot]⟩
  · rintro ⟨hslot, hget⟩
    rwa [get_of_slot hslot] at hget

/-- No slot stands under the key of a field, so there is nothing to remove. -/
theorem remove_key (h : Holds rs t) (a : Accessor) : t.remove a.key = (none, t) := by
  have hnot : a.key ∉ t.slots.keys := by
    rw [h.arranged.mem_iff, Accessor.ofKey?_key]
    simp
  rw [remove, OrderedMap.find?_eq_none_iff.mpr hnot, OrderedMap.erase_of_not_mem hnot]

end Holds

theorem answer_set (t : AttributeTable) (key : String) (value : AttributeValue) :
    (t.perform (.set key value)).1 = .flag (takes key value) := by
  rw [perform]
  cases hset : t.set? key value with
  | none => rw [set?_eq_none_iff.mp hset]
  | some t' =>
      have htakes : takes key value = true := by
        rw [← Bool.not_eq_false, ← set?_eq_none_iff, hset]
        simp
      rw [htakes]

theorem perform_set_of_refused (h : takes key value = false) (t : AttributeTable) :
    t.perform (.set key value) = (.flag false, t) := by
  rw [perform, set?_eq_none_iff.mpr h]

theorem get_perform_of_ne {other : String} (hne : other ≠ key) (t : AttributeTable) :
    (∀ value, (t.perform (.set key value)).2.get other = t.get other) ∧
      (t.perform (.remove key)).2.get other = t.get other := by
  constructor
  · intro value
    rw [get_perform, effect?, write?]
    simp only [hne.symm, false_and, if_false, Option.getD_none]
  · rw [get_perform, effect?, write?]
    simp only [removes, hne.symm, decide_false, Bool.false_eq_true, false_and, if_false,
      Option.getD_none]

/-- After any requests a table holds under each key what was written there last, by the key or through
its field, and the slots stand in the order in which they arrived. Only what a field does not take is
refused, and then nothing changes. -/
theorem holds_last_writes (rs : List AttributeRequest) :
    (∀ key, (ofRequests rs).get key = valueAfter rs key) ∧
    (∀ key value, ((ofRequests rs).perform (.set key value)).1 = .flag (takes key value) ∧
      (takes key value = false ↔ ∃ a : Accessor, key = a.key ∧ value.kind ∉ a.kinds) ∧
      (takes key value = false → ((ofRequests rs).perform (.set key value)).2 = ofRequests rs)) ∧
    (∀ key other, other ≠ key →
      (∀ value, ((ofRequests rs).perform (.set key value)).2.get other = (ofRequests rs).get other) ∧
        ((ofRequests rs).perform (.remove key)).2.get other = (ofRequests rs).get other) ∧
    (∀ key value, (key, value) ∈ (ofRequests rs).slots.entries ↔
      Accessor.ofKey? key = none ∧ (ofRequests rs).get key = some value) ∧
    ((ofRequests rs).slots.keys.Pairwise fun a b =>
      ∃ i ∈ arrival rs a, ∃ j ∈ arrival rs b, i < j) ∧
    (∀ key ∈ (ofRequests rs).slots.keys, ∀ value,
      ((ofRequests rs).perform (.set key value)).2.slots.keys = (ofRequests rs).slots.keys) ∧
    (∀ key, ((ofRequests rs).perform (.remove key)).2.slots.keys =
      (ofRequests rs).slots.keys.filter (· ≠ key)) ∧
    ∀ key, (ofRequests rs).remove key = ((ofRequests rs).slots.find? key,
        { ofRequests rs with slots := (ofRequests rs).slots.erase key }) ∧
      ((Accessor.ofKey? key).isSome = true →
        (ofRequests rs).perform (.remove key) = (.value none, ofRequests rs)) := by
  have h := holds_ofRequests rs
  refine ⟨h.get_eq, fun key value => ⟨answer_set _ key value, takes_eq_false_iff, fun hrefused => ?_⟩,
    fun _ _ hne => get_perform_of_ne hne _, fun _ _ => h.mem_entries_iff, h.arranged.sorted,
    fun key hmem value => ?_, keys_remove _, fun key => ⟨rfl, fun hfield => ?_⟩⟩
  · rw [perform_set_of_refused hrefused]
  · have hslot := ((h.arranged.mem_iff key).mp hmem).1
    rw [slots_perform_of_write? rfl, if_pos hslot, OrderedMap.keys_insert_of_mem value hmem]
  · obtain ⟨a, ha⟩ := Option.isSome_iff_exists.mp hfield
    obtain rfl := Accessor.ofKey?_eq_some_iff.mp ha
    rw [perform, h.remove_key a]

/-- A slot that is removed and written again comes last. -/
example : (ofRequests [.set "b" (.bool true), .set "a" (.bool true), .remove "b",
    .set "b" (.bool false)]).slots.keys = ["a", "b"] := by decide

end AttributeTable

end CodeCatalog
