import Mathlib.Data.List.Induction
import Mathlib.Data.List.InsertIdx
import Mathlib.Data.List.Nodup
import Mathlib.Data.List.Perm.Basic
import CodeCatalog.Entity.Basic

/-!
# Moving to the front

What a ledger holds after any number of records, said of the list of them: which position is canonical,
and in which order the positions are listed.
-/
namespace CodeCatalog

/-! ## Positions -/

namespace CanonicalPolicy

variable (policy : CanonicalPolicy) (records : List (Location × Bool))

/-- The documented position that the policy chooses, if there is one. -/
def chosenPosition : Option Nat :=
  match policy with
  | latestDocumented => (records.findIdxs (·.2)).getLast?
  | firstDocumented => (records.findIdxs (·.2)).head?
  | firstDiscovered => none

/-- The canonical position. Where none is chosen it is the first. -/
def position : Option Nat :=
  if records = [] then none else some ((policy.chosenPosition records).getD 0)

/-- All positions: the canonical one, and then the others as they came. -/
def order : List Nat :=
  match policy.position records with
  | none => []
  | some i => i :: (List.range records.length).erase i

variable {policy records}

theorem lt_length_of_chosenPosition {i : Nat} (h : policy.chosenPosition records = some i) :
    i < records.length := by
  have hmem : i ∈ records.findIdxs (·.2) := by
    cases policy with
    | latestDocumented => exact List.mem_of_getLast? h
    | firstDocumented => exact List.mem_of_head? h
    | firstDiscovered => cases h
  exact (List.mem_findIdxs_iff_exists_getElem_pos.mp hmem).1

theorem lt_length_of_position {i : Nat} (h : policy.position records = some i) :
    i < records.length := by
  rw [position] at h
  split at h
  · cases h
  · next hne =>
      cases Option.some.inj h
      cases hc : policy.chosenPosition records with
      | none => exact List.length_pos_iff.mpr hne
      | some i => exact lt_length_of_chosenPosition hc

/-- No position is lost, and none is listed twice. -/
theorem order_perm : (policy.order records).Perm (List.range records.length) := by
  rw [order]
  cases h : policy.position records with
  | none =>
      have hnil : records = [] := by simpa [position] using h
      rw [hnil]
      exact List.Perm.nil
  | some i =>
      have hmem : i ∈ List.range records.length := List.mem_range.mpr (lt_length_of_position h)
      exact (List.perm_cons_erase hmem).symm

end CanonicalPolicy

/-! ## Records -/

namespace Ledger

variable {policy : CanonicalPolicy} {records : List (Location × Bool)} {l : Ledger}

/-- A new ledger with sites recorded in it one after the other. -/
def ofRecords (policy : CanonicalPolicy) (records : List (Location × Bool)) : Ledger :=
  records.foldl (fun l found => l.record found.1 found.2) { policy }

/-- A ledger holds what has been recorded in it. -/
structure Holds (policy : CanonicalPolicy) (records : List (Location × Bool)) (l : Ledger) :
    Prop where
  policy_eq : l.policy = policy
  sites : l.sites = records.map (·.1)
  chosen : l.chosen = policy.chosenPosition records

theorem policy_foldl_record (l : Ledger) (records : List (Location × Bool)) :
    (records.foldl (fun l found => l.record found.1 found.2) l).policy = l.policy := by
  induction records generalizing l with
  | nil => rfl
  | cons found records ih => exact ih _

theorem sites_foldl_record (l : Ledger) (records : List (Location × Bool)) :
    (records.foldl (fun l found => l.record found.1 found.2) l).sites =
      l.sites ++ records.map (·.1) := by
  induction records generalizing l with
  | nil => exact (List.append_nil _).symm
  | cons found records ih =>
      rw [List.foldl_cons, ih, sites_record, List.append_assoc]
      rfl

theorem choose_chosenPosition (found : Location × Bool) :
    choose policy (policy.chosenPosition records) records.length found.2 =
      policy.chosenPosition (records ++ [found]) := by
  obtain ⟨site, documented⟩ := found
  cases policy <;> cases documented <;>
    simp [choose, CanonicalPolicy.chosenPosition]

theorem Holds.record (h : Holds policy records l) (found : Location × Bool) :
    Holds policy (records ++ [found]) (l.record found.1 found.2) where
  policy_eq := h.policy_eq
  sites := by rw [sites_record, h.sites, List.map_append]; rfl
  chosen := by
    rw [← choose_chosenPosition, ← h.chosen, Ledger.record, h.policy_eq, h.sites, List.length_map]

theorem holds_ofRecords (policy : CanonicalPolicy) (records : List (Location × Bool)) :
    Holds policy records (ofRecords policy records) := by
  induction records using List.reverseRecOn with
  | nil => exact ⟨rfl, rfl, by cases policy <;> rfl⟩
  | append_singleton records found ih =>
      rw [ofRecords, List.foldl_append]
      exact ih.record found

namespace Holds

theorem canonicalIndex_eq (h : Holds policy records l) :
    l.canonicalIndex = policy.position records := by
  simp only [canonicalIndex, CanonicalPolicy.position, h.sites, h.chosen, List.map_eq_nil_iff]

theorem lt_length (h : Holds policy records l) {i : Nat} (hi : l.canonicalIndex = some i) :
    i < l.sites.length := by
  rw [h.sites, List.length_map]
  rw [h.canonicalIndex_eq] at hi
  exact CanonicalPolicy.lt_length_of_position hi

theorem canonicalFirst_eq (h : Holds policy records l) :
    l.canonicalFirst.map some = (policy.order records).map (l.sites[·]?) := by
  have hlen : records.length = l.sites.length := by rw [h.sites, List.length_map]
  rw [canonicalFirst, CanonicalPolicy.order, ← h.canonicalIndex_eq]
  cases hi : l.canonicalIndex with
  | none => rfl
  | some i =>
      have hlt := h.lt_length hi
      have hall : (List.range l.sites.length).map (l.sites[·]?) = l.sites.map some := by
        apply List.ext_getElem <;> simp
      have herase : (List.range l.sites.length).erase i = (List.range l.sites.length).eraseIdx i := by
        rw [← List.nodup_range.erase_getElem i (by rwa [List.length_range]), List.getElem_range]
      simp only [hlen, herase, List.map_cons, ← List.eraseIdx_map, hall,
        List.getElem?_eq_getElem hlt, Option.toList_some, List.singleton_append]

theorem canonicalFirst_perm (h : Holds policy records l) : l.canonicalFirst.Perm l.sites := by
  rw [canonicalFirst]
  cases hi : l.canonicalIndex with
  | none =>
      have hnil : l.sites = [] := by simpa [canonicalIndex] using hi
      rw [hnil]
  | some i =>
      have hlt := h.lt_length hi
      simp only [List.getElem?_eq_getElem hlt, Option.toList_some, List.singleton_append]
      exact List.getElem_cons_eraseIdx_perm hlt

theorem head?_canonicalFirst (h : Holds policy records l) : l.canonicalFirst.head? = l.canonical := by
  rw [canonicalFirst, canonical]
  cases hi : l.canonicalIndex with
  | none => rfl
  | some i => simp [List.getElem?_eq_getElem (h.lt_length hi)]

theorem lastIsCanonical_iff (h : Holds policy records l) (found : Location × Bool) :
    (l.record found.1 found.2).lastIsCanonical = true ↔
      policy.position (records ++ [found]) = some records.length := by
  rw [lastIsCanonical, (h.record found).canonicalIndex_eq, (h.record found).sites]
  simp

end Holds

/-- A ledger lists its sites with the canonical one moved to the front. Sites are told apart by their
positions, so that one found twice is listed twice. -/
theorem moves_to_front (policy : CanonicalPolicy) (records : List (Location × Bool)) :
    (ofRecords policy records).sites = records.map (·.1) ∧
      (ofRecords policy records).canonicalIndex = policy.position records ∧
      (ofRecords policy records).canonicalFirst.map some =
        (policy.order records).map ((records.map (·.1))[·]?) ∧
      (policy.order records).Perm (List.range records.length) ∧
      (ofRecords policy records).canonicalFirst.Perm (records.map (·.1)) ∧
      (ofRecords policy records).canonicalFirst.head? = (ofRecords policy records).canonical ∧
      (∀ found : Location × Bool,
        ((ofRecords policy records).record found.1 found.2).lastIsCanonical = true ↔
          policy.position (records ++ [found]) = some records.length) ∧
      ∀ e : Entity,
        Entity.derived { e with ledger := ofRecords policy records } .file =
            (ofRecords policy records).canonicalFirst.head?.map (.text ·.file) ∧
          Entity.derived { e with ledger := ofRecords policy records } .line =
            (ofRecords policy records).canonicalFirst.head?.map (.int ·.line.toInt64) := by
  have h := holds_ofRecords policy records
  have horder := h.canonicalFirst_eq
  have hperm := h.canonicalFirst_perm
  rw [h.sites] at horder hperm
  refine ⟨h.sites, h.canonicalIndex_eq, horder, CanonicalPolicy.order_perm, hperm,
    h.head?_canonicalFirst, h.lastIsCanonical_iff, fun e => ?_⟩
  rw [h.head?_canonicalFirst]
  exact ⟨rfl, rfl⟩

end Ledger

end CodeCatalog
