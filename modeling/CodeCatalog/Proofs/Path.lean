import Mathlib.Data.List.Induction
import CodeCatalog.DeclaredName
import CodeCatalog.Path

/-! Paths as they are put together: the namespaces of a compound name, and when two places have one
path. -/
namespace CodeCatalog.Path

variable {q : Text} {k : EntityKind} {l : Text}

theorem member_ne_nil (h : l ≠ []) : member q k l ≠ [] := by
  unfold member
  split
  · exact h
  · simp [h]

theorem length_lt_member (q : Text) (k : EntityKind) (h : l ≠ []) :
    q.length < (member q k l).length := by
  have hl := List.length_pos_iff.mpr h
  unfold member
  split
  · rename_i hroot
    rwa [hroot.1]
  · simp only [List.length_append]
    omega

/-! ## Two places with one path -/

/-- What stands before the name in the path of a member. -/
def stem (ownerPath : Text) (kind : EntityKind) : Text :=
  if ownerPath = [] ∧ kind.separator = nameSeparator then [] else ownerPath ++ kind.separator

/-- The characters that separators are made of. -/
def isSeparatorChar (c : Char) : Bool :=
  c = ':' || c = '#' || c = '.'

/-- The first name ends in a separator character with the second name after it. -/
def Overlaps (a b : Text) : Prop :=
  ∃ t c, isSeparatorChar c = true ∧ a = t ++ c :: b

theorem Overlaps.ne {a b : Text} (h : Overlaps a b) : a ≠ b := by
  rintro rfl
  obtain ⟨t, c, _, ha⟩ := h
  have hlen := congrArg List.length ha
  simp only [List.length_append, List.length_cons] at hlen
  omega

theorem member_eq_stem_append (q : Text) (k : EntityKind) (l : Text) :
    member q k l = stem q k ++ l := by
  unfold member stem
  split <;> rfl

theorem getLast?_separator (k : EntityKind) :
    ∃ c, k.separator.getLast? = some c ∧ isSeparatorChar c = true := by
  cases k
  · exact ⟨':', rfl, rfl⟩
  · exact ⟨':', rfl, rfl⟩
  · exact ⟨'#', rfl, rfl⟩
  · exact ⟨'.', rfl, rfl⟩

theorem separator_eq_of_getLast?_eq {k k' : EntityKind}
    (h : k.separator.getLast? = k'.separator.getLast?) : k.separator = k'.separator := by
  revert h
  cases k <;> cases k' <;> decide

theorem getLast?_append_separator (q : Text) (k : EntityKind) :
    (q ++ k.separator).getLast? = k.separator.getLast? := by
  obtain ⟨c, hc, _⟩ := getLast?_separator k
  rw [List.getLast?_append, hc, Option.some_or]

theorem append_separator_ne_nil (q : Text) (k : EntityKind) : q ++ k.separator ≠ [] := by
  cases k <;> simp [EntityKind.separator, nameSeparator]

/-- The last character of a stem tells the separator, and then the rest is the owner's path. -/
theorem stem_inj {q' : Text} {k' : EntityKind} (h : stem q k = stem q' k') :
    q = q' ∧ k.separator = k'.separator := by
  unfold stem at h
  by_cases hq : q = [] ∧ k.separator = nameSeparator
  · by_cases hq' : q' = [] ∧ k'.separator = nameSeparator
    · exact ⟨hq.1.trans hq'.1.symm, hq.2.trans hq'.2.symm⟩
    · rw [if_pos hq, if_neg hq'] at h
      exact absurd h.symm (append_separator_ne_nil q' k')
  · by_cases hq' : q' = [] ∧ k'.separator = nameSeparator
    · rw [if_neg hq, if_pos hq'] at h
      exact absurd h (append_separator_ne_nil q k)
    · rw [if_neg hq, if_neg hq'] at h
      have hlast := congrArg List.getLast? h
      rw [getLast?_append_separator, getLast?_append_separator] at hlast
      have hsep := separator_eq_of_getLast?_eq hlast
      rw [hsep] at h
      exact ⟨List.append_cancel_right h, hsep⟩

theorem overlaps_of_stem_eq_append {s x : Text} (h : stem q k = s ++ x) (hx : x ≠ []) (l : Text) :
    Overlaps (x ++ l) l := by
  rcases List.eq_nil_or_concat x with rfl | ⟨t, c, rfl⟩
  · exact absurd rfl hx
  · refine ⟨t, c, ?_, by simp⟩
    obtain ⟨c', hc', hsep⟩ := getLast?_separator k
    unfold stem at h
    split at h
    · simp at h
    · have hlast := congrArg List.getLast? h
      rw [getLast?_append_separator, hc', List.concat_eq_append, ← List.append_assoc,
        List.getLast?_concat, Option.some.injEq] at hlast
      rw [← hlast]
      exact hsep

/-- Two members have one path only if they stand at one place, or if the name of one is in the name
of the other from a separator on. -/
theorem eq_or_overlaps_of_member_eq {q' l' : Text} {k' : EntityKind}
    (h : member q k l = member q' k' l') :
    (l = l' ∧ q = q' ∧ k.separator = k'.separator) ∨ Overlaps l l' ∨ Overlaps l' l := by
  rw [member_eq_stem_append, member_eq_stem_append] at h
  rcases List.append_eq_append_iff.mp h with ⟨x, hx, hl⟩ | ⟨x, hx, hl⟩
  · by_cases hnil : x = []
    · subst hnil
      rw [List.append_nil] at hx
      exact Or.inl ⟨hl, (stem_inj hx).imp Eq.symm Eq.symm⟩
    · rw [hl]
      exact Or.inr (Or.inl (overlaps_of_stem_eq_append hx hnil l'))
  · by_cases hnil : x = []
    · subst hnil
      rw [List.append_nil] at hx
      exact Or.inl ⟨hl.symm, stem_inj hx⟩
    · rw [hl]
      exact Or.inr (Or.inr (overlaps_of_stem_eq_append hx hnil l))

/-! ## Compound names -/

theorem intercalate_append_cons (sep a b : Text) (ls : List Text) :
    sep.intercalate ((a ++ sep ++ b) :: ls) = a ++ sep ++ sep.intercalate (b :: ls) := by
  cases ls with
  | nil => simp
  | cons l ls => simp [List.intercalate_cons_cons]

theorem intercalate_concat (sep : Text) (ls : List Text) (l : Text) :
    sep.intercalate (ls ++ [l]) = ls.flatMap (· ++ sep) ++ l := by
  induction ls with
  | nil => simp
  | cons a ls ih => rw [List.cons_append, List.intercalate_cons_of_ne_nil (by simp), ih]; simp

theorem intercalate_eq_nil_iff {ss : List Text} (h : ∀ s ∈ ss, s ≠ []) :
    nameSeparator.intercalate ss = [] ↔ ss = [] := by
  cases ss with
  | nil => simp
  | cons s ss =>
      have hs : s ≠ [] := h s (by simp)
      cases ss <;> simp [List.intercalate_cons_cons, hs]

theorem foldl_member_of_ne_nil (names : List Text) (hq : q ≠ []) :
    names.foldl (fun q n => member q .ns n) q = nameSeparator.intercalate (q :: names) := by
  induction names generalizing q with
  | nil => simp
  | cons n names ih =>
      have hm : member q .ns n = q ++ nameSeparator ++ n := by simp [member, hq, EntityKind.separator]
      rw [List.foldl_cons, hm, ih (by simp [hq]), intercalate_append_cons,
        List.intercalate_cons_cons]

/-- Namespaces one within the other have the path that joins their names. -/
theorem foldl_member {names : List Text} (h : ∀ n ∈ names, n ≠ []) :
    names.foldl (fun q n => member q .ns n) [] = nameSeparator.intercalate names := by
  cases names with
  | nil => rfl
  | cons n names =>
      rw [List.foldl_cons]
      exact foldl_member_of_ne_nil names (h n (by simp))

theorem member_intercalate {names : List Text} {n : Text} (h : ∀ s ∈ names ++ [n], s ≠ []) :
    member (nameSeparator.intercalate names) .ns n = nameSeparator.intercalate (names ++ [n]) := by
  rw [← foldl_member h, List.foldl_append, foldl_member fun s hs => h s (List.mem_append_left _ hs)]
  rfl

theorem length_intercalate_le {ns names : List Text} (h : ∀ s ∈ names, s ≠ []) (hns : ns <+: names) :
    (nameSeparator.intercalate ns).length ≤ (nameSeparator.intercalate names).length := by
  induction names using List.reverseRecOn with
  | nil =>
      cases List.prefix_nil.mp hns
      exact Nat.le_refl _
  | append_singleton names n ih =>
      rcases List.prefix_concat_iff.mp hns with rfl | hns
      · exact Nat.le_refl _
      · have hlt := length_lt_member (nameSeparator.intercalate names) .ns (h n (by simp))
        rw [member_intercalate h] at hlt
        exact Nat.le_of_lt
          (Nat.lt_of_le_of_lt (ih (fun s hs => h s (List.mem_append_left _ hs)) hns) hlt)

/-- One name more makes the path longer. -/
theorem length_intercalate_lt {ns names : List Text} {n : Text} (h : ∀ s ∈ names ++ [n], s ≠ [])
    (hns : ns <+: names) :
    (nameSeparator.intercalate ns).length < (nameSeparator.intercalate (names ++ [n])).length := by
  have hle := length_intercalate_le (fun s hs => h s (List.mem_append_left _ hs)) hns
  rw [← member_intercalate h]
  exact Nat.lt_of_le_of_lt hle (length_lt_member _ .ns (h n (by simp)))

/-- The paths of namespaces that stand one within the other, from the one within `q` on. -/
def descent (q : Text) : List Text → List Text
  | [] => []
  | n :: names => member q .ns n :: descent (member q .ns n) names

theorem descent_concat (q : Text) (names : List Text) (n : Text) :
    descent q (names ++ [n]) =
      descent q names ++ [(names ++ [n]).foldl (fun q n => member q .ns n) q] := by
  induction names generalizing q with
  | nil => rfl
  | cons m names ih => simp [descent, ih]

/-- Below the root these are the paths that join the first names. -/
theorem descent_nil_eq {names : List Text} (h : ∀ n ∈ names, n ≠ []) :
    descent [] names =
      (List.range names.length).map fun i => nameSeparator.intercalate (names.take (i + 1)) := by
  induction names using List.reverseRecOn with
  | nil => rfl
  | append_singleton names n ih =>
      have hearlier : (List.range names.length).map
            (fun i => nameSeparator.intercalate ((names ++ [n]).take (i + 1))) =
          (List.range names.length).map fun i => nameSeparator.intercalate (names.take (i + 1)) := by
        refine List.map_congr_left fun i hi => ?_
        rw [List.take_append_of_le_length (List.mem_range.mp hi)]
      have hlast : (names ++ [n]).take (names.length + 1) = names ++ [n] :=
        List.take_of_length_le (by simp)
      rw [descent_concat, foldl_member h, ih fun m hm => h m (List.mem_append_left _ hm),
        List.length_append, List.length_singleton, List.range_succ, List.map_append, hearlier,
        List.map_singleton, hlast]

end CodeCatalog.Path

namespace CodeCatalog.DeclaredName

variable {name : Text} {n : DeclaredName}

theorem parts_ne_nil (h : read? name = some n) : n.leaf ≠ [] ∧ ∀ s ∈ n.outer, s ≠ [] := by
  unfold read? at h
  simp only at h
  split at h
  · cases h
  · rename_i hno
    cases h
    have hmem : ∀ s ∈ segments (takeAnchor name).2, s ≠ [] := fun s hs he => hno (he ▸ hs)
    constructor
    · rw [List.getLastD_eq_getLast?, List.getLast?_eq_some_getLast (segments_ne_nil _)]
      exact hmem _ (List.getLast_mem _)
    · intro s hs
      exact hmem s ((List.dropLast_sublist _).subset hs)

end CodeCatalog.DeclaredName
