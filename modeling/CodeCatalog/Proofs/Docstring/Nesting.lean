import Mathlib.Data.List.Infix
import CodeCatalog.Docstring.TypeList
import CodeCatalog.Proofs.Text

/-!
# Nesting

Types whose brackets are balanced can be told apart by the commas between them. A list of such types is
read back from the text that is written for it.
-/
namespace CodeCatalog.TypeList

/-! ## Balanced text -/

/-- How many brackets a character opens. -/
def Role.step : Role → Int
  | opening => 1
  | closing => -1
  | plain => 0

/-- How many brackets more are open behind a text than in front of it, where a given character stands
before it. -/
def rise (last : Char) : Text → Int
  | [] => 0
  | c :: t => (role last c).step + rise c t

/-- Every bracket in a text is closed in it, and none is closed that was opened before. -/
structure Balanced (t : Text) : Prop where
  nonneg : ∀ p, p <+: t → 0 ≤ rise ' ' p
  closed : rise ' ' t = 0

/-- A type that can stand in a list. A comma in it stands in brackets. -/
structure IsEntry (t : Text) : Prop where
  ne_nil : t ≠ []
  trim_eq : t.trim = t
  balanced : Balanced t
  comma_inside : ∀ p, p ++ [','] <+: t → rise ' ' p ≠ 0

instance (t : Text) : Decidable (Balanced t) :=
  decidable_of_iff ((∀ p ∈ t.inits, 0 ≤ rise ' ' p) ∧ rise ' ' t = 0)
    ⟨fun ⟨h, h'⟩ => ⟨fun p hp => h p ((List.mem_inits p t).mpr hp), h'⟩,
      fun h => ⟨fun p hp => h.nonneg p ((List.mem_inits p t).mp hp), h.closed⟩⟩

instance (t : Text) : Decidable (IsEntry t) :=
  decidable_of_iff
    (t ≠ [] ∧ t.trim = t ∧ Balanced t ∧ ∀ p ∈ t.inits, p ++ [','] <+: t → rise ' ' p ≠ 0)
    ⟨fun ⟨hne, htrim, hbalanced, hcomma⟩ => ⟨hne, htrim, hbalanced, fun p hp =>
        hcomma p ((List.mem_inits p t).mpr ((List.prefix_append p [',']).trans hp)) hp⟩,
      fun h => ⟨h.ne_nil, h.trim_eq, h.balanced, fun p _ => h.comma_inside p⟩⟩

/-! ## Scanning -/

namespace Nesting

variable {n : Nesting} {k : Int} {c : Char} {t : Text}

/-- Scans a whole text. -/
def pushAll (n : Nesting) (t : Text) : Nesting :=
  t.foldl push n

/-- Whether a scan of a text never comes out of the innermost `k` brackets. -/
def Stays (n : Nesting) (k : Int) (t : Text) : Prop :=
  ∀ p, p <+: t → k ≤ n.depth + rise n.last p

/-- Where as many brackets are open as are closed, none is closed in vain. -/
theorem depth_push (h : 0 ≤ n.depth + (role n.last c).step) :
    ((n.push c).depth : Int) = n.depth + (role n.last c).step := by
  rw [push]
  revert h
  cases role n.last c <;> simp only [Role.step] <;> omega

theorem Stays.le_depth (h : n.Stays k t) : k ≤ n.depth := by
  simpa [rise] using h [] t.nil_prefix

theorem Stays.depth_push (h : n.Stays k (c :: t)) (hk : 0 ≤ k) :
    ((n.push c).depth : Int) = n.depth + (role n.last c).step := by
  have hc := h [c] ⟨t, rfl⟩
  rw [rise, rise] at hc
  exact Nesting.depth_push (by omega)

theorem Stays.push (h : n.Stays k (c :: t)) (hk : 0 ≤ k) : (n.push c).Stays k t := by
  intro p hp
  have hcp := h (c :: p) (List.cons_prefix_cons.mpr ⟨rfl, hp⟩)
  rw [rise] at hcp
  rw [h.depth_push hk, last_push]
  omega

theorem Stays.depth_pushAll (h : n.Stays k t) (hk : 0 ≤ k) :
    ((n.pushAll t).depth : Int) = n.depth + rise n.last t := by
  induction t generalizing n with
  | nil => simp [pushAll, rise]
  | cons c t ih =>
      have hrest := ih (h.push hk)
      rw [h.depth_push hk, last_push] at hrest
      rw [rise, ← Int.add_assoc]
      exact hrest

end Nesting

open Nesting

variable {n : Nesting} {t : Text} {ts : List Text}

theorem upToClose_append (h : n.Stays 1 t) (rest : Text) :
    upToClose n (t ++ rest) =
      (upToClose (n.pushAll t) rest).map fun (inside, after) => (t ++ inside, after) := by
  induction t generalizing n with
  | nil => simp [pushAll]
  | cons c t ih =>
      have hpush := h.push (by decide)
      have hopen : (n.push c).depth ≠ 0 := by
        have := hpush.le_depth
        omega
      rw [List.cons_append, upToClose, if_neg hopen, ih hpush, Option.map_map]
      rfl

theorem pieces_append (h : n.Stays 0 t) (hcomma : ∀ p, p ++ [','] <+: t → n.depth + rise n.last p ≠ 0)
    (rest : Text) : pieces n (t ++ rest) = (pieces (n.pushAll t) rest).modifyHead (t ++ ·) := by
  induction t generalizing n with
  | nil =>
      obtain ⟨l, ls, hls⟩ := List.exists_cons_of_ne_nil (pieces_ne_nil n rest)
      rw [pushAll, List.foldl_nil, List.nil_append, hls]
      rfl
  | cons c t ih =>
      have hnot : ¬ (c = ',' ∧ n.depth = 0) := by
        rintro ⟨rfl, hzero⟩
        exact hcomma [] ⟨t, rfl⟩ (by simp [rise, hzero])
      have hrest : ∀ p, p ++ [','] <+: t → (n.push c).depth + rise (n.push c).last p ≠ 0 := by
        intro p hp
        have hcp := hcomma (c :: p) (List.cons_prefix_cons.mpr ⟨rfl, hp⟩)
        rwa [h.depth_push (by decide), last_push, Int.add_assoc]
      rw [List.cons_append, pieces, if_neg hnot, ih (h.push (by decide)) hrest,
        List.modifyHead_modifyHead]
      rfl

/-! ## Types in a list -/

/-- The types between the brackets of a list, with a comma and a blank between every two. -/
def listed (ts : List Text) : Text :=
  List.intercalate [',', ' '] ts

/-- A list of types as it is written. -/
def written (ts : List Text) : Text :=
  '[' :: (listed ts ++ [']'])

theorem listed_singleton (t : Text) : listed [t] = t :=
  List.intercalate_singleton

theorem listed_cons_cons (t next : Text) (ts : List Text) :
    listed (t :: next :: ts) = t ++ ',' :: ' ' :: listed (next :: ts) := by
  rw [listed, List.intercalate_cons_cons, List.append_assoc]
  rfl

/-- Between two types the scan is as it was at the start. -/
theorem push_separator (n : Nesting) : (n.push ',').push ' ' = .start n.depth := by
  simp [push, role, start]

theorem depth_push_comma (n : Nesting) : (n.push ',').depth = n.depth := by
  simp [push, role]

theorem depth_push_close (n : Nesting) : (n.push ']').depth = n.depth - 1 := by
  simp [push, role]

theorem upToClose_separator (h : n.depth ≠ 0) (rest : Text) :
    upToClose n (',' :: ' ' :: rest) =
      (upToClose (.start n.depth) rest).map fun (inside, after) =>
        (',' :: ' ' :: inside, after) := by
  have hcomma : (n.push ',').depth ≠ 0 := by rwa [depth_push_comma]
  have hblank : (Nesting.start n.depth).depth ≠ 0 := h
  rw [upToClose, if_neg hcomma, upToClose, push_separator, if_neg hblank, Option.map_map]
  rfl

theorem pieces_separator (h : n.depth = 0) (rest : Text) :
    pieces n (',' :: ' ' :: rest) = [] :: (pieces (.start 0) rest).modifyHead (' ' :: ·) := by
  rw [pieces, if_pos ⟨rfl, h⟩, pieces, if_neg (by simp), push_separator, h]

namespace IsEntry

theorem stays (h : IsEntry t) (depth : Nat) : (Nesting.start depth).Stays depth t := by
  intro p hp
  have := h.balanced.nonneg p hp
  simp only [start]
  omega

/-- A type leaves as many brackets open as there were before it. -/
theorem depth_pushAll (h : IsEntry t) (depth : Nat) :
    ((Nesting.start depth).pushAll t).depth = depth := by
  have hdepth := (h.stays depth).depth_pushAll (by omega)
  have hclosed := h.balanced.closed
  simp only [start] at hdepth ⊢
  omega

theorem pieces_append (h : IsEntry t) (rest : Text) :
    pieces (.start 0) (t ++ rest) =
      (pieces ((Nesting.start 0).pushAll t) rest).modifyHead (t ++ ·) := by
  refine TypeList.pieces_append (h.stays 0) (fun p hp => ?_) rest
  simpa [start] using h.comma_inside p hp

end IsEntry

/-- The bracket that closes a list is the first that leaves none open. -/
theorem upToClose_listed (h : ∀ t ∈ ts, IsEntry t) (rest : Text) :
    upToClose (.start 1) (listed ts ++ ']' :: rest) = some (listed ts, rest) := by
  have hclose {n : Nesting} (hn : n.depth = 1) : upToClose n (']' :: rest) = some ([], rest) := by
    rw [upToClose, if_pos (by rw [depth_push_close, hn])]
  induction ts with
  | nil => exact hclose rfl
  | cons t ts ih =>
      have ht := h t (by simp)
      have hdepth := ht.depth_pushAll 1
      cases ts with
      | nil =>
          rw [listed_singleton, upToClose_append (ht.stays 1), hclose hdepth, Option.map_some]
          simp only [List.append_nil]
      | cons next ts =>
          have hrest := ih fun t ht => h t (by simp [ht])
          rw [listed_cons_cons, List.append_assoc, upToClose_append (ht.stays 1), List.cons_append,
            List.cons_append, upToClose_separator (by simp [hdepth]), hdepth, hrest]
          rfl

theorem map_trim_modifyHead (ls : List Text) :
    (ls.modifyHead (' ' :: ·)).map Text.trim = ls.map Text.trim := by
  cases ls with
  | nil => rfl
  | cons l ls =>
      rw [List.modifyHead_cons, List.map_cons, Text.trim_cons Text.isBlank_space, List.map_cons]

theorem map_trim_pieces_listed (hne : ts ≠ []) (h : ∀ t ∈ ts, IsEntry t) :
    (pieces (.start 0) (listed ts)).map Text.trim = ts := by
  induction ts with
  | nil => exact absurd rfl hne
  | cons t ts ih =>
      have ht := h t (by simp)
      have hdepth := ht.depth_pushAll 0
      cases ts with
      | nil =>
          have hpieces := ht.pieces_append []
          rw [List.append_nil] at hpieces
          rw [listed_singleton, hpieces, pieces, List.modifyHead_cons, List.append_nil,
            List.map_singleton, ht.trim_eq]
      | cons next ts =>
          have hrest := ih (by simp) fun t ht => h t (by simp [ht])
          rw [listed_cons_cons, ht.pieces_append, pieces_separator hdepth, List.modifyHead_cons,
            List.append_nil, List.map_cons, ht.trim_eq, map_trim_modifyHead, hrest]

theorem entries_listed (h : ∀ t ∈ ts, IsEntry t) : entries (listed ts) = ts := by
  by_cases hne : ts = []
  · subst hne
    rfl
  · rw [entries, map_trim_pieces_listed hne h, List.filter_eq_self]
    exact fun t ht => decide_eq_true (h t ht).ne_nil

/-- A list of types is read back from the text that is written for it, whatever follows. -/
theorem read?_written (h : ∀ t ∈ ts, IsEntry t) (rest : Text) :
    read? (written ts ++ rest) = some (ts, rest.trimStart) := by
  have hsplit : written ts ++ rest = '[' :: (listed ts ++ ']' :: rest) := by simp [written]
  rw [hsplit, read?, upToClose_listed h, Option.map_some]
  simp only [entries_listed h]

end CodeCatalog.TypeList
