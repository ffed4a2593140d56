import Mathlib.Data.List.Forall2
import Mathlib.Order.Bounds.Basic
import CodeCatalog.Proofs.Text
import CodeCatalog.Snippet

/-!
# Cutting

What is cut off a snippet: its last line terminator, from each line with something on it the least
indentation of such lines, and from a blank line all its indentation.
-/
namespace CodeCatalog.Snippet

variable {c : Char} {margin line rest : Text} {ls : List Text} {width : Nat}

/-! ## Margins -/

/-- Text that is indentation throughout. -/
def IsMargin (t : Text) : Prop :=
  ∀ c ∈ t, isIndent c = true

instance (t : Text) : Decidable (IsMargin t) :=
  decidable_of_iff (t.all isIndent = true) List.all_eq_true

theorem isBlank_of_isIndent (h : isIndent c = true) : isBlank c = true := by
  simp only [isIndent, Bool.or_eq_true, decide_eq_true_eq] at h
  obtain rfl | rfl := h <;> rfl

theorem isMargin_takeWhile (line : Text) : IsMargin (line.takeWhile isIndent) :=
  fun _ hc => List.mem_takeWhile_imp hc

theorem isMargin_take (h : width ≤ indentation line) : IsMargin (line.take width) := by
  intro c hc
  have hstart : line.take width <+: line.takeWhile isIndent :=
    List.prefix_of_prefix_length_le (List.take_prefix _ _) (List.takeWhile_prefix _)
      (Nat.le_trans (List.length_take_le _ _) h)
  exact isMargin_takeWhile line c (hstart.mem hc)

theorem indentation_append (h : IsMargin margin) (line : Text) :
    indentation (margin ++ line) = margin.length + indentation line := by
  rw [indentation, List.takeWhile_append_of_pos h, List.length_append, indentation]

theorem allBlank_append (h : IsMargin margin) (line : Text) :
    (margin ++ line).allBlank = line.allBlank := by
  have hmargin : margin.all isBlank = true :=
    List.all_eq_true.mpr fun c hc => isBlank_of_isIndent (h c hc)
  rw [Text.allBlank, List.all_append, hmargin, Bool.true_and, Text.allBlank]

theorem filter_append (h : IsMargin margin) (line : Text) :
    (margin ++ line).filter (!isIndent ·) = line.filter (!isIndent ·) := by
  have hmargin : margin.filter (!isIndent ·) = [] := by
    rw [List.filter_eq_nil_iff]
    intro c hc
    simp [h c hc]
  rw [List.filter_append, hmargin, List.nil_append]

/-! ## The common indentation -/

theorem commonIndentation_isLeast (h : ∃ l ∈ ls, l.allBlank = false) :
    IsLeast {n | ∃ l ∈ ls, l.allBlank = false ∧ indentation l = n} (commonIndentation ls) := by
  have hmem (n : Nat) : n ∈ (ls.filter fun l => !l.allBlank).map indentation ↔
      ∃ l ∈ ls, l.allBlank = false ∧ indentation l = n := by
    simp [and_assoc]
  obtain ⟨l, hl, hfull⟩ := h
  cases hmin : ((ls.filter fun l => !l.allBlank).map indentation).min? with
  | none =>
      rw [List.min?_eq_none_iff] at hmin
      have hin := (hmem _).mpr ⟨l, hl, hfull, rfl⟩
      rw [hmin] at hin
      cases hin
  | some n =>
      obtain ⟨hin, hle⟩ := List.min?_eq_some_iff.mp hmin
      rw [commonIndentation, hmin, Option.getD_some]
      exact ⟨(hmem n).mp hin, fun m hm => hle m ((hmem m).mpr hm)⟩

theorem commonIndentation_of_blank (h : ∀ l ∈ ls, l.allBlank = true) : commonIndentation ls = 0 := by
  have hnone : ls.filter (fun l => !l.allBlank) = [] := by
    rw [List.filter_eq_nil_iff]
    intro l hl
    simp [h l hl]
  rw [commonIndentation, hnone]
  rfl

theorem commonIndentation_le (hl : line ∈ ls) (hfull : line.allBlank = false) :
    commonIndentation ls ≤ indentation line :=
  (commonIndentation_isLeast ⟨line, hl, hfull⟩).2 ⟨line, hl, hfull, rfl⟩

/-! ## Lines -/

/-- A line is a margin and what is left of it. The margin of a blank line is all its indentation, that of
any other line has the given width. -/
def Cut (width : Nat) (line rest : Text) : Prop :=
  ∃ margin, IsMargin margin ∧ line = margin ++ rest ∧
    if line.allBlank then ∀ c ∈ rest.head?, isIndent c = false else margin.length = width

theorem cut_dedentLine (h : line.allBlank = false → width ≤ indentation line) :
    Cut width line (dedentLine width line) := by
  rw [dedentLine]
  cases hblank : line.allBlank with
  | true =>
      refine ⟨line.takeWhile isIndent, isMargin_takeWhile line, ?_, ?_⟩
      · exact List.takeWhile_append_dropWhile.symm
      · rw [if_pos hblank]
        exact head?_dropWhile isIndent line
  | false =>
      have hwidth := h hblank
      have hle : width ≤ line.length :=
        Nat.le_trans hwidth (List.takeWhile_prefix _).length_le
      refine ⟨line.take width, isMargin_take hwidth, ?_, ?_⟩
      · rw [if_neg (by simp), unindent_eq_drop hwidth, List.take_append_drop]
      · rw [hblank, if_neg (by simp), List.length_take_of_le hle]

namespace Cut

theorem suffix (h : Cut width line rest) : rest <:+ line := by
  obtain ⟨margin, -, rfl, -⟩ := h
  exact List.suffix_append _ _

theorem allBlank_eq (h : Cut width line rest) : rest.allBlank = line.allBlank := by
  obtain ⟨margin, hmargin, rfl, -⟩ := h
  exact (allBlank_append hmargin rest).symm

/-- A blank line keeps no indentation. -/
theorem head?_eq (h : Cut width line rest) (hblank : rest.allBlank = true) :
    ∀ c ∈ rest.head?, isIndent c = false := by
  rw [h.allBlank_eq] at hblank
  obtain ⟨margin, -, -, hrest⟩ := h
  rwa [if_pos hblank] at hrest

theorem filter_eq (h : Cut width line rest) :
    rest.filter (!isIndent ·) = line.filter (!isIndent ·) := by
  obtain ⟨margin, hmargin, rfl, -⟩ := h
  exact (filter_append hmargin rest).symm

theorem indentation_eq (h : Cut width line rest) (hfull : line.allBlank = false) :
    indentation line = width + indentation rest := by
  obtain ⟨margin, hmargin, rfl, hwidth⟩ := h
  rw [hfull, if_neg (by simp)] at hwidth
  rw [indentation_append hmargin, hwidth]

end Cut

/-! ## Snippets -/

/-- A terminator at the end is dropped, and of two the last alone. -/
theorem dropTerminator_cases (t : Text) :
    t = dropTerminator t ++ ['\r', '\n'] ∨
      t = dropTerminator t ++ ['\n'] ∧ (dropTerminator t).getLast? ≠ some '\r' ∨
      t = dropTerminator t ∧ t.getLast? ≠ some '\n' := by
  rw [dropTerminator]
  split
  · next rest h => exact Or.inl (by simpa using congrArg List.reverse h)
  · next rest hnot h =>
      refine Or.inr (Or.inl ⟨by simpa using congrArg List.reverse h, ?_⟩)
      rw [List.getLast?_reverse]
      intro hhead
      obtain ⟨rest', rfl⟩ := List.head?_eq_some_iff.mp hhead
      exact hnot rest' rfl
  · next hnot hnot' =>
      refine Or.inr (Or.inr ⟨rfl, ?_⟩)
      rw [List.getLast?_eq_head?_reverse]
      intro hhead
      obtain ⟨rest, hrest⟩ := List.head?_eq_some_iff.mp hhead
      exact hnot' rest hrest

theorem cut_of_mem (hl : line ∈ ls) :
    Cut (commonIndentation ls) line (dedentLine (commonIndentation ls) line) :=
  cut_dedentLine (commonIndentation_le hl)

theorem lines_dedent (t : Text) :
    (dedent t).lines = (dropTerminator t).lines.map
      (dedentLine (commonIndentation (dropTerminator t).lines)) := by
  rw [dedent]
  refine Text.lines_unlines ?_ ?_
  · intro rest hrest hmem
    obtain ⟨line, hl, rfl⟩ := List.mem_map.mp hrest
    exact Text.not_mem_of_mem_lines hl ((cut_of_mem hl).suffix.mem hmem)
  · simpa using Text.lines_ne_nil _

theorem forall₂_cut (t : Text) :
    List.Forall₂ (Cut (commonIndentation (dropTerminator t).lines)) (dropTerminator t).lines
      (dedent t).lines := by
  rw [lines_dedent, List.forall₂_map_right_iff, List.forall₂_same]
  exact fun line hl => cut_of_mem hl

theorem indentation_of_mem_zip {t : Text} {p : Text × Text}
    (hp : p ∈ (dropTerminator t).lines.zip (dedent t).lines) (hfull : p.1.allBlank = false) :
    indentation p.1 = commonIndentation (dropTerminator t).lines + indentation p.2 :=
  ((List.forall₂_iff_zip.mp (forall₂_cut t)).2 hp).indentation_eq hfull

theorem dedent_sublist (t : Text) : (dedent t).Sublist (dropTerminator t) := by
  conv_rhs => rw [← Text.unlines_lines (dropTerminator t)]
  exact Text.sublist_unlines fun line hl => (cut_of_mem hl).suffix.sublist

theorem filter_dedent (t : Text) :
    (dedent t).filter (!isIndent ·) = (dropTerminator t).filter (!isIndent ·) := by
  have hlf : (!isIndent '\n') = true := by decide
  rw [dedent, Text.filter_unlines hlf, List.map_map]
  conv_rhs => rw [← Text.unlines_lines (dropTerminator t), Text.filter_unlines hlf]
  exact congrArg Text.unlines (List.map_congr_left fun line hl => (cut_of_mem hl).filter_eq)

/-- Some line of those with something on them has the common indentation, so nothing is left of it. -/
theorem exists_indentation_zero {t : Text} (h : ∃ l ∈ (dropTerminator t).lines, l.allBlank = false) :
    ∃ l ∈ (dedent t).lines, l.allBlank = false ∧ indentation l = 0 := by
  obtain ⟨⟨line, hl, hfull, hwidth⟩, -⟩ := commonIndentation_isLeast h
  have hcut := cut_of_mem hl
  refine ⟨_, ?_, hcut.allBlank_eq.trans hfull, ?_⟩
  · rw [lines_dedent]
    exact List.mem_map_of_mem hl
  · have := hcut.indentation_eq hfull
    omega

/-- A snippet is cut line by line. What is lost besides the last terminator is indentation alone: of each
line with something on it as much as all such lines have in common, of a blank line all. So lines with
something on them stay indented against each other as they were, and one of them is not indented. -/
theorem cut_by_lines (t : Text) :
    (t = dropTerminator t ++ ['\r', '\n'] ∨
      t = dropTerminator t ++ ['\n'] ∧ (dropTerminator t).getLast? ≠ some '\r' ∨
      t = dropTerminator t ∧ t.getLast? ≠ some '\n') ∧
    (IsLeast {n | ∃ l ∈ (dropTerminator t).lines, l.allBlank = false ∧ indentation l = n}
        (commonIndentation (dropTerminator t).lines) ∨
      (∀ l ∈ (dropTerminator t).lines, l.allBlank = true) ∧
        commonIndentation (dropTerminator t).lines = 0) ∧
    List.Forall₂ (Cut (commonIndentation (dropTerminator t).lines)) (dropTerminator t).lines
      (dedent t).lines ∧
    (dedent t).Sublist (dropTerminator t) ∧
    (dedent t).filter (!isIndent ·) = (dropTerminator t).filter (!isIndent ·) ∧
    (∀ p ∈ (dropTerminator t).lines.zip (dedent t).lines,
      ∀ q ∈ (dropTerminator t).lines.zip (dedent t).lines,
      p.1.allBlank = false → q.1.allBlank = false →
        (indentation p.2 - indentation q.2 : Int) = indentation p.1 - indentation q.1) ∧
    ((∃ l ∈ (dropTerminator t).lines, l.allBlank = false) →
      ∃ l ∈ (dedent t).lines, l.allBlank = false ∧ indentation l = 0) := by
  refine ⟨dropTerminator_cases t, ?_, forall₂_cut t, dedent_sublist t, filter_dedent t, ?_,
    exists_indentation_zero⟩
  · by_cases h : ∃ l ∈ (dropTerminator t).lines, l.allBlank = false
    · exact Or.inl (commonIndentation_isLeast h)
    · have hblank : ∀ l ∈ (dropTerminator t).lines, l.allBlank = true := by simpa using h
      exact Or.inr ⟨hblank, commonIndentation_of_blank hblank⟩
  · intro p hp q hq hfull hfull'
    have hline := indentation_of_mem_zip hp hfull
    have hline' := indentation_of_mem_zip hq hfull'
    omega

/-- Blank lines are cut by themselves, and a carriage return is no indentation. -/
example :
    dedent "\t  a\n \t \r\n\t b\r\n\n\t\tc \r\n".toList = " a\n\r\nb\r\n\nc ".toList := by
  decide

end CodeCatalog.Snippet
