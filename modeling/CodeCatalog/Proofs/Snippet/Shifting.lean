import CodeCatalog.Proofs.Snippet.Terminators

/-!
# Shifting

What is left of a snippet does not depend on the indentation that surrounds it. All lines with something
on them may stand further in by a common width, and blank lines by any.
-/
namespace CodeCatalog.Snippet

variable {width : Nat} {margin line moved : Text} {ls ms : List Text}

/-! ## Lines -/

/-- A line with something on it is moved in by a margin of the given width. Of a blank line the
indentation may change. -/
def Shifted (width : Nat) (line moved : Text) : Prop :=
  if line.allBlank then moved.dropWhile isIndent = line.dropWhile isIndent
  else ∃ margin, IsMargin margin ∧ margin.length = width ∧ moved = margin ++ line

theorem shifted_of_blank (hblank : line.allBlank = true)
    (h : moved.dropWhile isIndent = line.dropWhile isIndent) : Shifted width line moved := by
  rwa [Shifted, if_pos hblank]

theorem shifted_append (hfull : line.allBlank = false) (hmargin : IsMargin margin) :
    Shifted margin.length line (margin ++ line) := by
  rw [Shifted, if_neg (by simp [hfull])]
  exact ⟨margin, hmargin, rfl, rfl⟩

theorem shifted_cases (h : Shifted width line moved) :
    (line.allBlank = true ∧ moved.dropWhile isIndent = line.dropWhile isIndent) ∨
      (line.allBlank = false ∧
        ∃ margin, IsMargin margin ∧ margin.length = width ∧ moved = margin ++ line) := by
  rw [Shifted] at h
  split at h
  · next hblank => exact Or.inl ⟨hblank, h⟩
  · next hfull => exact Or.inr ⟨by simpa using hfull, h⟩

theorem allBlank_dropWhile (line : Text) :
    Text.allBlank (line.dropWhile isIndent) = line.allBlank := by
  conv_rhs => rw [← List.takeWhile_append_dropWhile (p := isIndent) (l := line)]
  exact (allBlank_append (isMargin_takeWhile line) _).symm

theorem dropWhile_dropReturn (line : Text) :
    (dropReturn line).dropWhile isIndent = dropReturn (line.dropWhile isIndent) := by
  obtain h | ⟨hne, h⟩ := dropReturn_cases line
  · conv_rhs => rw [h, List.dropWhile_append]
    split
    · next hempty => rw [List.isEmpty_iff.mp hempty]; rfl
    · rw [dropReturn_concat]
  · rw [h, dropReturn_of_ne]
    intro hlast
    rw [← List.takeWhile_append_dropWhile (p := isIndent) (l := line), List.getLast?_append,
      hlast] at hne
    exact hne rfl

theorem unindent_append (hmargin : IsMargin margin) (width : Nat) (line : Text) :
    unindent (margin.length + width) (margin ++ line) = unindent width line := by
  induction margin with
  | nil => simp
  | cons c margin ih =>
      have hc := hmargin c (by simp)
      rw [List.length_cons, Nat.add_right_comm, List.cons_append, unindent, if_pos hc]
      exact ih fun d hd => hmargin d (by simp [hd])

namespace Shifted

theorem allBlank_eq (h : Shifted width line moved) : moved.allBlank = line.allBlank := by
  obtain ⟨-, h⟩ | ⟨-, margin, hmargin, -, rfl⟩ := shifted_cases h
  · rw [← allBlank_dropWhile, h, allBlank_dropWhile]
  · exact allBlank_append hmargin line

theorem indentation_eq (h : Shifted width line moved) (hfull : line.allBlank = false) :
    indentation moved = width + indentation line := by
  obtain ⟨hblank, -⟩ | ⟨-, margin, hmargin, rfl, rfl⟩ := shifted_cases h
  · rw [hblank] at hfull; cases hfull
  · exact indentation_append hmargin line

theorem dedentLine_eq (h : Shifted width line moved) (n : Nat) :
    dedentLine (width + n) moved = dedentLine n line := by
  rw [dedentLine, dedentLine, h.allBlank_eq]
  obtain ⟨hblank, h⟩ | ⟨hfull, margin, hmargin, rfl, rfl⟩ := shifted_cases h
  · rw [if_pos hblank, if_pos hblank, h]
  · rw [if_neg (by simp [hfull]), if_neg (by simp [hfull]), unindent_append hmargin]

/-- The end of a line is not moved. -/
theorem dropReturn (h : Shifted width line moved) :
    Shifted width (dropReturn line) (dropReturn moved) := by
  obtain ⟨hblank, h⟩ | ⟨hfull, margin, hmargin, rfl, rfl⟩ := shifted_cases h
  · apply shifted_of_blank
    · rwa [allBlank_dropReturn]
    · rw [dropWhile_dropReturn, h, dropWhile_dropReturn]
  · have hne : line ≠ [] := by
      rintro rfl
      cases hfull
    rw [dropReturn_append margin hne]
    exact shifted_append (by rwa [allBlank_dropReturn]) hmargin

theorem of_nil (h : Shifted width line []) : line.allBlank = true := by
  rw [← h.allBlank_eq]
  rfl

end Shifted

/-! ## Snippets -/

theorem exists_of_mem_left {R : Text → Text → Prop} (h : List.Forall₂ R ls ms) (hl : line ∈ ls) :
    ∃ m ∈ ms, R line m := by
  induction h with
  | nil => cases hl
  | cons hr _ ih =>
      obtain rfl | hl := List.mem_cons.mp hl
      · exact ⟨_, by simp, hr⟩
      · obtain ⟨m, hm, hr⟩ := ih hl
        exact ⟨m, by simp [hm], hr⟩

theorem exists_of_mem_right {R : Text → Text → Prop} (h : List.Forall₂ R ls ms) (hm : moved ∈ ms) :
    ∃ l ∈ ls, R l moved :=
  exists_of_mem_left (R := flip R) h.flip hm

theorem commonIndentation_shifted (h : List.Forall₂ (Shifted width) ls ms)
    (hfull : ∃ l ∈ ls, l.allBlank = false) :
    commonIndentation ms = width + commonIndentation ls := by
  obtain ⟨⟨l, hl, hlfull, hleast⟩, -⟩ := commonIndentation_isLeast hfull
  obtain ⟨m, hm, hlm⟩ := exists_of_mem_left h hl
  have hmfull := hlm.allBlank_eq.trans hlfull
  have hle := commonIndentation_le hm hmfull
  obtain ⟨⟨m', hm', hmfull', hleast'⟩, -⟩ := commonIndentation_isLeast ⟨m, hm, hmfull⟩
  obtain ⟨l', hl', hlm'⟩ := exists_of_mem_right h hm'
  have hlfull' := hlm'.allBlank_eq.symm.trans hmfull'
  have hle' := commonIndentation_le hl' hlfull'
  have hwidth := hlm.indentation_eq hlfull
  have hwidth' := hlm'.indentation_eq hlfull'
  omega

theorem map_dedentLine_shifted (h : List.Forall₂ (Shifted width) ls ms) (n : Nat) :
    ms.map (dedentLine (width + n)) = ls.map (dedentLine n) := by
  induction h with
  | nil => rfl
  | cons hlm _ ih => rw [List.map_cons, List.map_cons, hlm.dedentLine_eq, ih]

/-- Where no line has anything on it, the width does not matter. -/
theorem shifted_zero_of_blank (h : List.Forall₂ (Shifted width) ls ms)
    (hblank : ∀ l ∈ ls, l.allBlank = true) : List.Forall₂ (Shifted 0) ls ms := by
  refine List.Forall₂.imp ?_ ((List.forall₂_and_left ls ms).mpr ⟨hblank, h⟩)
  rintro l m ⟨hl, hlm⟩
  obtain ⟨-, hlm⟩ | ⟨hfull, -⟩ := shifted_cases hlm
  · exact shifted_of_blank hl hlm
  · rw [hl] at hfull; cases hfull

theorem map_dedentLine_commonIndentation (h : List.Forall₂ (Shifted width) ls ms) :
    ms.map (dedentLine (commonIndentation ms)) = ls.map (dedentLine (commonIndentation ls)) := by
  by_cases hfull : ∃ l ∈ ls, l.allBlank = false
  · rw [commonIndentation_shifted h hfull]
    exact map_dedentLine_shifted h _
  · have hblank : ∀ l ∈ ls, l.allBlank = true := by simpa using hfull
    have hblank' : ∀ m ∈ ms, m.allBlank = true := by
      intro m hm
      obtain ⟨l, hl, hlm⟩ := exists_of_mem_right h hm
      rw [hlm.allBlank_eq, hblank l hl]
    rw [commonIndentation_of_blank hblank, commonIndentation_of_blank hblank']
    exact map_dedentLine_shifted (shifted_zero_of_blank h hblank) 0

/-! ## The last line -/

/-- If the last line is blank, it is the same. -/
def SameBlankEnd (ls ms : List Text) : Prop :=
  ∀ l ∈ ls.getLast?, l.allBlank = true → ms.getLast? = some l

theorem SameBlankEnd.tail {l m : Text} (hlast : SameBlankEnd (l :: ls) (m :: ms))
    (hlength : ls.length = ms.length) : SameBlankEnd ls ms := by
  intro l' hl' hblank
  have hm := hlast l' (by rw [List.getLast?_cons, Option.mem_def.mp hl']; rfl) hblank
  cases hms : ms.getLast? with
  | none =>
      rw [List.getLast?_eq_none_iff.mp hms, List.length_nil, List.length_eq_zero_iff] at hlength
      rw [hlength] at hl'
      cases hl'
  | some m' => rwa [List.getLast?_cons, hms] at hm

theorem eq_single_nil_iff (h : List.Forall₂ (Shifted width) ls ms) (hlast : SameBlankEnd ls ms) :
    ls = [[]] ↔ ms = [[]] := by
  constructor
  · rintro rfl
    obtain ⟨m, ms, -, htail, rfl⟩ := List.forall₂_cons_left_iff.mp h
    rw [List.forall₂_nil_left_iff.mp htail] at hlast ⊢
    simpa using hlast [] rfl rfl
  · rintro rfl
    obtain ⟨l, ls, hl, htail, rfl⟩ := List.forall₂_cons_right_iff.mp h
    rw [List.forall₂_nil_right_iff.mp htail] at hlast ⊢
    simpa [eq_comm] using hlast l rfl hl.of_nil

theorem forall₂_dropLastEnd (h : List.Forall₂ (Shifted width) ls ms) (hlast : SameBlankEnd ls ms) :
    List.Forall₂ (Shifted width) (dropLastEnd ls) (dropLastEnd ms) := by
  induction h with
  | nil => exact .nil
  | cons hlm h ih =>
      have htail := hlast.tail h.length_eq
      rw [dropLastEnd, dropLastEnd]
      simp only [eq_single_nil_iff h htail]
      split
      · exact .cons hlm.dropReturn .nil
      · exact .cons hlm (ih htail)

/-- Lines with something on them may all be moved in by one width, and blank lines may be indented in any
way but for the last line: what is left of the snippet is the same. -/
theorem dedent_of_shifted {t u : Text} {width : Nat}
    (hlines : List.Forall₂ (Shifted width) t.lines u.lines)
    (hlast : ∀ l ∈ t.lines.getLast?, l.allBlank = true → u.lines.getLast? = some l) :
    dedent u = dedent t := by
  rw [dedent, dedent, lines_dropTerminator, lines_dropTerminator]
  exact congrArg Text.unlines (map_dedentLine_commonIndentation (forall₂_dropLastEnd hlines hlast))

/-- The margins of the two lines differ, and the blank line ends in a carriage return. -/
theorem dedent_of_shifted_by_two :
    ∃ t u : Text, t = "a\n  b\n \t\r\n".toList ∧ u = "\t a\n \t  b\n\t\r\n".toList ∧
      List.Forall₂ (Shifted 2) t.lines u.lines ∧
      (∀ l ∈ t.lines.getLast?, l.allBlank = true → u.lines.getLast? = some l) ∧
      dedent u = dedent t := by
  refine ⟨_, _, rfl, rfl, ?_⟩
  have hlines : List.Forall₂ (Shifted 2) (Text.lines "a\n  b\n \t\r\n".toList)
      (Text.lines "\t a\n \t  b\n\t\r\n".toList) :=
    .cons (shifted_append rfl (show IsMargin ['\t', ' '] by decide)) <|
    .cons (shifted_append rfl (show IsMargin [' ', '\t'] by decide)) <|
    .cons (shifted_of_blank rfl rfl) <| .cons (shifted_of_blank rfl rfl) .nil
  exact ⟨hlines, by decide, dedent_of_shifted hlines (by decide)⟩

end CodeCatalog.Snippet
