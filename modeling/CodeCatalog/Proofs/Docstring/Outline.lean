import CodeCatalog.Docstring.Basic
import CodeCatalog.Proofs.Text

/-!
# Outlines

Without tags every line of a document is prose, and a blank document is one without tags all of whose
prose is empty.
-/
namespace CodeCatalog

namespace Outline

variable {ls : List Text}

theorem tagLine?_nil : tagLine? [] = none := rfl

theorem prose_ofLines (h : (ofLines ls).tags = []) : (ofLines ls).prose = ls := by
  induction ls with
  | nil => rfl
  | cons l ls ih =>
      rw [ofLines_cons] at h ⊢
      cases htag : tagLine? l with
      | some tag => simp [addAbove, htag] at h
      | none =>
          by_cases hindent : isIndented l = true
          · simp only [addAbove, htag, hindent, if_true] at h ⊢
            exact congrArg (l :: ·) (ih h)
          · simp only [addAbove, htag, hindent] at h ⊢
            exact congrArg (l :: ·) (ih h)

theorem tags_ofLines_of_none (h : ∀ l ∈ ls, tagLine? l = none) : (ofLines ls).tags = [] := by
  induction ls with
  | nil => rfl
  | cons l ls ih =>
      have hrest := ih fun l hl => h l (by simp [hl])
      rw [ofLines_cons, addAbove, h l (by simp)]
      cases isIndented l with
      | true => exact hrest
      | false => exact hrest

end Outline

namespace Docstring

theorem unlines_strip_eq_nil_iff (ls : List Text) :
    Text.unlines (strip List.isEmpty ls) = [] ↔ ∀ l ∈ ls, l = [] := by
  have hempty : (∀ l ∈ ls, l = []) ↔ strip List.isEmpty ls = [] := by
    simp [strip_eq_nil_iff]
  rw [hempty]
  constructor
  · intro h
    cases hs : strip List.isEmpty ls with
    | nil => rfl
    | cons l rest =>
        -- the first line that is left has something on it, so joining gives a text
        have hl := of_strip_eq_cons hs
        rw [hs, Text.unlines_cons, List.append_eq_nil_iff] at h
        rw [h.1] at hl
        cases hl
  · intro h
    rw [h]
    rfl

/-- A document says nothing exactly if there is nothing but white space in it. -/
theorem isEmpty_read (raw : Text) : (read raw).isEmpty = raw.allBlank := by
  have hlines : raw.allBlank = true ↔ ∀ l ∈ raw.lines.map Text.trimEnd, l = [] := by
    rw [← Text.unlines_lines raw, Text.allBlank_unlines, Text.unlines_lines]
    simp [Text.trimEnd_eq_nil_iff]
  have hbody := unlines_strip_eq_nil_iff (Outline.ofLines (raw.lines.map Text.trimEnd)).prose
  have htags : (read raw).tags = [] ↔ (Outline.ofLines (raw.lines.map Text.trimEnd)).tags = [] :=
    List.map_eq_nil_iff
  rw [Bool.eq_iff_iff, isEmpty, Bool.and_eq_true, List.isEmpty_iff, List.isEmpty_iff, hlines, htags]
  constructor
  · rintro ⟨hb, ht⟩
    rw [← Outline.prose_ofLines ht]
    exact hbody.mp hb
  · intro h
    have ht := Outline.tags_ofLines_of_none fun l hl => by
      rw [h l hl, Outline.tagLine?_nil]
    refine ⟨hbody.mpr ?_, ht⟩
    rw [Outline.prose_ofLines ht]
    exact h

end Docstring

end CodeCatalog
