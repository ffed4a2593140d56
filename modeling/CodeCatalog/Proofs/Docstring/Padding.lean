import Mathlib.Logic.Relation
import CodeCatalog.Proofs.Docstring.Rereading
import CodeCatalog.Proofs.Snippet.Returns

/-!
# Padding

What is read of a text goes by its lines without the white space at their ends, and without the lines at
both ends of the text on which nothing is then left. So carriage returns, white space behind a line and
blank lines around the text leave no trace.
-/
namespace CodeCatalog

/-! ## Trimmed lines -/

namespace Text

variable {t blank : Text}

theorem trimmedLines_append_cons (t u : Text) :
    trimmedLines (t ++ '\n' :: u) = trimmedLines t ++ trimmedLines u := by
  rw [trimmedLines, lines_append_cons, List.map_append]
  rfl

theorem trimEnd_append_of_allBlank (t : Text) (h : blank.allBlank = true) :
    trimEnd (t ++ blank) = trimEnd t :=
  dropTrailing_append_of_forall t (allBlank_iff.mp h)

theorem trimmedLines_append_blank (t : Text) (h : blank.allBlank = true) (hfeed : '\n' ∉ blank) :
    trimmedLines (t ++ blank) = trimmedLines t := by
  obtain ⟨ls, l, hlines⟩ := (List.eq_nil_or_concat' t.lines).resolve_left (lines_ne_nil t)
  have happend : t ++ blank = unlines (ls ++ [l ++ blank]) := by
    conv_lhs => rw [← unlines_lines t, hlines, unlines_concat_append]
  have hfeeds : ∀ line ∈ ls ++ [l ++ blank], '\n' ∉ line := by
    have hmem : ∀ line ∈ ls ++ [l], '\n' ∉ line := fun line hline =>
      not_mem_of_mem_lines (t := t) (by rwa [hlines])
    simpa [or_imp, forall_and, hfeed] using hmem
  rw [trimmedLines, happend, lines_unlines hfeeds (by simp), trimmedLines, hlines, List.map_append,
    List.map_append, List.map_singleton, trimEnd_append_of_allBlank l h, List.map_singleton]

theorem trimmedLines_withReturns (t : Text) : trimmedLines t.withReturns = trimmedLines t := by
  have hreturn : allBlank ['\r'] = true := by decide
  rw [trimmedLines, lines_withReturns, trimmedLines]
  induction t.lines using returnLines.induct with
  | case1 => rfl
  | case2 line => rfl
  | case3 line next ls ih =>
      rw [returnLines, List.map_cons, trimEnd_append_of_allBlank line hreturn, ih]
      rfl

theorem isEmpty_of_mem_trimmedLines (h : blank.allBlank = true) :
    ∀ l ∈ trimmedLines blank, l.isEmpty = true := by
  rw [← unlines_lines blank, allBlank_unlines] at h
  intro l hl
  obtain ⟨line, hline, rfl⟩ := List.mem_map.mp hl
  rw [List.isEmpty_iff, trimEnd_eq_nil_iff]
  exact h line hline

/-! ## Layouts -/

/-- Whether a text is the end of a line or starts with one. -/
def AtLineEnd (t : Text) : Prop :=
  t = [] ∨ ['\n'] <+: t ∨ ['\r', '\n'] <+: t

instance (t : Text) : Decidable t.AtLineEnd :=
  inferInstanceAs (Decidable (t = [] ∨ ['\n'] <+: t ∨ ['\r', '\n'] <+: t))

/-- One change of the layout of a text. -/
inductive Relaid : Text → Text → Prop
  /-- Every line feed is given a carriage return. -/
  | returns (t : Text) : Relaid t t.withReturns
  /-- White space is put behind a line. -/
  | padded {blank below : Text} (above : Text) (hblank : blank.allBlank = true)
      (hfeed : '\n' ∉ blank) (hbelow : below.AtLineEnd) :
      Relaid (above ++ below) (above ++ (blank ++ below))
  /-- Blank lines are put in front of the first line. -/
  | lowered {blank : Text} (hblank : blank.allBlank = true) (t : Text) : Relaid t (blank ++ '\n' :: t)
  /-- Blank lines, or white space, are put behind the last line. -/
  | extended (t : Text) {blank : Text} (hblank : blank.allBlank = true) : Relaid t (t ++ blank)

theorem trimmedLines_padded {below : Text} (above : Text) (hblank : blank.allBlank = true)
    (hfeed : '\n' ∉ blank) (hbelow : below.AtLineEnd) :
    trimmedLines (above ++ (blank ++ below)) = trimmedLines (above ++ below) := by
  have hpad (u : Text) : trimmedLines (u ++ blank) = trimmedLines u :=
    trimmedLines_append_blank u hblank hfeed
  have hreturn (u : Text) : trimmedLines (u ++ ['\r']) = trimmedLines u :=
    trimmedLines_append_blank u (by decide) (by decide)
  obtain rfl | ⟨u, rfl⟩ | ⟨u, rfl⟩ := hbelow
  · rw [List.append_nil, List.append_nil, hpad]
  · rw [← List.append_assoc, List.singleton_append, trimmedLines_append_cons, hpad,
      trimmedLines_append_cons]
  · have hsplit (v : Text) : v ++ (['\r', '\n'] ++ u) = v ++ ['\r'] ++ '\n' :: u := by simp
    rw [← List.append_assoc, hsplit, hsplit, trimmedLines_append_cons, hreturn, hpad,
      trimmedLines_append_cons, hreturn]

end Text

/-! ## Outlines -/

namespace Outline

variable {ls blank : List Text}

/-- Empty lines above belong to no tag. -/
theorem ofLines_append_of_empty_above (h : ∀ l ∈ blank, l = []) (ls : List Text) :
    (ofLines (blank ++ ls)).prose = blank ++ (ofLines ls).prose ∧
      (ofLines (blank ++ ls)).tags = (ofLines ls).tags := by
  induction blank with
  | nil => exact ⟨rfl, rfl⟩
  | cons l blank ih =>
      obtain ⟨hprose, htags⟩ := ih fun l hl => h l (by simp [hl])
      rw [List.cons_append, ofLines_cons, h l (by simp), addAbove_of_prose tagLine?_nil rfl]
      exact ⟨congrArg ([] :: ·) hprose, htags⟩

/-- Empty lines below belong to no tag. -/
theorem ofLines_append_of_empty_below (ls : List Text) (h : ∀ l ∈ blank, l = []) :
    (ofLines (ls ++ blank)).prose = (ofLines ls).prose ++ blank ∧
      (ofLines (ls ++ blank)).tags = (ofLines ls).tags := by
  induction blank using List.reverseRecOn with
  | nil => simp
  | append_singleton blank l ih =>
      obtain ⟨hprose, htags⟩ := ih fun l hl => h l (by simp [hl])
      rw [h l (by simp), ← List.append_assoc, ofLines_concat_nil]
      refine ⟨?_, htags⟩
      rw [← List.append_assoc, ← hprose, prose, prose, List.append_assoc]

/-- Empty lines at both ends count for nothing. -/
theorem ofLines_strip (ls : List Text) :
    strip List.isEmpty (ofLines (strip List.isEmpty ls)).prose =
        strip List.isEmpty (ofLines ls).prose ∧
      (ofLines (strip List.isEmpty ls)).tags = (ofLines ls).tags := by
  obtain ⟨above, below, habove, hbelow, hls⟩ := exists_eq_append_strip List.isEmpty ls
  obtain ⟨hprose, htags⟩ := ofLines_append_of_empty_above
    (fun l hl => List.isEmpty_iff.mp (habove l hl)) (strip List.isEmpty ls ++ below)
  obtain ⟨hprose', htags'⟩ := ofLines_append_of_empty_below (strip List.isEmpty ls)
    fun l hl => List.isEmpty_iff.mp (hbelow l hl)
  rw [← hls] at hprose htags
  rw [hprose, hprose', strip_append_of_forall_left habove, strip_append_of_forall_right _ hbelow,
    htags, htags']
  exact ⟨rfl, rfl⟩

end Outline

/-! ## Documents -/

namespace Docstring

variable {raw raw' : Text}

/-- The lines of a document that count. -/
def substance (raw : Text) : List Text :=
  strip List.isEmpty raw.trimmedLines

theorem read_eq_of_substance (h : substance raw = substance raw') :
    (read raw).body = (read raw').body ∧ (read raw).summary = (read raw').summary ∧
      (read raw).tags = (read raw').tags := by
  have hread (raw : Text) :
      (read raw).body =
          Text.unlines (strip List.isEmpty (Outline.ofLines (substance raw)).prose) ∧
        (read raw).tags =
          (Outline.ofLines (substance raw)).tags.map fun b => Tag.read b.name b.text := by
    obtain ⟨hprose, htags⟩ := Outline.ofLines_strip raw.trimmedLines
    rw [substance, hprose, htags]
    exact ⟨rfl, rfl⟩
  have hbody : (read raw).body = (read raw').body := by rw [(hread raw).1, h, (hread raw').1]
  exact ⟨hbody, by rw [summary, hbody, summary], by rw [(hread raw).2, h, (hread raw').2]⟩

theorem substance_append_blank (raw : Text) {blank : Text} (h : blank.allBlank = true) :
    substance (raw ++ blank) = substance raw := by
  by_cases hfeed : '\n' ∈ blank
  · obtain ⟨pad, below, rfl, hpad⟩ := List.eq_append_cons_of_mem hfeed
    rw [Text.allBlank, List.all_append, List.all_cons, Bool.and_eq_true, Bool.and_eq_true] at h
    rw [substance, ← List.append_assoc, Text.trimmedLines_append_cons,
      Text.trimmedLines_append_blank raw h.1 hpad,
      strip_append_of_forall_right _ (Text.isEmpty_of_mem_trimmedLines h.2.2), substance]
  · rw [substance, Text.trimmedLines_append_blank raw h hfeed, substance]

theorem substance_relaid (h : raw.Relaid raw') : substance raw = substance raw' := by
  cases h with
  | returns => rw [substance, substance, Text.trimmedLines_withReturns]
  | padded above hblank hfeed hbelow =>
      rw [substance, substance, Text.trimmedLines_padded above hblank hfeed hbelow]
  | lowered hblank =>
      rw [substance, substance, Text.trimmedLines_append_cons,
        strip_append_of_forall_left (Text.isEmpty_of_mem_trimmedLines hblank)]
  | extended raw hblank => exact (substance_append_blank raw hblank).symm

/-- Texts that differ in their layout alone are read alike, whichever changes of it are made or undone,
and wherever tags are open. -/
theorem read_of_relaid (h : Relation.EqvGen Text.Relaid raw raw') :
    (read raw).body = (read raw').body ∧ (read raw).summary = (read raw').summary ∧
      (read raw).tags = (read raw').tags := by
  apply read_eq_of_substance
  induction h with
  | rel _ _ hstep => exact substance_relaid hstep
  | refl => rfl
  | symm _ _ _ ih => exact ih.symm
  | trans _ _ _ _ _ ih ih' => exact ih.trans ih'

/-- White space behind an open tag, carriage returns, and blank lines at both ends. -/
theorem read_of_relaid_open_tag :
    ∃ raw raw' : Text, raw = "@see a\n b\nC. D.".toList ∧
      raw' = " \n@see a\t\r\n b\r\nC. D.\n ".toList ∧
      Relation.EqvGen Text.Relaid raw raw' ∧ (read raw).body = (read raw').body ∧
      (read raw).summary = (read raw').summary ∧ (read raw).tags = (read raw').tags := by
  have hpadded : Text.Relaid ("@see a".toList ++ "\n b\nC. D.".toList)
      ("@see a".toList ++ ("\t".toList ++ "\n b\nC. D.".toList)) :=
    .padded _ (by decide) (by decide) (by decide)
  have hlowered (t : Text) : Text.Relaid t (" ".toList ++ '\n' :: t) := .lowered (by decide) t
  have hextended (t : Text) : Text.Relaid t (t ++ "\n ".toList) := .extended t (by decide)
  have hrelaid := Relation.EqvGen.trans _ _ _ (.rel _ _ hpadded)
    (.trans _ _ _ (.rel _ _ (.returns _))
      (.trans _ _ _ (.rel _ _ (hlowered _)) (.rel _ _ (hextended _))))
  exact ⟨_, _, by decide, by decide, hrelaid, read_of_relaid hrelaid⟩

end Docstring

end CodeCatalog
