import CodeCatalog.Proofs.Docstring.Continuing
import CodeCatalog.Proofs.Docstring.Writing

/-!
# Tidying

Whatever is read of a tag is trimmed: its types, its parameter and every line of its text. What follows
a list of types or a word is the end of a tidy text, and it is tidy again once its start is trimmed.
-/
namespace CodeCatalog

/-! ## Tidy texts -/

namespace Text

variable {t s l : Text} {ls : List Text}

theorem tight_trimStart (h : ∀ c ∈ t.getLast?, isBlank c = false) (hne : t.trimStart ≠ []) :
    t.trimStart.Tight where
  ne_nil := hne
  head? := head?_dropWhile isBlank t
  getLast? := getLast?_of_suffix (List.dropWhile_suffix _) h

theorem tight_trim (h : t.trim ≠ []) : t.trim.Tight :=
  ⟨h, head?_strip isBlank t, getLast?_strip isBlank t⟩

/-- A text with no blank line and no white space at the ends of its lines. -/
def Tidy (t : Text) : Prop :=
  t = [] ∨ ∀ l ∈ t.lines, l.Tight

theorem tidy_unlines (hlf : ∀ l ∈ ls, '\n' ∉ l) (h : ∀ l ∈ ls, l.Tight) : (unlines ls).Tidy := by
  by_cases hne : ls = []
  · exact Or.inl (by rw [hne]; rfl)
  · right
    rwa [lines_unlines hlf hne]

theorem Tidy.getLast? (h : t.Tidy) : ∀ c ∈ t.getLast?, isBlank c = false := by
  obtain rfl | h := h
  · rintro c ⟨⟩
  · obtain ⟨ls, l, hlines⟩ := (List.eq_nil_or_concat' t.lines).resolve_left (lines_ne_nil t)
    have hl : l.Tight := h l (by simp [hlines])
    rw [← unlines_lines t, hlines, getLast?_unlines_concat ls hl.ne_nil]
    exact hl.getLast?

theorem Tidy.trimEnd_eq (h : t.Tidy) : t.trimEnd = t :=
  dropTrailing_of_getLast? h.getLast?

/-- Below a line that loses the white space at its start, nothing changes. -/
theorem tidy_trimStart_unlines_cons (hlf : ∀ line ∈ l :: ls, '\n' ∉ line)
    (hl : ∀ c ∈ l.getLast?, isBlank c = false) (h : ∀ line ∈ ls, line.Tight) :
    (trimStart (unlines (l :: ls))).Tidy := by
  have hls := tidy_unlines (fun line hline => hlf line (by simp [hline])) h
  by_cases hne : l.trimStart = []
  · have hblank : ∀ c ∈ l, isBlank c = true := List.dropWhile_eq_nil_iff.mp hne
    rw [unlines_cons, trimStart, List.dropWhile_append_of_pos hblank]
    cases ls with
    | nil => exact Or.inl rfl
    | cons next ls =>
        have hstart := (h next (by simp)).trimStart_append (ls.flatMap ('\n' :: ·))
        rw [← unlines_cons] at hstart
        rw [List.flatMap_cons, List.cons_append, ← unlines_cons,
          List.dropWhile_cons_of_pos isBlank_feed]
        rwa [← hstart] at hls
  · have hsuffix : l.trimStart <:+ l := List.dropWhile_suffix _
    rw [unlines_cons, trimStart_append hne, ← unlines_cons]
    refine tidy_unlines ?_ (List.forall_mem_cons.mpr ⟨tight_trimStart hl hne, h⟩)
    refine List.forall_mem_cons.mpr ⟨fun hfeed => hlf l (by simp) (hsuffix.mem hfeed), ?_⟩
    exact fun line hline => hlf line (by simp [hline])

/-- The end of a text starts in one of its lines. -/
theorem exists_lines_of_suffix (hs : s <:+ t) :
    ∃ above l l' below, t.lines = above ++ l :: below ∧ s.lines = l' :: below ∧ l' <:+ l := by
  obtain ⟨u, rfl⟩ := hs
  induction u with
  | nil =>
      obtain ⟨l, below, hlines⟩ := List.exists_cons_of_ne_nil (lines_ne_nil s)
      exact ⟨[], l, l, below, hlines, hlines, List.suffix_refl l⟩
  | cons c u ih =>
      obtain ⟨above, l, l', below, ht, hs, hl⟩ := ih
      by_cases hc : c = '\n'
      · have hlines : lines (c :: u ++ s) = [] :: lines (u ++ s) := by
          rw [hc]
          exact lines_append_cons [] (u ++ s)
        exact ⟨[] :: above, l, l', below, by rw [hlines, ht]; rfl, hs, hl⟩
      · have hlines : lines (c :: u ++ s) = (lines (u ++ s)).modifyHead (c :: ·) := by
          rw [lines, List.cons_append, List.splitOn_cons_eq_if_modifyHead, if_neg (by simpa using hc)]
          rfl
        rw [hlines, ht]
        cases above with
        | nil => exact ⟨[], c :: l, l', below, rfl, hs, hl.trans (List.suffix_cons c l)⟩
        | cons line above => exact ⟨(c :: line) :: above, l, l', below, rfl, hs, hl⟩

/-- The end of a tidy text is tidy, from the next place on where something stands. -/
theorem Tidy.trimStart_of_suffix (h : t.Tidy) (hs : s <:+ t) : s.trimStart.Tidy := by
  obtain rfl | h := h
  · exact Or.inl (by rw [List.suffix_nil.mp hs]; rfl)
  · obtain ⟨above, l, l', below, ht, hlines, hl⟩ := exists_lines_of_suffix hs
    rw [ht, List.forall_mem_append, List.forall_mem_cons] at h
    rw [← unlines_lines s, hlines]
    apply tidy_trimStart_unlines_cons
    · intro line hline
      exact not_mem_of_mem_lines (t := s) (by rwa [hlines])
    · exact getLast?_of_suffix hl h.2.1.getLast?
    · exact h.2.2

theorem Tidy.trim (h : t.Tidy) : t.trim.Tidy := by
  have hstart := h.trimStart_of_suffix (List.suffix_refl t)
  rwa [trim_eq, hstart.trimEnd_eq]

end Text

/-! ## Types and parameters -/

namespace TypeList

theorem tight_of_mem_entries {t l : Text} (h : l ∈ entries t) : l.Tight := by
  obtain ⟨hmem, hne⟩ := List.mem_filter.mp h
  obtain ⟨piece, -, rfl⟩ := List.mem_map.mp hmem
  exact Text.tight_trim (by simpa using hne)

theorem exists_of_read? {t rest : Text} {ts : List Text} (h : read? t = some (ts, rest)) :
    ∃ inside after : Text, ts = entries inside ∧ rest = after.trimStart ∧ after <:+ t := by
  unfold read? at h
  split at h
  · next t =>
      obtain ⟨⟨inside, after⟩, hclose, heq⟩ := Option.map_eq_some_iff.mp h
      obtain ⟨rfl, rfl⟩ := Prod.mk.inj heq
      obtain ⟨c, rfl⟩ := append_of_upToClose hclose
      exact ⟨inside, after, rfl, rfl, '[' :: (inside ++ [c]), by simp⟩
  · cases h

end TypeList

namespace Tag

variable {t name raw : Text}

theorem takeTypes_cases (t : Text) :
    takeTypes t = ([], t) ∨
      ∃ inside after : Text, takeTypes t = (TypeList.entries inside, after.trimStart) ∧ after <:+ t := by
  rw [takeTypes]
  cases hread : TypeList.read? t with
  | none => exact Or.inl rfl
  | some found =>
      obtain ⟨inside, after, hts, hrest, hsuffix⟩ := TypeList.exists_of_read? hread
      exact Or.inr ⟨inside, after, by rw [Option.getD_some, ← hts, ← hrest], hsuffix⟩

theorem tidy_takeTypes (h : t.Tidy) :
    (takeTypes t).2.Tidy ∧ ∀ l ∈ (takeTypes t).1, l.Tight := by
  obtain heq | ⟨inside, after, heq, hsuffix⟩ := takeTypes_cases t
  · rw [heq]
    exact ⟨h, by simp⟩
  · rw [heq]
    exact ⟨h.trimStart_of_suffix hsuffix, fun _ => TypeList.tight_of_mem_entries⟩

theorem exists_of_firstWord? {word rest : Text} (h : firstWord? t = some (word, rest)) :
    IsWord word ∧ ∃ after : Text, rest = after.trimStart ∧ after <:+ t := by
  have hstart : t.trimStart <:+ t := List.dropWhile_suffix _
  rw [firstWord?] at h
  split at h
  · cases h
  · cases h
  · next hnil hbracket =>
      obtain ⟨rfl, rfl⟩ := Prod.mk.inj (Option.some.inj h)
      obtain ⟨c, words, hwords⟩ := List.exists_cons_of_ne_nil fun hempty => hnil hempty
      have hc : isBlank c = false := head?_dropWhile isBlank t c (by
        rw [← Text.trimStart, hwords]
        rfl)
      have htake : t.trimStart.takeWhile (!isBlank ·) = c :: words.takeWhile (!isBlank ·) := by
        rw [hwords, List.takeWhile_cons_of_pos (by simp [hc])]
      refine ⟨⟨?_, fun d hd => ?_, ?_⟩, _, rfl, (List.dropWhile_suffix _).trans hstart⟩
      · rw [htake]
        simp
      · simpa using List.mem_takeWhile_imp hd
      · rw [htake, List.head?_cons]
        rintro ⟨⟩
        exact hbracket words hwords

theorem tidy_takeParam (h : t.Tidy) :
    (takeParam t).2.Tidy ∧ ∀ word ∈ (takeParam t).1, IsWord word := by
  rw [takeParam]
  cases hword : firstWord? t with
  | none => exact ⟨h, by simp⟩
  | some found =>
      obtain ⟨hisWord, after, hrest, hsuffix⟩ := exists_of_firstWord? hword
      refine ⟨?_, by simpa using hisWord⟩
      rw [hrest]
      exact h.trimStart_of_suffix hsuffix

/-! ## Tags -/

/-- A tag in normal form: there is nothing to trim in it, and nothing that its style does not have. -/
structure IsNormal (tag : Tag) : Prop where
  name_ne_nil : tag.name ≠ []
  name : ∀ c ∈ tag.name, isAlphanumeric c = true ∨ c = '_'
  text : tag.text = [] ∨ ∀ l ∈ tag.text.lines, l.Tight
  types : ∀ t ∈ tag.types, t.Tight
  types_eq_nil : (Style.ofName tag.name).hasTypes = false → tag.types = []
  param : ∀ word ∈ tag.param, IsWord word
  param_eq_none : (Style.ofName tag.name).hasParam = false → tag.param = none

theorem isNormal_read (hne : name ≠ []) (hname : ∀ c ∈ name, isAlphanumeric c = true ∨ c = '_')
    (h : raw.trim.Tidy) : (read name raw).IsNormal := by
  obtain ⟨hafterTypes, hearly⟩ := tidy_takeTypes h
  rw [read]
  cases hstyle : Style.ofName name with
  | plain => exact ⟨hne, hname, h, by simp, by simp, by simp, by simp⟩
  | typed =>
      exact ⟨hne, hname, hafterTypes.trim, hearly, by simp [hstyle, Style.hasTypes], by simp, by simp⟩
  | typedNamed =>
      have hhasTypes : (Style.ofName name).hasTypes = true := by rw [hstyle]; rfl
      have hhasParam : (Style.ofName name).hasParam = true := by rw [hstyle]; rfl
      obtain ⟨hafterParam, hparam⟩ := tidy_takeParam hafterTypes
      obtain ⟨hrest, hlate⟩ := tidy_takeTypes hafterParam
      by_cases hnone : (takeTypes raw.trim).1 = []
      · simp only [if_pos hnone]
        exact ⟨hne, hname, hrest.trim, hlate, by simp [hhasTypes], hparam, by simp [hhasParam]⟩
      · simp only [if_neg hnone]
        exact ⟨hne, hname, hafterParam.trim, hearly, by simp [hhasTypes], hparam,
          by simp [hhasParam]⟩

end Tag

/-! ## Documents -/

namespace Outline

variable {ls : List Text} {b : TagBlock}

theorem tight_trimStart_of_mayContinue {l : Text} (h : mayContinue l = true)
    (hlast : ∀ c ∈ l.getLast?, isBlank c = false) : l.trimStart.Tight := by
  have hne : l ≠ [] := by
    rintro rfl
    cases h
  exact Text.tight_trimStart hlast (Text.trimStart_ne_nil hne hlast)

/-- The text of a tag is tidy once it is trimmed, as nothing may be left on the line that opens it. -/
theorem tidy_trim_text (hls : ∀ l ∈ ls, '\n' ∉ l ∧ ∀ c ∈ l.getLast?, isBlank c = false)
    (hb : b ∈ (ofLines ls).tags) : b.text.trim.Tidy := by
  obtain ⟨line, hline, name, rest, below, htag, hbelow, rfl⟩ := exists_of_mem_tags hb
  obtain ⟨indent, after, heq, -, -, -, -, rfl⟩ := tagLine?_eq_some_iff.mp htag
  have hrest : after.trimStart <:+ line :=
    (List.dropWhile_suffix _).trans ⟨indent ++ '@' :: name, by simp [heq]⟩
  have htidy : (Text.unlines (after.trimStart :: below.map Text.trimStart)).trimStart.Tidy := by
    apply Text.tidy_trimStart_unlines_cons
    · simp only [List.forall_mem_cons, List.forall_mem_map]
      refine ⟨fun hfeed => (hls line hline).1 (hrest.mem hfeed), fun l hl hfeed => ?_⟩
      exact (hls l (hbelow l hl).1).1 ((List.dropWhile_suffix _).mem hfeed)
    · exact Text.getLast?_of_suffix hrest (hls line hline).2
    · simp only [List.forall_mem_map]
      exact fun l hl => tight_trimStart_of_mayContinue (hbelow l hl).2 (hls l (hbelow l hl).1).2
  rw [TagBlock.text, Text.trim_eq, htidy.trimEnd_eq]
  exact htidy

end Outline

namespace Docstring

variable {raw : Text} {tag : Tag}

/-- Every tag of a document is in normal form. -/
theorem isNormal_of_mem_tags (h : tag ∈ (read raw).tags) : tag.IsNormal := by
  obtain ⟨b, hb, rfl⟩ := List.mem_map.mp h
  obtain ⟨line, -, name, rest, below, htag, -, hblock⟩ := Outline.exists_of_mem_tags hb
  obtain ⟨-, -, -, -, hne, hname, -, -⟩ := Outline.tagLine?_eq_some_iff.mp htag
  apply Tag.isNormal_read
  · rwa [hblock]
  · rw [hblock]
    intro c hc
    simpa [Outline.isNameChar] using hname c hc
  · exact Outline.tidy_trim_text (fun _ => Text.clean_of_mem_trimmedLines) hb

/-- The list of types goes over three lines and is closed by another kind of bracket. -/
theorem isNormal_of_broken_list :
    ∃ (raw : Text) (tag : Tag), raw = "@param key [A<B,\n  C>,\n\t,D) \r\n  the  key".toList ∧
      tag = ⟨"param".toList, "the  key".toList, ["A<B,\nC>".toList, "D".toList],
        some "key".toList⟩ ∧
      tag ∈ (read raw).tags ∧ tag.IsNormal := by
  have hmem : (⟨"param".toList, "the  key".toList, ["A<B,\nC>".toList, "D".toList],
      some "key".toList⟩ : Tag) ∈
        (read "@param key [A<B,\n  C>,\n\t,D) \r\n  the  key".toList).tags := by
    decide
  exact ⟨_, _, rfl, rfl, hmem, isNormal_of_mem_tags hmem⟩

end Docstring

end CodeCatalog
