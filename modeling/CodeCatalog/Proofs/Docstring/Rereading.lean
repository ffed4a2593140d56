import CodeCatalog.Proofs.Docstring.Continuing

/-!
# Rereading

Prose is read as prose again. No line of a body opens a tag or ends in white space, and none is empty at
the start or at the end, so a body that is read once more is left as it is.
-/
namespace CodeCatalog

namespace Outline

/-- Prose is made of lines that open no tag, as they stand and in their order. -/
theorem prose_sublist (ls : List Text) :
    (ofLines ls).prose.Sublist (ls.filter fun l => (tagLine? l).isNone) := by
  induction ls with
  | nil => exact List.Sublist.refl _
  | cons l ls ih =>
      rw [ofLines_cons]
      obtain ⟨name, rest, htag, -, h⟩ | ⟨htag, -, h⟩ | ⟨htag, -, h⟩ := addAbove_cases l (ofLines ls)
      · rw [h, List.filter_cons_of_neg (by simp [htag])]
        exact (List.sublist_append_right _ _).trans ih
      · rw [h, List.filter_cons_of_pos (by simp [htag])]
        exact ih.cons_cons l
      · rw [h, List.filter_cons_of_pos (by simp [htag])]
        exact ih.cons_cons l

end Outline

namespace Docstring

/-! ## Lines of prose -/

/-- A line that is read as it stands, and as prose. -/
structure IsProseLine (l : Text) : Prop where
  no_feed : '\n' ∉ l
  getLast? : ∀ c ∈ l.getLast?, isBlank c = false
  tagLine? : Outline.tagLine? l = none

/-- Lines that are read as they stand: lines of prose, with something on the first and on the last. -/
structure IsProse (ls : List Text) : Prop where
  line : ∀ l ∈ ls, IsProseLine l
  head? : ∀ l ∈ ls.head?, l ≠ []
  getLast? : ∀ l ∈ ls.getLast?, l ≠ []

theorem isProseLine_of_mem_prose {raw l : Text} (h : l ∈ (outline raw).prose) : IsProseLine l := by
  obtain ⟨hmem, htag⟩ := List.mem_filter.mp ((Outline.prose_sublist _).mem h)
  obtain ⟨hfeed, hlast⟩ := Text.clean_of_mem_trimmedLines hmem
  exact ⟨hfeed, hlast, Option.isNone_iff_eq_none.mp htag⟩

/-- A body is made of lines of prose. -/
theorem isProse_strip (raw : Text) : IsProse (strip List.isEmpty (outline raw).prose) where
  line := fun _ hl => isProseLine_of_mem_prose (mem_of_mem_strip hl)
  head? := fun l hl => by simpa using head?_strip _ _ l hl
  getLast? := fun l hl => by simpa using getLast?_strip _ _ l hl

variable {ls : List Text}

theorem IsProse.lines_unlines (h : IsProse ls) (hne : ls ≠ []) : (Text.unlines ls).lines = ls :=
  Text.lines_unlines (fun l hl => (h.line l hl).no_feed) hne

/-- Lines of prose do not end in white space when they are joined. -/
theorem IsProse.getLast?_unlines (h : IsProse ls) :
    ∀ c ∈ (Text.unlines ls).getLast?, isBlank c = false := by
  obtain rfl | ⟨ls, l, rfl⟩ := List.eq_nil_or_concat' ls
  · rintro c ⟨⟩
  · rw [Text.getLast?_unlines_concat ls (h.getLast? l (by simp))]
    exact (h.line l (by simp)).getLast?

theorem getLast?_body (raw : Text) : ∀ c ∈ (read raw).body.getLast?, isBlank c = false :=
  (isProse_strip raw).getLast?_unlines

/-! ## Reading again -/

/-- Of a text that is made of lines of prose, all is prose. -/
theorem IsProse.read_unlines (h : IsProse ls) :
    read (Text.unlines ls) = { raw := Text.unlines ls, body := Text.unlines ls, tags := [] } := by
  by_cases hne : ls = []
  · rw [hne]
    rfl
  · have hrows : ls.map Text.trimEnd = ls :=
      (List.map_congr_left fun l hl => dropTrailing_of_getLast? (h.line l hl).getLast?).trans
        (List.map_id ls)
    have htags : (Outline.ofLines ls).tags = [] :=
      Outline.tags_ofLines_of_none fun l hl => (h.line l hl).tagLine?
    have hstrip : strip List.isEmpty ls = ls :=
      strip_of_ends (fun l hl => by simpa using h.head? l hl) fun l hl => by simpa using h.getLast? l hl
    simp only [read, h.lines_unlines hne, hrows, htags, Outline.prose_ofLines htags, hstrip,
      List.map_nil]

/-- The body of a document has no tags in it, and is read as it stands: its first and its last line have
something on them, and no line ends in white space. -/
theorem read_body (raw : Text) :
    (read (read raw).body).tags = [] ∧ (read (read raw).body).body = (read raw).body ∧
      (read (read raw).body).summary = (read raw).summary ∧
      ((read raw).body = [] ∨
        (∃ first, (read raw).body.lines.head? = some first ∧ first.allBlank = false) ∧
          ∃ last, (read raw).body.lines.getLast? = some last ∧ last.allBlank = false) ∧
      ∀ line ∈ (read raw).body.lines, ∀ c ∈ line.getLast?, isBlank c = false := by
  have hprose := isProse_strip raw
  have hread := hprose.read_unlines
  rw [← body_read_eq] at hread
  refine ⟨by rw [hread], by rw [hread], by rw [hread, summary, summary], ?_⟩
  rw [body_read_eq]
  by_cases hne : strip List.isEmpty (outline raw).prose = []
  · have hlines : (Text.unlines []).lines = [[]] := rfl
    rw [hne, hlines]
    exact ⟨Or.inl rfl, by simp⟩
  · have hhead := List.head?_eq_some_head hne
    have hlast := List.getLast?_eq_some_getLast hne
    rw [hprose.lines_unlines hne]
    refine ⟨Or.inr ⟨⟨_, hhead, ?_⟩, ⟨_, hlast, ?_⟩⟩, fun l hl => (hprose.line l hl).getLast?⟩
    · exact Text.allBlank_eq_false (hprose.head? _ hhead) (hprose.line _ (List.head_mem hne)).getLast?
    · exact Text.allBlank_eq_false (hprose.getLast? _ hlast)
        (hprose.line _ (List.getLast_mem hne)).getLast?

end Docstring

end CodeCatalog
