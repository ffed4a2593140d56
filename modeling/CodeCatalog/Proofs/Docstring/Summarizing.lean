import CodeCatalog.Proofs.Docstring.Joining

/-!
# Summarizing

The summary of a document is the first sentence of its first paragraph. A sentence is cut at a full stop,
which no tag line is, so a summary is prose as well: it is read as it stands, and it is its own summary.
-/
namespace CodeCatalog

/-! ## Sentences -/

/-- A sentence that a text starts with: it ends in a full stop, and white space or nothing is behind it. -/
structure IsSentence (t s : Text) : Prop where
  stop : s.getLast? = some '.'
  behind : ∃ rest, t = s ++ rest ∧ ∀ c ∈ rest.head?, isBlank c = true

/-- The shortest sentence that a text starts with, or all of the text where it starts with none. -/
def IsFirstSentence (t s : Text) : Prop :=
  IsSentence t s ∧ (∀ s', IsSentence t s' → s.length ≤ s'.length) ∨
    (∀ s', ¬ IsSentence t s') ∧ s = t

section Sentences

variable {t s : Text} {c : Char}

theorem IsSentence.ne_nil (h : IsSentence t s) : s ≠ [] := by
  rintro rfl
  cases h.stop

theorem isSentence_cons (h : ¬ (c = '.' ∧ t.head?.all isBlank = true)) :
    IsSentence (c :: t) s ↔ ∃ s', s = c :: s' ∧ IsSentence t s' := by
  constructor
  · intro hs
    obtain ⟨d, s', rfl⟩ := List.exists_cons_of_ne_nil hs.ne_nil
    obtain ⟨rest, heq, hrest⟩ := hs.behind
    obtain ⟨rfl, rfl⟩ := List.cons.inj heq
    refine ⟨s', rfl, ?_, rest, rfl, hrest⟩
    cases s' with
    | nil =>
        have hdot : c = '.' := by simpa using hs.stop
        exact absurd ⟨hdot, by simpa [Option.all_eq_true] using hrest⟩ h
    | cons d s' => simpa using hs.stop
  · rintro ⟨s', rfl, hs'⟩
    obtain ⟨rest, rfl, hrest⟩ := hs'.behind
    refine ⟨?_, rest, rfl, hrest⟩
    rw [List.getLast?_cons, hs'.stop]
    rfl

theorem isFirstSentence_firstSentence (t : Text) : IsFirstSentence t (Docstring.firstSentence t) := by
  induction t with
  | nil =>
      refine Or.inr ⟨fun s hs => ?_, rfl⟩
      obtain ⟨rest, heq, -⟩ := hs.behind
      exact hs.ne_nil (List.append_eq_nil_iff.mp heq.symm).1
  | cons c t ih =>
      rw [Docstring.firstSentence]
      split
      · next hstop =>
          refine Or.inl ⟨⟨by simp [hstop.1], t, rfl, ?_⟩, fun s hs => ?_⟩
          · simpa [Option.all_eq_true] using hstop.2
          · exact List.length_pos_of_ne_nil hs.ne_nil
      · next hstop =>
          obtain ⟨hsentence, hshort⟩ | ⟨hnone, hall⟩ := ih
          · refine Or.inl ⟨(isSentence_cons hstop).mpr ⟨_, rfl, hsentence⟩, fun s hs => ?_⟩
            obtain ⟨s', rfl, hs'⟩ := (isSentence_cons hstop).mp hs
            exact Nat.succ_le_succ (hshort s' hs')
          · refine Or.inr ⟨fun s hs => ?_, congrArg (c :: ·) hall⟩
            obtain ⟨s', -, hs'⟩ := (isSentence_cons hstop).mp hs
            exact hnone s' hs'

theorem IsFirstSentence.isPrefix (h : IsFirstSentence t s) : s <+: t := by
  obtain ⟨hs, -⟩ | ⟨-, rfl⟩ := h
  · obtain ⟨rest, rfl, -⟩ := hs.behind
    exact List.prefix_append s rest
  · exact List.prefix_refl s

/-- A full stop with white space behind it would end a shorter sentence. -/
theorem IsFirstSentence.no_stop_inside (h : IsFirstSentence t s) (hc : isBlank c = true) :
    ¬ ['.', c] <:+: s := by
  rintro ⟨u, v, rfl⟩
  obtain ⟨rest, rfl⟩ := h.isPrefix
  have hshorter : IsSentence (u ++ ['.', c] ++ v ++ rest) (u ++ ['.']) :=
    ⟨List.getLast?_concat, c :: (v ++ rest), by simp, by simpa using hc⟩
  obtain ⟨-, hshort⟩ | ⟨hnone, -⟩ := h
  · have hlength := hshort _ hshorter
    simp only [List.length_append, List.length_cons, List.length_nil] at hlength
    omega
  · exact hnone _ hshorter

theorem IsFirstSentence.eq_self (h : IsFirstSentence t s)
    (hstop : ∀ c, isBlank c = true → ¬ ['.', c] <:+: t) : s = t := by
  obtain ⟨hs, -⟩ | ⟨-, rfl⟩ := h
  · obtain ⟨rest, rfl, hrest⟩ := hs.behind
    cases rest with
    | nil => rw [List.append_nil]
    | cons c rest =>
        obtain ⟨u, hu⟩ := List.getLast?_eq_some_iff.mp hs.stop
        exact absurd ⟨u, rest, by simp [hu]⟩ (hstop c (hrest c rfl))
  · rfl

end Sentences

namespace Docstring

variable {ls : List Text}

/-! ## Paragraphs -/

/-- The lines of a paragraph: lines of prose with something on each. -/
structure IsParagraph (ls : List Text) : Prop where
  line : ∀ l ∈ ls, IsProseLine l
  ne_nil : ∀ l ∈ ls, l ≠ []

theorem IsParagraph.isProse (h : IsParagraph ls) : IsProse ls where
  line := h.line
  head? := fun l hl => h.ne_nil l (List.mem_of_head? hl)
  getLast? := fun l hl => h.ne_nil l (List.mem_of_getLast? hl)

theorem IsProse.isParagraph_takeWhile (h : IsProse ls) :
    IsParagraph (ls.takeWhile fun l => l ≠ []) where
  line := fun l hl => h.line l ((List.takeWhile_prefix _).mem hl)
  ne_nil := fun l hl => by simpa using List.mem_takeWhile_imp hl

/-- A line that does not end a paragraph is passed. -/
theorem firstParagraph_line {l u : Text} (hl : '\n' ∉ l) (hu : u.head? ≠ some '\n') :
    firstParagraph (l ++ '\n' :: u) = l ++ '\n' :: firstParagraph u := by
  induction l with
  | nil => exact firstParagraph_cons fun h => hu h.2
  | cons c l ih =>
      rw [List.mem_cons, not_or] at hl
      rw [List.cons_append, firstParagraph_cons fun h => hl.1 h.1.symm, ih hl.2, List.cons_append]

theorem firstParagraph_of_not_mem {l : Text} (hl : '\n' ∉ l) : firstParagraph l = l := by
  induction l with
  | nil => rfl
  | cons c l ih =>
      rw [List.mem_cons, not_or] at hl
      rw [firstParagraph_cons fun h => hl.1 h.1.symm, ih hl.2]

/-- The first paragraph has the lines up to the first empty one. -/
theorem IsProse.firstParagraph_unlines (h : IsProse ls) :
    firstParagraph (Text.unlines ls) = Text.unlines (ls.takeWhile fun l => l ≠ []) := by
  induction ls with
  | nil => rfl
  | cons l ls ih =>
      have hl := (h.line l (by simp)).no_feed
      have hne : l ≠ [] := h.head? l rfl
      rw [List.takeWhile_cons_of_pos (by simpa using hne)]
      cases ls with
      | nil => rw [Text.unlines_singleton, firstParagraph_of_not_mem hl, List.takeWhile_nil,
          Text.unlines_singleton]
      | cons next ls =>
          by_cases hnext : next = []
          · have hls : ls ≠ [] := by
              rintro rfl
              exact h.getLast? next rfl hnext
            have hlast : l.getLast? ≠ some '\n' := fun hlast => hl (List.mem_of_getLast? hlast)
            rw [hnext, Text.unlines_cons_of_ne_nil l (by simp), Text.unlines_cons_of_ne_nil [] hls,
              List.nil_append, firstParagraph_append hlast, firstParagraph_of_not_mem hl,
              List.takeWhile_cons_of_neg (by simp), Text.unlines_singleton]
          · have hprose : IsProse (next :: ls) :=
              ⟨fun l hl => h.line l (by simp [hl]), by simpa using hnext,
                by simpa [List.getLast?_cons] using h.getLast?⟩
            have hfeed : (Text.unlines (next :: ls)).head? ≠ some '\n' := by
              rw [Text.unlines_cons, List.head?_append_of_ne_nil _ hnext]
              exact fun hhead => (h.line next (by simp)).no_feed (List.mem_of_head? hhead)
            rw [Text.unlines_cons_of_ne_nil l (by simp), firstParagraph_line hl hfeed, ih hprose,
              ← Text.unlines_cons_of_ne_nil l]
            simp [hnext]

/-! ## What is cut of a paragraph -/

/-- A line that is cut at a full stop does not open a tag: no name ends there. -/
theorem IsProseLine.cut {l s : Text} (h : IsProseLine l) (hs : s <+: l)
    (hstop : s.getLast? = some '.') : IsProseLine s where
  no_feed := fun hfeed => h.no_feed (hs.mem hfeed)
  getLast? := by
    rw [hstop]
    rintro c ⟨⟩
    decide
  tagLine? := by
    obtain ⟨rest, rfl⟩ := hs
    rw [Option.eq_none_iff_forall_ne_some]
    rintro ⟨name, text⟩ htag
    obtain ⟨indent, after, rfl, hindent, hne, hname, hafter, -⟩ := Outline.tagLine?_eq_some_iff.mp htag
    have hafter_ne : after ≠ [] := by
      rintro rfl
      have hlast : name.getLast? = some '.' := by
        simpa [List.getLast?_append, List.getLast?_cons, List.getLast?_eq_some_getLast hne] using hstop
      have hdot := hname '.' (List.mem_of_getLast? hlast)
      exact absurd hdot (by decide)
    have hopens := Outline.tagLine?_eq_some_iff.mpr
      ⟨indent, after ++ rest, rfl, hindent, hne, hname,
        by rwa [List.head?_append_of_ne_nil _ hafter_ne], rfl⟩
    have hnone := h.tagLine?
    simp only [List.append_assoc, List.cons_append] at hnone
    rw [hopens] at hnone
    cases hnone

theorem IsParagraph.exists_cut {s : Text} (h : IsParagraph ls) (hs : s <+: Text.unlines ls)
    (hstop : s.getLast? = some '.') : ∃ ms, IsParagraph ms ∧ s = Text.unlines ms := by
  induction ls generalizing s with
  | nil =>
      rw [List.prefix_nil.mp hs] at hstop
      cases hstop
  | cons l ls ih =>
      have hne : s ≠ [] := by
        rintro rfl
        cases hstop
      obtain ⟨hline, hlines⟩ := List.forall_mem_cons.mp h.line
      obtain ⟨hl, hls⟩ := List.forall_mem_cons.mp h.ne_nil
      obtain hcut | ⟨s', rfl, hs'⟩ := Text.prefix_unlines_cons hs
      · exact ⟨[s], ⟨by simpa using hline.cut hcut hstop, by simpa using hne⟩,
          (Text.unlines_singleton s).symm⟩
      · have hne' : s' ≠ [] := by
          rintro rfl
          simp at hstop
        rw [List.getLast?_append_of_ne_nil _ (by simp), List.getLast?_cons_of_ne_nil hne'] at hstop
        obtain ⟨ms, hms, rfl⟩ := ih ⟨hlines, hls⟩ hs' hstop
        refine ⟨l :: ms, ⟨List.forall_mem_cons.mpr ⟨hline, hms.line⟩,
          List.forall_mem_cons.mpr ⟨hl, hms.ne_nil⟩⟩, ?_⟩
        rw [Text.unlines_cons_of_ne_nil l]
        rintro rfl
        exact hne' rfl

/-- The first sentence of a paragraph is a paragraph. -/
theorem IsParagraph.exists_firstSentence (h : IsParagraph ls) :
    ∃ ms, IsParagraph ms ∧ firstSentence (Text.unlines ls) = Text.unlines ms := by
  have hfirst := isFirstSentence_firstSentence (Text.unlines ls)
  have hprefix := hfirst.isPrefix
  obtain ⟨hs, -⟩ | ⟨-, hall⟩ := hfirst
  · exact h.exists_cut hprefix hs.stop
  · exact ⟨ls, h, hall⟩

theorem IsProseLine.trimStart {l : Text} (h : IsProseLine l) (hne : l ≠ []) :
    IsProseLine l.trimStart ∧ l.trimStart ≠ [] := by
  have hsuffix : l.trimStart <:+ l := List.dropWhile_suffix _
  refine ⟨⟨fun hfeed => h.no_feed (hsuffix.mem hfeed), Text.getLast?_of_suffix hsuffix h.getLast?, ?_⟩,
    Text.trimStart_ne_nil hne h.getLast?⟩
  have hagain : l.trimStart.trimStart = l.trimStart := List.dropWhile_idempotent _ _
  rw [Outline.tagLine?, hagain]
  exact h.tagLine?

theorem IsParagraph.exists_trim (h : IsParagraph ls) :
    ∃ ms, IsParagraph ms ∧ (Text.unlines ls).trim = Text.unlines ms := by
  cases ls with
  | nil => exact ⟨[], h, rfl⟩
  | cons l ls =>
      obtain ⟨hl, hne⟩ := (h.line l (by simp)).trimStart (h.ne_nil l (by simp))
      refine ⟨l.trimStart :: ls, ⟨?_, ?_⟩, ?_⟩
      · exact List.forall_mem_cons.mpr ⟨hl, fun l hl => h.line l (by simp [hl])⟩
      · exact List.forall_mem_cons.mpr ⟨hne, fun l hl => h.ne_nil l (by simp [hl])⟩
      · have hend : (Text.unlines (l :: ls)).trimEnd = Text.unlines (l :: ls) :=
          dropTrailing_of_getLast? h.isProse.getLast?_unlines
        rw [← Text.trimStart_trimEnd, hend, Text.unlines_cons, Text.unlines_cons,
          Text.trimStart_append hne]

theorem IsParagraph.unlines_ne_nil (h : IsParagraph ls) (hne : ls ≠ []) : Text.unlines ls ≠ [] := by
  rw [ne_eq, Text.unlines_eq_nil_iff]
  rintro (rfl | rfl)
  · exact hne rfl
  · exact h.ne_nil [] (by simp) rfl

/-! ## Summaries -/

/-- The lines of the first paragraph. -/
def openingLines (raw : Text) : List Text :=
  (strip List.isEmpty (outline raw).prose).takeWhile fun l => l ≠ []

theorem isParagraph_openingLines (raw : Text) : IsParagraph (openingLines raw) :=
  (isProse_strip raw).isParagraph_takeWhile

theorem summary_read_eq (raw : Text) :
    (read raw).summary = (firstSentence (Text.unlines (openingLines raw))).trim := by
  rw [summary, body_read_eq, (isProse_strip raw).firstParagraph_unlines]
  rfl

theorem takeWhile_lines_body (raw : Text) :
    ((read raw).body.lines.takeWhile fun l => l ≠ []) = openingLines raw := by
  rw [body_read_eq, openingLines]
  by_cases hne : strip List.isEmpty (outline raw).prose = []
  · rw [hne]
    rfl
  · rw [(isProse_strip raw).lines_unlines hne]

theorem exists_paragraph_summary (raw : Text) :
    ∃ ms, IsParagraph ms ∧ (read raw).summary = Text.unlines ms := by
  obtain ⟨ms, hms, hfirst⟩ := (isParagraph_openingLines raw).exists_firstSentence
  rw [summary_read_eq, hfirst]
  exact hms.exists_trim

theorem summary_no_stop_inside (raw : Text) {c : Char} (hc : isBlank c = true) :
    ¬ ['.', c] <:+: (read raw).summary := by
  intro hstop
  apply (isFirstSentence_firstSentence (Text.unlines (openingLines raw))).no_stop_inside hc
  obtain ⟨before, after, -, -, hsplit⟩ :=
    exists_eq_append_strip isBlank (firstSentence (Text.unlines (openingLines raw)))
  rw [summary_read_eq] at hstop
  rw [hsplit]
  exact hstop.trans ⟨before, after, by rw [List.append_assoc]; rfl⟩

theorem openingLines_ne_nil {raw : Text} (h : (read raw).body ≠ []) : openingLines raw ≠ [] := by
  obtain ⟨l, ls, hls⟩ := List.exists_cons_of_ne_nil (strip_prose_ne_nil h)
  have hl : l ≠ [] := (isProse_strip raw).head? l (by rw [hls]; rfl)
  rw [openingLines, hls, List.takeWhile_cons_of_pos (by simpa using hl)]
  simp

theorem summary_eq_nil_iff (raw : Text) : (read raw).summary = [] ↔ (read raw).body = [] := by
  constructor
  · intro hsummary
    by_contra hbody
    rw [summary_read_eq, Text.trim_eq_nil_iff] at hsummary
    obtain ⟨hs, -⟩ | ⟨-, hall⟩ :=
      isFirstSentence_firstSentence (Text.unlines (openingLines raw))
    · have hdot := Text.allBlank_iff.mp hsummary '.' (List.mem_of_getLast? hs.stop)
      exact absurd hdot (by decide)
    · have hopening := isParagraph_openingLines raw
      rw [hall, Text.allBlank_eq_false (hopening.unlines_ne_nil (openingLines_ne_nil hbody))
        hopening.isProse.getLast?_unlines] at hsummary
      cases hsummary
  · intro hbody
    rw [summary, hbody]
    rfl

/-- A summary is a paragraph of one sentence at most. -/
theorem summary_read_summary (raw : Text) :
    (read (read raw).summary).summary = (read raw).summary := by
  obtain ⟨ms, hms, hsummary⟩ := exists_paragraph_summary raw
  have hlines : (ms.takeWhile fun l => l ≠ []) = ms :=
    List.takeWhile_eq_self_iff.mpr fun l hl => by simpa using hms.ne_nil l hl
  have hsentence : firstSentence (read raw).summary = (read raw).summary :=
    (isFirstSentence_firstSentence _).eq_self fun _ => summary_no_stop_inside raw
  have htrim : (read raw).summary.trim = (read raw).summary := by
    rw [summary_read_eq, Text.trim_trim]
  have hbody := congrArg Docstring.body hms.isProse.read_unlines
  have hparagraph := hms.isProse.firstParagraph_unlines
  rw [← hsummary] at hbody
  rw [hlines, ← hsummary] at hparagraph
  rw [summary, hbody, hparagraph, hsentence, htrim]

/-- The summary of a document is the first sentence of its first paragraph, and it is empty only if there
is no prose. It is read as it stands, and it is its own summary. -/
theorem summary_is_first_sentence (raw : Text) :
    (∃ s, IsFirstSentence (Text.unlines ((read raw).body.lines.takeWhile fun l => l ≠ [])) s ∧
        (read raw).summary = s.trim) ∧
      ((read raw).summary = [] ↔ (read raw).body = []) ∧
      (∀ c, isBlank c = true → ¬ ['.', c] <:+: (read raw).summary) ∧
      (read (read raw).summary).tags = [] ∧
      (read (read raw).summary).body = (read raw).summary ∧
      (read (read raw).summary).summary = (read raw).summary := by
  obtain ⟨ms, hms, hsummary⟩ := exists_paragraph_summary raw
  have hread := hms.isProse.read_unlines
  rw [← hsummary] at hread
  refine ⟨⟨firstSentence (Text.unlines (openingLines raw)), ?_, summary_read_eq raw⟩,
    summary_eq_nil_iff raw, fun _ => summary_no_stop_inside raw, ?_, ?_, summary_read_summary raw⟩
  · rw [takeWhile_lines_body]
    exact isFirstSentence_firstSentence _
  · rw [hread]
  · rw [hread]

end Docstring

end CodeCatalog
