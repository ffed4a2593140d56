import CodeCatalog.Proofs.Docstring.Rereading

/-!
# Joining

Of two texts with an empty line between them each is read by itself. The tags of the second follow those
of the first, and so do the lines of prose.
-/
namespace CodeCatalog

/-- One text below another, with an empty line between them. -/
def Text.spaced (above below : Text) : Text :=
  above ++ '\n' :: '\n' :: below

namespace Docstring

variable {raw above below : Text}

/-! ## The first paragraph -/

theorem firstParagraph_cons {c : Char} {t : Text} (h : ¬ (c = '\n' ∧ t.head? = some '\n')) :
    firstParagraph (c :: t) = c :: firstParagraph t := by
  rw [firstParagraph]
  rintro rest rfl rfl
  exact h ⟨rfl, rfl⟩

/-- The first paragraph ends at the first empty line, whatever stands below. -/
theorem firstParagraph_append {t : Text} (h : t.getLast? ≠ some '\n') (u : Text) :
    firstParagraph (t ++ '\n' :: '\n' :: u) = firstParagraph t := by
  induction t with
  | nil => rfl
  | cons c t ih =>
      cases t with
      | nil =>
          have hc : ¬ c = '\n' := by simpa using h
          have hcons (v : Text) : firstParagraph (c :: v) = c :: firstParagraph v :=
            firstParagraph_cons fun hend => hc hend.1
          rw [List.singleton_append, hcons, hcons]
          rfl
      | cons d t =>
          by_cases hend : c = '\n' ∧ d = '\n'
          · obtain ⟨rfl, rfl⟩ := hend
            rfl
          · have hcons (v : Text) : firstParagraph (c :: d :: v) = c :: firstParagraph (d :: v) :=
              firstParagraph_cons (by simpa using hend)
            exact (hcons _).trans ((congrArg (c :: ·) (ih (by simpa using h))).trans (hcons t).symm)

/-! ## The body -/

theorem body_eq_nil_iff : (read raw).body = [] ↔ ∀ l ∈ (outline raw).prose, l = [] :=
  unlines_strip_eq_nil_iff _

theorem strip_prose_ne_nil (h : (read raw).body ≠ []) :
    strip List.isEmpty (outline raw).prose ≠ [] := by
  intro hnil
  rw [body_read_eq, hnil] at h
  exact h rfl

/-! ## Two texts -/

theorem outline_spaced (above below : Text) :
    outline (above.spaced below) =
      ⟨(outline above).pending, (outline above).body ++ [] :: (outline below).prose,
        (outline above).tags ++ (outline below).tags⟩ := by
  have hempty : Text.lines ('\n' :: below) = [] :: below.lines := Text.lines_append_cons [] below
  rw [Text.spaced, outline_append, hempty, List.map_cons, Text.trimEnd_nil,
    Outline.ofLines_append_nil_cons]
  rfl

theorem prose_spaced (above below : Text) :
    (outline (above.spaced below)).prose =
      (outline above).prose ++ [] :: (outline below).prose := by
  rw [outline_spaced, Outline.prose, ← List.append_assoc]
  rfl

theorem body_spaced_of_above_empty (h : (read above).body = []) :
    (read (above.spaced below)).body = (read below).body := by
  have hblank : ∀ l ∈ (outline above).prose ++ [[]], l.isEmpty = true := by
    simpa [List.isEmpty_iff, or_imp, forall_and] using body_eq_nil_iff.mp h
  rw [body_read_eq, prose_spaced, List.append_cons, strip_append_of_forall_left hblank, body_read_eq]

theorem body_spaced_of_below_empty (h : (read below).body = []) :
    (read (above.spaced below)).body = (read above).body := by
  have hblank : ∀ l ∈ [] :: (outline below).prose, l.isEmpty = true := by
    simpa [List.isEmpty_iff] using body_eq_nil_iff.mp h
  rw [body_read_eq, prose_spaced, strip_append_of_forall_right _ hblank, body_read_eq]

/-- The empty line between the texts is kept between their bodies, and so are those next to it. -/
theorem body_spaced (habove : (read above).body ≠ []) (hbelow : (read below).body ≠ []) :
    ∃ n, 2 ≤ n ∧ (read (above.spaced below)).body =
      (read above).body ++ (List.replicate n '\n' ++ (read below).body) := by
  obtain ⟨before, after, hbefore, hafter, hstrip⟩ := exists_strip_append_cons []
    (strip_prose_ne_nil habove) (strip_prose_ne_nil hbelow)
  have hgap : ∀ l ∈ before ++ [] :: after, l = [] := by
    simpa [List.isEmpty_iff, or_imp, forall_and] using And.intro hbefore hafter
  have hsplit : before ++ [] :: (after ++ strip List.isEmpty (outline below).prose) =
      (before ++ [] :: after) ++ strip List.isEmpty (outline below).prose := by simp
  have hlength : 1 ≤ (before ++ [] :: after).length := by
    rw [List.length_append, List.length_cons]
    omega
  refine ⟨(before ++ [] :: after).length + 1, Nat.succ_le_succ hlength, ?_⟩
  rw [body_read_eq, prose_spaced, hstrip, hsplit,
    Text.unlines_append (strip_prose_ne_nil habove) (by simp),
    Text.unlines_append_of_forall_nil hgap (strip_prose_ne_nil hbelow), ← body_read_eq,
    ← body_read_eq]
  rfl

theorem summary_spaced (habove : (read above).body ≠ []) :
    (read (above.spaced below)).summary = (read above).summary := by
  by_cases hbelow : (read below).body = []
  · rw [summary, body_spaced_of_below_empty hbelow, summary]
  · obtain ⟨n, hn, hbody⟩ := body_spaced habove hbelow
    obtain ⟨m, rfl⟩ : ∃ m, n = m + 1 + 1 := ⟨n - 2, by omega⟩
    have hlast : (read above).body.getLast? ≠ some '\n' := by
      intro hfeed
      have hblank := getLast?_body above '\n' hfeed
      cases hblank
    rw [summary, hbody, List.replicate_succ, List.replicate_succ, List.cons_append,
      List.cons_append, firstParagraph_append hlast, summary]

/-- Two texts with an empty line between them are read one by one. The tags of the second follow those
of the first, the bodies stand below each other with at least one empty line between them, and the first
body gives the summary; a body with nothing in it leaves no trace. -/
theorem read_spaced (above below : Text) :
    (read (above.spaced below)).tags = (read above).tags ++ (read below).tags ∧
      ((read above).body = [] → (read (above.spaced below)).body = (read below).body) ∧
      ((read below).body = [] → (read (above.spaced below)).body = (read above).body) ∧
      ((read above).body ≠ [] → (read below).body ≠ [] →
        ∃ n, 2 ≤ n ∧ (read (above.spaced below)).body =
          (read above).body ++ (List.replicate n '\n' ++ (read below).body)) ∧
      ((read above).body ≠ [] →
        (read (above.spaced below)).summary = (read above).summary) := by
  refine ⟨?_, body_spaced_of_above_empty, body_spaced_of_below_empty, body_spaced, summary_spaced⟩
  rw [tags_read_eq, outline_spaced, List.map_append, ← tags_read_eq, ← tags_read_eq]

/-- The first text ends in an open tag, and the second starts with an indented line, which would go to
that tag if it stood right below. The third has no prose. -/
theorem read_spaced_of_open_tag :
    ∃ above below bare : Text, above = "Finds a key. Or not.\n@see keys\r".toList ∧
      below = "  Indented.\n".toList ∧ bare = "@todo more\n".toList ∧
      (read above).body ≠ [] ∧ (read below).body ≠ [] ∧ (read bare).body = [] ∧
      (read (above.spaced below)).tags = (read above).tags ++ (read below).tags ∧
      (∃ n, 2 ≤ n ∧ (read (above.spaced below)).body =
        (read above).body ++ (List.replicate n '\n' ++ (read below).body)) ∧
      (read (above.spaced below)).summary = (read above).summary ∧
      (read (bare.spaced below)).body = (read below).body ∧
      (read (above.spaced bare)).body = (read above).body := by
  refine ⟨_, _, _, rfl, rfl, rfl, ?_⟩
  have habove : (read "Finds a key. Or not.\n@see keys\r".toList).body ≠ [] := by decide
  have hbelow : (read "  Indented.\n".toList).body ≠ [] := by decide
  have hbare : (read "@todo more\n".toList).body = [] := by decide
  obtain ⟨htags, -, -, hbody, hsummary⟩ :=
    read_spaced "Finds a key. Or not.\n@see keys\r".toList "  Indented.\n".toList
  exact ⟨habove, hbelow, hbare, htags, hbody habove hbelow, hsummary habove,
    (read_spaced _ _).2.1 hbare, (read_spaced _ _).2.2.1 hbare⟩

end Docstring

end CodeCatalog
