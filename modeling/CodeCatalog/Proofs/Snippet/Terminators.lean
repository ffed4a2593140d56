import CodeCatalog.Proofs.Snippet.Cutting

/-!
# Terminators

Dropping the last line terminator of a text, said of its lines. A second cut of a snippet does no more
than that: what is left by the first has no indentation in common and none on blank lines.
-/
namespace CodeCatalog.Snippet

variable {c : Char} {line : Text} {ls : List Text}

/-! ## Carriage returns -/

/-- Drops one carriage return from the end. -/
def dropReturn (line : Text) : Text :=
  if line.getLast? = some '\r' then line.dropLast else line

theorem dropReturn_cases (line : Text) :
    line = dropReturn line ++ ['\r'] ∨ line.getLast? ≠ some '\r' ∧ dropReturn line = line := by
  rw [dropReturn]
  split
  · next h => exact Or.inl (List.dropLast_append_getLast? _ h).symm
  · next h => exact Or.inr ⟨h, rfl⟩

theorem dropReturn_concat (line : Text) : dropReturn (line ++ ['\r']) = line := by
  simp [dropReturn]

theorem dropReturn_of_ne (h : line.getLast? ≠ some '\r') : dropReturn line = line := by
  rw [dropReturn, if_neg h]

theorem dropReturn_append (t : Text) (hne : line ≠ []) :
    dropReturn (t ++ line) = t ++ dropReturn line := by
  obtain h | ⟨h, heq⟩ := dropReturn_cases line
  · conv_lhs => rw [h, ← List.append_assoc, dropReturn_concat]
  · rw [heq, dropReturn_of_ne (by simpa [List.getLast?_append, hne] using h)]

theorem dropReturn_cons (hc : c ≠ '\r') (line : Text) :
    dropReturn (c :: line) = c :: dropReturn line := by
  cases line with
  | nil => simp [dropReturn, hc]
  | cons d line => exact dropReturn_append [c] (by simp)

theorem prefix_dropReturn (line : Text) : dropReturn line <+: line := by
  obtain h | ⟨-, h⟩ := dropReturn_cases line
  · exact ⟨['\r'], h.symm⟩
  · exact ⟨[], by rw [List.append_nil, h]⟩

theorem allBlank_dropReturn (line : Text) : (dropReturn line).allBlank = line.allBlank := by
  obtain h | ⟨-, h⟩ := dropReturn_cases line
  · conv_rhs => rw [h, Text.allBlank, List.all_append]
    exact (Bool.and_true _).symm
  · rw [h]

theorem indentation_dropReturn (line : Text) : indentation (dropReturn line) = indentation line := by
  obtain h | ⟨-, h⟩ := dropReturn_cases line
  · conv_rhs => rw [h, indentation, List.takeWhile_append]
    split
    · next hall => simp [hall, indentation, isIndent]
    · rfl
  · rw [h]

/-! ## The last terminator -/

/-- The lines of a text less its last terminator, from its lines. -/
def dropLastEnd : List Text → List Text
  | [] => []
  | line :: ls => if ls = [[]] then [dropReturn line] else line :: dropLastEnd ls

theorem dropTerminator_of_ne {t : Text} (h : t.getLast? ≠ some '\n') : dropTerminator t = t := by
  obtain ht | ⟨ht, -⟩ | ⟨ht, -⟩ := dropTerminator_cases t
  · rw [ht] at h; simp at h
  · rw [ht] at h; simp at h
  · exact ht.symm

theorem dropTerminator_eq_self_iff {t : Text} :
    dropTerminator t = t ↔ t.getLast? ≠ some '\n' := by
  refine ⟨fun h => ?_, dropTerminator_of_ne⟩
  obtain ht | ⟨ht, -⟩ | ⟨-, hlast⟩ := dropTerminator_cases t
  · rw [h] at ht; simp at ht
  · rw [h] at ht; simp at ht
  · exact hlast

theorem dropTerminator_concat (t : Text) : dropTerminator (t ++ ['\n']) = dropReturn t := by
  obtain ht | ⟨hne, ht⟩ | ⟨-, h⟩ := dropTerminator_cases (t ++ ['\n'])
  · have hlast : t = dropTerminator (t ++ ['\n']) ++ ['\r'] := by
      refine List.append_cancel_right (ht.trans ?_)
      rw [List.append_assoc]
      rfl
    conv_rhs => rw [hlast, dropReturn_concat]
  · rw [← List.append_cancel_right hne] at ht
    rw [← List.append_cancel_right hne, dropReturn_of_ne ht]
  · simp at h

theorem dropTerminator_append (l : Text) {t : Text} (hne : t ≠ []) :
    dropTerminator (l ++ '\n' :: t) = l ++ '\n' :: dropTerminator t := by
  obtain ⟨u, c, rfl⟩ := (List.eq_nil_or_concat' t).resolve_left hne
  have hsplit : l ++ '\n' :: (u ++ [c]) = (l ++ '\n' :: u) ++ [c] := by simp
  by_cases hc : c = '\n'
  · subst hc
    rw [hsplit, dropTerminator_concat, dropTerminator_concat, dropReturn_append _ (by simp),
      dropReturn_cons (by decide)]
  · have hlast (v : Text) : (v ++ [c]).getLast? ≠ some '\n' := by
      rw [List.getLast?_concat]
      simpa using hc
    rw [hsplit, dropTerminator_of_ne (hlast _), dropTerminator_of_ne (hlast _), ← hsplit]

theorem dropLastEnd_ne_nil (hne : ls ≠ []) : dropLastEnd ls ≠ [] := by
  cases ls with
  | nil => exact absurd rfl hne
  | cons line ls => rw [dropLastEnd]; split <;> simp

theorem mem_dropLastEnd (h : line ∈ dropLastEnd ls) : line ∈ ls ∨ ∃ l ∈ ls, line = dropReturn l := by
  induction ls with
  | nil => exact Or.inl h
  | cons l ls ih =>
      rw [dropLastEnd] at h
      split at h
      · exact Or.inr ⟨l, by simp, List.mem_singleton.mp h⟩
      · obtain rfl | h := List.mem_cons.mp h
        · exact Or.inl (by simp)
        · obtain h | ⟨l', hl', rfl⟩ := ih h
          · exact Or.inl (by simp [h])
          · exact Or.inr ⟨l', by simp [hl'], rfl⟩

theorem dropTerminator_unlines (h : ∀ l ∈ ls, '\n' ∉ l) :
    dropTerminator (Text.unlines ls) = Text.unlines (dropLastEnd ls) := by
  induction ls with
  | nil => rfl
  | cons l ls ih =>
      rw [dropLastEnd]
      split
      · next hls =>
          have hlast : Text.unlines [l, []] = l ++ ['\n'] := by simp [Text.unlines_cons]
          rw [hls, hlast, dropTerminator_concat]
          exact (Text.unlines_singleton _).symm
      · next hls =>
          by_cases hnil : ls = []
          · have hlast : l.getLast? ≠ some '\n' :=
              fun hlast => h l (by simp) (List.mem_of_getLast? hlast)
            rw [hnil, dropLastEnd]
            simpa [Text.unlines] using dropTerminator_of_ne hlast
          · have hne : Text.unlines ls ≠ [] :=
              fun hempty => (Text.unlines_eq_nil_iff.mp hempty).elim hnil hls
            rw [Text.unlines_cons_of_ne_nil l hnil, dropTerminator_append l hne,
              ih fun l hl => h l (by simp [hl]),
              Text.unlines_cons_of_ne_nil l (dropLastEnd_ne_nil hnil)]

theorem lines_dropTerminator (t : Text) : (dropTerminator t).lines = dropLastEnd t.lines := by
  have hlf : ∀ l ∈ dropLastEnd t.lines, '\n' ∉ l := by
    intro l hl hmem
    obtain hl | ⟨l', hl', rfl⟩ := mem_dropLastEnd hl
    · exact Text.not_mem_of_mem_lines hl hmem
    · exact Text.not_mem_of_mem_lines hl' ((prefix_dropReturn l').mem hmem)
  conv_lhs => rw [← Text.unlines_lines t]
  rw [dropTerminator_unlines fun l hl => Text.not_mem_of_mem_lines hl]
  exact Text.lines_unlines hlf (dropLastEnd_ne_nil (Text.lines_ne_nil t))

/-- A carriage return is white space and no indentation, so without it nothing changes. -/
theorem commonIndentation_dropLastEnd (ls : List Text) :
    commonIndentation (dropLastEnd ls) = commonIndentation ls := by
  have hsame : ((dropLastEnd ls).filter fun l => !l.allBlank).map indentation =
      (ls.filter fun l => !l.allBlank).map indentation := by
    induction ls with
    | nil => rfl
    | cons l ls ih =>
        rw [dropLastEnd]
        split
        · next hls =>
            have hempty : Text.allBlank [] = true := rfl
            rw [hls]
            simp only [List.filter_cons, List.filter_nil, allBlank_dropReturn, hempty]
            cases l.allBlank
            · exact congrArg (· :: []) (indentation_dropReturn l)
            · rfl
        · rw [List.filter_cons, List.filter_cons]
          cases l.allBlank
          · exact congrArg (indentation l :: ·) ih
          · exact ih
  rw [commonIndentation, commonIndentation, hsame]

/-! ## Cutting again -/

theorem dedentLine_zero (h : line.allBlank = true → ∀ c ∈ line.head?, isIndent c = false) :
    dedentLine 0 line = line := by
  rw [dedentLine]
  split
  · next hblank =>
      cases line with
      | nil => rfl
      | cons c t => rw [List.dropWhile_cons_of_neg (by simp [h hblank c rfl])]
  · exact unindent_zero line

theorem commonIndentation_dedent (t : Text) : commonIndentation (dedent t).lines = 0 := by
  by_cases h : ∃ l ∈ (dropTerminator t).lines, l.allBlank = false
  · obtain ⟨l, hl, hfull, hzero⟩ := exists_indentation_zero h
    have hle := commonIndentation_le hl hfull
    omega
  · apply commonIndentation_of_blank
    intro rest hrest
    rw [lines_dedent] at hrest
    obtain ⟨line, hl, rfl⟩ := List.mem_map.mp hrest
    rw [(cut_of_mem hl).allBlank_eq]
    simpa using fun hfull => h ⟨line, hl, hfull⟩

theorem head?_of_mem_lines_dedent {t : Text} (hl : line ∈ (dedent t).lines)
    (hblank : line.allBlank = true) : ∀ c ∈ line.head?, isIndent c = false := by
  rw [lines_dedent] at hl
  obtain ⟨l, hmem, rfl⟩ := List.mem_map.mp hl
  exact (cut_of_mem hmem).head?_eq hblank

theorem dedent_dedent_eq (t : Text) : dedent (dedent t) = dropTerminator (dedent t) := by
  have hsame : ∀ line ∈ (dropTerminator (dedent t)).lines, dedentLine 0 line = line := by
    intro line hl
    rw [lines_dropTerminator] at hl
    apply dedentLine_zero
    obtain hl | ⟨l, hmem, rfl⟩ := mem_dropLastEnd hl
    · exact head?_of_mem_lines_dedent hl
    · intro hblank c hc
      rw [allBlank_dropReturn] at hblank
      obtain ⟨u, hu⟩ := prefix_dropReturn l
      apply head?_of_mem_lines_dedent hmem hblank
      rw [← hu, List.head?_append, Option.mem_def.mp hc]
      rfl
  rw [dedent, lines_dropTerminator, commonIndentation_dropLastEnd, commonIndentation_dedent,
    ← lines_dropTerminator, List.map_congr_left hsame, List.map_id', Text.unlines_lines]

/-- Cutting a snippet again drops one more terminator, if there is one, and nothing else. -/
theorem dedent_dedent (t : Text) :
    dedent (dedent t) = dropTerminator (dedent t) ∧
      (dedent (dedent t) = dedent t ↔ (dedent t).getLast? ≠ some '\n') :=
  ⟨dedent_dedent_eq t, by rw [dedent_dedent_eq, dropTerminator_eq_self_iff]⟩

end CodeCatalog.Snippet
