import CodeCatalog.Proofs.Snippet.Terminators

/-!
# Returns

The lines of a text may end in line feeds alone, or in carriage returns and line feeds. A snippet is cut
in the same way in either case.
-/
namespace CodeCatalog

/-! ## Texts and lines -/

namespace Text

variable {t : Text} {ls : List Text}

/-- Puts a carriage return before each line feed. -/
def withReturns (t : Text) : Text :=
  t.flatMap fun c => if c = '\n' then ['\r', '\n'] else [c]

/-- Puts a carriage return at the end of each line but the last. -/
def returnLines : List Text → List Text
  | [] => []
  | [line] => [line]
  | line :: next :: ls => (line ++ ['\r']) :: returnLines (next :: ls)

@[simp] theorem withReturns_nil : withReturns [] = [] := rfl

@[simp] theorem withReturns_append (t u : Text) :
    withReturns (t ++ u) = withReturns t ++ withReturns u :=
  List.flatMap_append

@[simp] theorem withReturns_cons_feed (t : Text) :
    withReturns ('\n' :: t) = '\r' :: '\n' :: withReturns t := rfl

theorem withReturns_of_not_mem (h : '\n' ∉ t) : withReturns t = t := by
  have hsame : ∀ c ∈ t, (if c = '\n' then ['\r', '\n'] else [c]) = [c] := by
    rintro c hc
    rw [if_neg]
    rintro rfl
    exact h hc
  rw [withReturns, List.flatMap_congr hsame, List.flatMap_singleton']

theorem getLast?_withReturns_ne (h : t.getLast? ≠ some '\n') :
    (withReturns t).getLast? ≠ some '\n' := by
  obtain rfl | ⟨u, c, rfl⟩ := List.eq_nil_or_concat' t
  · exact h
  · have hc : '\n' ∉ [c] := by simpa [eq_comm] using h
    rw [withReturns_append, withReturns_of_not_mem hc, List.getLast?_concat]
    rwa [List.getLast?_concat] at h

theorem count_return_withReturns (t : Text) :
    (withReturns t).count '\r' = t.count '\r' + t.count '\n' := by
  induction t with
  | nil => rfl
  | cons c t ih =>
      by_cases hc : c = '\n'
      · subst hc
        simp [ih]
        omega
      · have hcons : withReturns (c :: t) = c :: withReturns t := by simp [withReturns, hc]
        simp [hcons, List.count_cons, ih, hc, Nat.add_right_comm]

theorem returnLines_ne_nil (h : ls ≠ []) : returnLines ls ≠ [] := by
  cases ls with
  | nil => exact absurd rfl h
  | cons line ls => cases ls <;> simp [returnLines]

theorem mem_returnLines {line : Text} (h : line ∈ returnLines ls) :
    line ∈ ls ∨ ∃ l ∈ ls, line = l ++ ['\r'] := by
  induction ls using returnLines.induct with
  | case1 => exact Or.inl h
  | case2 l => exact Or.inl h
  | case3 l next ls ih =>
      rw [returnLines] at h
      obtain rfl | h := List.mem_cons.mp h
      · exact Or.inr ⟨l, by simp, rfl⟩
      · obtain h | ⟨l', hl', rfl⟩ := ih h
        · exact Or.inl (List.mem_cons_of_mem _ h)
        · exact Or.inr ⟨l', List.mem_cons_of_mem _ hl', rfl⟩

theorem map_returnLines {f : Text → Text} (h : ∀ l, f (l ++ ['\r']) = f l ++ ['\r'])
    (ls : List Text) : (returnLines ls).map f = returnLines (ls.map f) := by
  induction ls using returnLines.induct with
  | case1 => rfl
  | case2 line => rfl
  | case3 line next ls ih =>
      rw [returnLines, List.map_cons, ih, h]
      rfl

theorem withReturns_unlines (h : ∀ l ∈ ls, '\n' ∉ l) :
    withReturns (unlines ls) = unlines (returnLines ls) := by
  induction ls using returnLines.induct with
  | case1 => rfl
  | case2 line =>
      rw [returnLines, unlines_singleton, withReturns_of_not_mem (h line (by simp))]
  | case3 line next ls ih =>
      rw [unlines_cons_of_ne_nil line (by simp), withReturns_append, withReturns_cons_feed,
        withReturns_of_not_mem (h line (by simp)), ih fun l hl => h l (by simp [hl]), returnLines,
        unlines_cons_of_ne_nil _ (returnLines_ne_nil (by simp)), List.append_assoc]
      rfl

theorem lines_withReturns (t : Text) : (withReturns t).lines = returnLines t.lines := by
  have hlines : ∀ l ∈ returnLines t.lines, '\n' ∉ l := by
    intro l hl
    obtain hl | ⟨l', hl', rfl⟩ := mem_returnLines hl
    · exact not_mem_of_mem_lines hl
    · simpa using not_mem_of_mem_lines hl'
  conv_lhs => rw [← unlines_lines t]
  rw [withReturns_unlines fun l hl => not_mem_of_mem_lines hl]
  exact lines_unlines hlines (returnLines_ne_nil (lines_ne_nil t))

end Text

namespace Snippet

open CodeCatalog.Text (returnLines)

variable {t : Text}

/-! ## Cutting lines that end in returns -/

theorem unindent_concat_return (width : Nat) (line : Text) :
    unindent width (line ++ ['\r']) = unindent width line ++ ['\r'] := by
  induction width generalizing line with
  | zero => simp
  | succ width ih =>
      cases line with
      | nil => rfl
      | cons c line =>
          rw [List.cons_append, unindent, unindent]
          split
          · exact ih line
          · rfl

theorem dedentLine_concat_return (width : Nat) (line : Text) :
    dedentLine width (line ++ ['\r']) = dedentLine width line ++ ['\r'] := by
  have hblank : (line ++ ['\r']).allBlank = line.allBlank := by
    rw [← allBlank_dropReturn, dropReturn_concat]
  rw [dedentLine, dedentLine, hblank]
  split
  · rw [List.dropWhile_append]
    split
    · next hempty => rw [List.isEmpty_iff.mp hempty]; rfl
    · rfl
  · exact unindent_concat_return width line

theorem commonIndentation_returnLines (ls : List Text) :
    commonIndentation (returnLines ls) = commonIndentation ls := by
  have hsame : ((returnLines ls).filter fun l => !l.allBlank).map indentation =
      (ls.filter fun l => !l.allBlank).map indentation := by
    induction ls using CodeCatalog.Text.returnLines.induct with
    | case1 => rfl
    | case2 line => rfl
    | case3 line next ls ih =>
        have hblank := allBlank_dropReturn (line ++ ['\r'])
        have hindent := indentation_dropReturn (line ++ ['\r'])
        rw [dropReturn_concat] at hblank hindent
        rw [returnLines, List.filter_cons, ← hblank, List.filter_cons (x := line)]
        cases line.allBlank
        · simp only [Bool.not_false, if_true, List.map_cons, ih, hindent]
        · exact ih
  rw [commonIndentation, commonIndentation, hsame]

/-! ## The last terminator -/

theorem dropTerminator_withReturns (h : ¬ ['\r', '\n'] <:+ t) :
    dropTerminator t.withReturns = (dropTerminator t).withReturns := by
  obtain ht | ⟨ht, -⟩ | ⟨ht, hlast⟩ := dropTerminator_cases t
  · exact absurd ⟨_, ht.symm⟩ h
  · conv_lhs => rw [ht, Text.withReturns_append]
    have hsplit : (dropTerminator t).withReturns ++ ['\r', '\n'] =
      (dropTerminator t).withReturns ++ ['\r'] ++ ['\n'] := by simp
    exact (congrArg dropTerminator hsplit).trans
      ((dropTerminator_concat _).trans (dropReturn_concat _))
  · rw [← ht, dropTerminator_of_ne (Text.getLast?_withReturns_ne hlast)]

/-- Where the last line feed has a carriage return already, that one stays behind. -/
theorem dropTerminator_withReturns_concat (u : Text) :
    dropTerminator (Text.withReturns (u ++ ['\r', '\n'])) = u.withReturns ++ ['\r'] := by
  have hsplit : Text.withReturns (u ++ ['\r', '\n']) = u.withReturns ++ ['\r'] ++ ['\r'] ++ ['\n'] := by
    rw [Text.withReturns_append, List.append_assoc, List.append_assoc]
    rfl
  rw [hsplit, dropTerminator_concat, dropReturn_concat]

/-! ## Snippets -/

theorem count_dedent {c : Char} (hc : isIndent c = false) (t : Text) :
    (dedent t).count c = (dropTerminator t).count c := by
  have hfilter (u : Text) : (u.filter (!isIndent ·)).count c = u.count c :=
    List.count_filter (by rw [hc]; rfl)
  rw [← hfilter, filter_dedent, hfilter]

theorem dedent_withReturns_of_not_suffix (h : ¬ ['\r', '\n'] <:+ t) :
    dedent t.withReturns = (dedent t).withReturns := by
  have hlf : ∀ l ∈ (dedent t).lines, '\n' ∉ l := fun _ hl => Text.not_mem_of_mem_lines hl
  have hlines := lines_dedent t
  rw [dedent, dropTerminator_withReturns h, Text.lines_withReturns, commonIndentation_returnLines,
    Text.map_returnLines (dedentLine_concat_return _), ← hlines, ← Text.withReturns_unlines hlf,
    Text.unlines_lines]

/-- A snippet whose line feeds are given carriage returns is cut as before, and the result has them too.
This fails only for a text that ends in a carriage return and a line feed: the two are dropped together,
but the carriage return stays if the line feed is given one of its own. -/
theorem dedent_withReturns (t : Text) :
    ('\r' ∉ t → dedent t.withReturns = (dedent t).withReturns) ∧
      (dedent t.withReturns = (dedent t).withReturns ↔ ¬ ['\r', '\n'] <:+ t) := by
  refine ⟨fun h => dedent_withReturns_of_not_suffix fun hend => h (hend.mem (by simp)), ?_,
    dedent_withReturns_of_not_suffix⟩
  rintro heq ⟨u, rfl⟩
  have hreturn : isIndent '\r' = false := by decide
  have hfeed : isIndent '\n' = false := by decide
  have hdrop : dropTerminator (u ++ ['\r', '\n']) = u := by
    have hsplit : u ++ ['\r', '\n'] = u ++ ['\r'] ++ ['\n'] := by simp
    rw [hsplit, dropTerminator_concat, dropReturn_concat]
  have hcount := congrArg (List.count '\r') heq
  rw [count_dedent hreturn, dropTerminator_withReturns_concat, List.count_append,
    Text.count_return_withReturns, Text.count_return_withReturns, count_dedent hreturn,
    count_dedent hfeed, hdrop] at hcount
  simp at hcount

/-- A blank line becomes a lone carriage return, and of two line feeds at the end one stays. -/
theorem dedent_withReturns_of_blank_lines :
    ∃ t : Text, t = "\t  a\n \n\t b\n\n".toList ∧ '\r' ∉ t ∧
      t.withReturns = "\t  a\r\n \r\n\t b\r\n\r\n".toList ∧
      (dedent t).withReturns = " a\r\n\r\nb\r\n".toList ∧
      dedent t.withReturns = (dedent t).withReturns :=
  ⟨_, rfl, by decide, by decide, by decide, (dedent_withReturns _).1 (by decide)⟩

end Snippet

end CodeCatalog
