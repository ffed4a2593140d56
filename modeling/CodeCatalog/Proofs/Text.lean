import Mathlib.Data.List.DropRight
import CodeCatalog.Text.Blank

/-! Blank text: what stripping and joining lines make of it. -/
namespace CodeCatalog

section Strip

variable {α : Type} {p : α → Bool} {l t : List α} {a : α}

theorem dropTrailing_eq_rdropWhile (p : α → Bool) (l : List α) :
    dropTrailing p l = l.rdropWhile p := rfl

theorem strip_eq_nil_iff : strip p l = [] ↔ ∀ a ∈ l, p a = true := by
  rw [strip, dropTrailing_eq_rdropWhile, List.rdropWhile_eq_nil_iff]
  constructor
  · intro h
    rw [← List.dropWhile_eq_nil_iff]
    by_contra hne
    have hhead := List.head_dropWhile_not p hne
    rw [h _ (List.head_mem hne)] at hhead
    cases hhead
  · intro h a ha
    exact h a ((List.dropWhile_suffix p).subset ha)

theorem head?_dropWhile (p : α → Bool) (l : List α) : ∀ a ∈ (l.dropWhile p).head?, p a = false := by
  intro a ha
  have hhead := List.head?_dropWhile_not p l
  rw [Option.mem_def.mp ha] at hhead
  simpa using hhead

/-- What is left of a list does not start with what is dropped. -/
theorem of_strip_eq_cons (h : strip p l = a :: t) : p a = false := by
  rw [strip, dropTrailing_eq_rdropWhile] at h
  obtain ⟨t', ht⟩ := List.rdropWhile_prefix p (l.dropWhile p)
  rw [h, List.cons_append] at ht
  exact head?_dropWhile p l a (by rw [← ht]; rfl)

theorem strip_concat (h : p a = true) : strip p (l ++ [a]) = strip p l := by
  rw [strip, strip, List.dropWhile_append]
  split
  · next hempty => simp [List.isEmpty_iff.mp hempty, h]
  · rw [dropTrailing_concat, if_pos h]

/-- It does not matter which end is stripped first. -/
theorem dropWhile_dropTrailing (p : α → Bool) (l : List α) :
    (dropTrailing p l).dropWhile p = strip p l := by
  induction l using List.reverseRecOn with
  | nil => rfl
  | append_singleton l a ih =>
      cases h : p a with
      | true => rw [strip_concat h, dropTrailing_concat, if_pos h, ih]
      | false =>
          rw [strip, dropTrailing_concat, if_neg (by simp [h]), List.dropWhile_append]
          split
          · simp [h, dropTrailing]
          · rw [dropTrailing_concat, if_neg (by simp [h])]

theorem getLast?_dropTrailing (p : α → Bool) (l : List α) :
    ∀ a ∈ (dropTrailing p l).getLast?, p a = false := by
  intro a ha
  obtain ⟨hne, rfl⟩ := List.mem_getLast?_eq_getLast ha
  exact eq_false_of_ne_true (List.rdropWhile_last_not p l hne)

/-- What is left of a list does not end with what is dropped. -/
theorem getLast?_strip (p : α → Bool) (l : List α) : ∀ a ∈ (strip p l).getLast?, p a = false :=
  getLast?_dropTrailing p _

theorem head?_strip (p : α → Bool) (l : List α) : ∀ a ∈ (strip p l).head?, p a = false := by
  intro a ha
  obtain ⟨t, ht⟩ := List.head?_eq_some_iff.mp ha
  exact of_strip_eq_cons ht

theorem exists_eq_append_dropTrailing (p : α → Bool) (l : List α) :
    ∃ after, (∀ a ∈ after, p a = true) ∧ l = dropTrailing p l ++ after :=
  ⟨l.rtakeWhile p, fun _ => List.mem_rtakeWhile_imp, (List.rdropWhile_append_rtakeWhile ..).symm⟩

theorem exists_eq_append_strip (p : α → Bool) (l : List α) :
    ∃ before after, (∀ a ∈ before, p a = true) ∧ (∀ a ∈ after, p a = true) ∧
      l = before ++ (strip p l ++ after) := by
  obtain ⟨after, hafter, hl⟩ := exists_eq_append_dropTrailing p (l.dropWhile p)
  refine ⟨l.takeWhile p, after, fun _ => List.mem_takeWhile_imp, hafter, ?_⟩
  rw [strip, ← hl, List.takeWhile_append_dropWhile]

theorem mem_of_mem_strip (h : a ∈ strip p l) : a ∈ l := by
  obtain ⟨before, after, -, -, hl⟩ := exists_eq_append_strip p l
  rw [hl]
  simp [h]

/-- What stands in front of something that stays is not touched. -/
theorem dropTrailing_append (h : ∀ a ∈ l.getLast?, p a = false) (t : List α) :
    dropTrailing p (l ++ t) = l ++ dropTrailing p t := by
  induction t using List.reverseRecOn with
  | nil =>
      obtain rfl | ⟨t, a, rfl⟩ := List.eq_nil_or_concat' l
      · rfl
      · rw [List.append_nil, dropTrailing_concat, if_neg (by simp [h a (by simp)]),
          dropTrailing_nil, List.append_nil]
  | append_singleton t a ih =>
      rw [← List.append_assoc, dropTrailing_concat, dropTrailing_concat, ih]
      split
      · rfl
      · rw [List.append_assoc]

theorem dropWhile_of_head? (h : ∀ a ∈ l.head?, p a = false) : l.dropWhile p = l := by
  cases l with
  | nil => rfl
  | cons a l => rw [List.dropWhile_cons_of_neg (by simp [h a rfl])]

theorem dropTrailing_of_getLast? (h : ∀ a ∈ l.getLast?, p a = false) : dropTrailing p l = l := by
  have hend := dropTrailing_append h []
  rwa [List.append_nil, dropTrailing_nil, List.append_nil] at hend

theorem strip_of_ends (hhead : ∀ a ∈ l.head?, p a = false) (hlast : ∀ a ∈ l.getLast?, p a = false) :
    strip p l = l := by
  rw [strip, dropWhile_of_head? hhead, dropTrailing_of_getLast? hlast]

@[simp] theorem strip_strip (p : α → Bool) (l : List α) : strip p (strip p l) = strip p l :=
  strip_of_ends (head?_strip p l) (getLast?_strip p l)

theorem strip_append_of_forall_left (h : ∀ a ∈ l, p a = true) (t : List α) :
    strip p (l ++ t) = strip p t := by
  rw [strip, List.dropWhile_append_of_pos h, strip]

theorem dropTrailing_append_of_forall (l : List α) (h : ∀ a ∈ t, p a = true) :
    dropTrailing p (l ++ t) = dropTrailing p l := by
  have hreverse : ∀ a ∈ t.reverse, p a = true := fun a ha => h a (List.mem_reverse.mp ha)
  rw [dropTrailing, List.reverse_append, List.dropWhile_append_of_pos hreverse, dropTrailing]

theorem strip_append_of_forall_right (l : List α) (h : ∀ a ∈ t, p a = true) :
    strip p (l ++ t) = strip p l := by
  rw [← dropWhile_dropTrailing, dropTrailing_append_of_forall l h, dropWhile_dropTrailing]

/-- Between two lists of which something is left, all that is there is left too. -/
theorem exists_strip_append_cons (a : α) (hl : strip p l ≠ []) (ht : strip p t ≠ []) :
    ∃ before after, (∀ b ∈ before, p b = true) ∧ (∀ b ∈ after, p b = true) ∧
      strip p (l ++ a :: t) = strip p l ++ (before ++ a :: (after ++ strip p t)) := by
  obtain ⟨start, before, hstart, hbefore, hl'⟩ := exists_eq_append_strip p l
  obtain ⟨after, rest, hafter, hrest, ht'⟩ := exists_eq_append_strip p t
  refine ⟨before, after, hbefore, hafter, ?_⟩
  have hsplit : l ++ a :: t =
      start ++ (strip p l ++ (before ++ a :: (after ++ strip p t)) ++ rest) := by
    conv_lhs => rw [hl', ht']
    simp
  rw [hsplit, strip_append_of_forall_left hstart, strip_append_of_forall_right _ hrest]
  apply strip_of_ends
  · intro b hb
    rw [List.head?_append_of_ne_nil _ hl] at hb
    exact head?_strip p l b hb
  · intro b hb
    rw [List.getLast?_append, List.getLast?_append, List.getLast?_cons, List.getLast?_append] at hb
    obtain ⟨c, hc⟩ : ∃ c, (strip p t).getLast? = some c := ⟨_, List.getLast?_eq_some_getLast ht⟩
    rw [hc] at hb
    exact getLast?_strip p t b (by rw [hc]; simpa using hb)

end Strip

namespace Text

theorem isBlank_space : isBlank ' ' = true := by decide

theorem isBlank_feed : isBlank '\n' = true := by decide

theorem trimStart_trimEnd (t : Text) : t.trimEnd.trimStart = t.trim :=
  dropWhile_dropTrailing isBlank t

theorem allBlank_iff {t : Text} : allBlank t = true ↔ ∀ c ∈ t, isBlank c = true := by
  simp [allBlank]

theorem trim_eq_nil_iff {t : Text} : trim t = [] ↔ allBlank t = true := by
  rw [allBlank_iff]
  exact strip_eq_nil_iff

@[simp] theorem trim_trim (t : Text) : t.trim.trim = t.trim :=
  strip_strip isBlank t

theorem trimStart_cons {c : Char} (hc : isBlank c = true) (t : Text) :
    trimStart (c :: t) = t.trimStart :=
  List.dropWhile_cons_of_pos hc

/-- What follows something that stays is not touched. -/
theorem trimStart_append {t : Text} (h : t.trimStart ≠ []) (u : Text) :
    trimStart (t ++ u) = t.trimStart ++ u := by
  rw [trimStart] at h
  rw [trimStart, List.dropWhile_append, if_neg fun hempty => h (List.isEmpty_iff.mp hempty),
    trimStart]

theorem trim_cons {c : Char} (hc : isBlank c = true) (t : Text) : trim (c :: t) = t.trim := by
  rw [trim_eq, trimStart_cons hc, trim_eq]

theorem trimEnd_eq_nil_iff {t : Text} : trimEnd t = [] ↔ allBlank t = true := by
  rw [allBlank_iff]
  exact List.rdropWhile_eq_nil_iff

theorem trimStart_eq_nil_iff {t : Text} : trimStart t = [] ↔ allBlank t = true := by
  rw [allBlank_iff]
  exact List.dropWhile_eq_nil_iff

theorem allBlank_eq_false {t : Text} (hne : t ≠ []) (h : ∀ c ∈ t.getLast?, isBlank c = false) :
    allBlank t = false := by
  rw [← Bool.not_eq_true, allBlank_iff]
  intro hblank
  have hlast := h _ (List.getLast?_eq_some_getLast hne)
  rw [hblank _ (List.getLast_mem hne)] at hlast
  cases hlast

theorem trimStart_ne_nil {t : Text} (hne : t ≠ []) (h : ∀ c ∈ t.getLast?, isBlank c = false) :
    trimStart t ≠ [] := by
  rw [ne_eq, trimStart_eq_nil_iff, allBlank_eq_false hne h]
  decide

theorem getLast?_of_suffix {s t : Text} (hs : s <:+ t)
    (h : ∀ c ∈ t.getLast?, isBlank c = false) :
    ∀ c ∈ s.getLast?, isBlank c = false := by
  obtain ⟨u, rfl⟩ := hs
  intro c hc
  apply h
  rw [List.getLast?_append, Option.mem_def.mp hc]
  rfl

/-! ## Lines -/

theorem lines_append_cons (t u : Text) : lines (t ++ '\n' :: u) = lines t ++ lines u :=
  List.splitOn_append_cons_self t u

theorem lines_of_not_mem {t : Text} (h : '\n' ∉ t) : lines t = [t] :=
  List.splitOn_eq_singleton h

theorem lines_ne_nil (t : Text) : lines t ≠ [] :=
  List.splitOn_ne_nil '\n' t

theorem not_mem_of_mem_lines {t l : Text} (h : l ∈ lines t) : '\n' ∉ l := by
  induction t generalizing l with
  | nil =>
      obtain rfl : l = [] := by simpa [lines] using h
      simp
  | cons c t ih =>
      obtain ⟨first, others, hlines⟩ := List.exists_cons_of_ne_nil (lines_ne_nil t)
      have hfirst : '\n' ∉ first := ih (by simp [hlines])
      rw [lines, List.splitOn_cons_eq_if_modifyHead] at h
      split at h
      · obtain rfl | h := List.mem_cons.mp h
        · simp
        · exact ih h
      · next hc =>
          rw [show List.splitOn '\n' t = first :: others from hlines, List.modifyHead_cons] at h
          obtain rfl | h := List.mem_cons.mp h
          · have hne : ¬ '\n' = c := fun heq => hc (beq_iff_eq.mpr heq.symm)
            simp [hne, hfirst]
          · exact ih (by simp [hlines, h])

/-- The lines of a text, without the white space at their ends. -/
def trimmedLines (t : Text) : List Text :=
  t.lines.map trimEnd

theorem clean_of_mem_trimmedLines {t l : Text} (h : l ∈ trimmedLines t) :
    '\n' ∉ l ∧ ∀ c ∈ l.getLast?, isBlank c = false := by
  obtain ⟨line, hline, rfl⟩ := List.mem_map.mp h
  refine ⟨fun hfeed => ?_, getLast?_dropTrailing isBlank line⟩
  exact not_mem_of_mem_lines hline ((List.rdropWhile_prefix isBlank line).mem hfeed)

@[simp] theorem unlines_singleton (l : Text) : unlines [l] = l :=
  List.intercalate_singleton

theorem unlines_cons (l : Text) (ls : List Text) :
    unlines (l :: ls) = l ++ ls.flatMap ('\n' :: ·) := by
  induction ls generalizing l with
  | nil => simp [unlines]
  | cons l' ls ih =>
      have hl' : List.intercalate ['\n'] (l' :: ls) = l' ++ ls.flatMap ('\n' :: ·) := ih l'
      rw [unlines, List.intercalate_cons_cons, hl', List.flatMap_cons]
      simp

theorem unlines_cons_of_ne_nil (l : Text) {ls : List Text} (h : ls ≠ []) :
    unlines (l :: ls) = l ++ '\n' :: unlines ls := by
  obtain ⟨l', ls', rfl⟩ := List.exists_cons_of_ne_nil h
  rw [unlines_cons, unlines_cons, List.flatMap_cons, List.cons_append]

theorem unlines_append {ls ms : List Text} (hls : ls ≠ []) (hms : ms ≠ []) :
    unlines (ls ++ ms) = unlines ls ++ '\n' :: unlines ms := by
  obtain ⟨l, ls, rfl⟩ := List.exists_cons_of_ne_nil hls
  obtain ⟨m, ms, rfl⟩ := List.exists_cons_of_ne_nil hms
  rw [List.cons_append, unlines_cons, unlines_cons, unlines_cons, List.flatMap_append,
    List.flatMap_cons, List.append_assoc, List.cons_append]

/-- The start of a text ends in the first line, or below it. -/
theorem prefix_unlines_cons {s l : Text} {ls : List Text} (h : s <+: unlines (l :: ls)) :
    s <+: l ∨ ∃ s', s = l ++ '\n' :: s' ∧ s' <+: unlines ls := by
  by_cases hls : ls = []
  · rw [hls, unlines_singleton] at h
    exact Or.inl h
  · rw [unlines_cons_of_ne_nil l hls] at h
    obtain hs | ⟨u, rfl⟩ := List.prefix_or_prefix_of_prefix h (List.prefix_append l _)
    · exact Or.inl hs
    · obtain rfl | ⟨s', rfl, hs'⟩ :=
        List.prefix_cons_iff.mp ((List.prefix_append_right_inj l).mp h)
      · exact Or.inl (by simp)
      · exact Or.inr ⟨s', rfl, hs'⟩

/-- What is appended to a text is appended to its last line. -/
theorem unlines_concat_append (ls : List Text) (l t : Text) :
    unlines (ls ++ [l]) ++ t = unlines (ls ++ [l ++ t]) := by
  induction ls with
  | nil => simp [unlines]
  | cons l' ls ih =>
      rw [List.cons_append, List.cons_append, unlines_cons_of_ne_nil l' (by simp),
        unlines_cons_of_ne_nil l' (by simp), ← ih, List.append_assoc, List.cons_append]

/-- Of an empty line the line feed alone is left. -/
theorem unlines_append_of_forall_nil {ls ms : List Text} (hls : ∀ l ∈ ls, l = []) (hms : ms ≠ []) :
    unlines (ls ++ ms) = List.replicate ls.length '\n' ++ unlines ms := by
  induction ls with
  | nil => rfl
  | cons l ls ih =>
      rw [List.cons_append, unlines_cons_of_ne_nil l (by simp [hms]), hls l (by simp),
        ih fun l hl => hls l (by simp [hl])]
      rfl

theorem getLast?_unlines_concat (ls : List Text) {l : Text} (hl : l ≠ []) :
    (unlines (ls ++ [l])).getLast? = l.getLast? := by
  by_cases hls : ls = []
  · rw [hls, List.nil_append, unlines_singleton]
  · rw [unlines_append hls (by simp), unlines_singleton, List.getLast?_append, List.getLast?_cons,
      List.getLast?_eq_some_getLast hl]
    rfl

theorem unlines_eq_nil_iff {ls : List Text} : unlines ls = [] ↔ ls = [] ∨ ls = [[]] := by
  cases ls with
  | nil => simp [unlines]
  | cons l ls => cases ls <;> simp [unlines_cons]

theorem sublist_unlines {f : Text → Text} {ls : List Text} (h : ∀ l ∈ ls, (f l).Sublist l) :
    (unlines (ls.map f)).Sublist (unlines ls) := by
  have hflat (ls : List Text) (h : ∀ l ∈ ls, (f l).Sublist l) :
      ((ls.map f).flatMap ('\n' :: ·)).Sublist (ls.flatMap ('\n' :: ·)) := by
    induction ls with
    | nil => exact List.Sublist.refl _
    | cons l ls ih =>
        simp only [List.map_cons, List.flatMap_cons]
        exact ((h l (by simp)).cons_cons '\n').append (ih fun l hl => h l (by simp [hl]))
  cases ls with
  | nil => exact List.Sublist.refl _
  | cons l ls =>
      rw [List.map_cons, unlines_cons, unlines_cons]
      exact (h l (by simp)).append (hflat ls fun l hl => h l (by simp [hl]))

theorem filter_unlines {p : Char → Bool} (hp : p '\n' = true) (ls : List Text) :
    (unlines ls).filter p = unlines (ls.map (List.filter p)) := by
  cases ls with
  | nil => rfl
  | cons l ls => simp [unlines_cons, List.filter_flatMap, List.flatMap_map, hp]

theorem allBlank_unlines (ls : List Text) :
    allBlank (unlines ls) = true ↔ ∀ l ∈ ls, allBlank l = true := by
  cases ls with
  | nil => simp [unlines, allBlank]
  | cons l ls =>
      simp [unlines_cons, allBlank, isBlank_feed]

end Text

end CodeCatalog
