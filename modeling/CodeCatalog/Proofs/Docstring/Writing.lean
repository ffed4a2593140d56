import CodeCatalog.Docstring.Tag
import CodeCatalog.Proofs.Docstring.Nesting

/-!
# Writing

Types, a parameter and a description are read back from the text that is written for them, with the types
before the parameter or after it.
-/
namespace CodeCatalog

/-! ## White space between the parts -/

namespace Text

variable {t u : Text}

/-- A text with something on it and no white space at its ends. -/
structure Tight (t : Text) : Prop where
  ne_nil : t ≠ []
  head? : ∀ c ∈ t.head?, isBlank c = false
  getLast? : ∀ c ∈ t.getLast?, isBlank c = false

theorem Tight.append (ht : Tight t) (hu : Tight u) (between : Text) : Tight (t ++ (between ++ u)) where
  ne_nil := by simp [ht.ne_nil]
  head? := by
    rw [List.head?_append_of_ne_nil _ ht.ne_nil]
    exact ht.head?
  getLast? := by
    rw [← List.append_assoc, List.getLast?_append_of_ne_nil _ hu.ne_nil]
    exact hu.getLast?

theorem Tight.trimStart_append (ht : Tight t) (rest : Text) : trimStart (t ++ rest) = t ++ rest := by
  apply dropWhile_of_head?
  rw [List.head?_append_of_ne_nil _ ht.ne_nil]
  exact ht.head?

theorem Tight.trimStart_cons_append (ht : Tight t) (rest : Text) :
    trimStart (' ' :: (t ++ rest)) = t ++ rest := by
  rw [trimStart_cons isBlank_space, ht.trimStart_append]

/-- Behind such a text the end alone is trimmed. -/
theorem Tight.trim_append (ht : Tight t) (rest : Text) : trim (t ++ rest) = t ++ rest.trimEnd := by
  rw [trim_eq, ht.trimStart_append]
  exact dropTrailing_append ht.getLast? rest

/-- A description, as it stands behind a blank when the end is trimmed. -/
theorem trimStart_trimEnd_cons (d : Text) : Text.trimStart (trimEnd (' ' :: d)) = d.trim := by
  rw [trimStart_trimEnd, trim_cons isBlank_space]

theorem head?_trimEnd_cons (d : Text) : ∀ c ∈ (trimEnd (' ' :: d)).head?, isBlank c = true := by
  intro c hc
  obtain ⟨t, ht⟩ := List.head?_eq_some_iff.mp hc
  obtain ⟨rest, hrest⟩ : trimEnd (' ' :: d) <+: ' ' :: d := List.rdropWhile_prefix _ _
  rw [ht, List.cons_append] at hrest
  rw [(List.cons.inj hrest).1]
  exact isBlank_space

end Text

namespace Tag

open TypeList (IsEntry written)

variable {ts : List Text} {t word rest name : Text}

/-! ## The parts of a tag -/

/-- A parameter: a text that is read as one word, and not as a list of types. -/
structure IsWord (t : Text) : Prop where
  ne_nil : t ≠ []
  full : ∀ c ∈ t, isBlank c = false
  head?_ne : t.head? ≠ some '['

instance (t : Text) : Decidable (IsWord t) :=
  decidable_of_iff (t ≠ [] ∧ t.all (!isBlank ·) = true ∧ t.head? ≠ some '[')
    ⟨fun ⟨hne, hfull, hhead⟩ => ⟨hne, by simpa using hfull, hhead⟩,
      fun h => ⟨h.ne_nil, by simpa using h.full, h.head?_ne⟩⟩

theorem IsWord.tight (h : IsWord word) : word.Tight where
  ne_nil := h.ne_nil
  head? := fun c hc => h.full c (List.mem_of_head? hc)
  getLast? := fun c hc => h.full c (List.mem_of_getLast? hc)

theorem tight_written (ts : List Text) : (written ts).Tight where
  ne_nil := by simp [written]
  head? := by
    rintro c ⟨⟩
    decide
  getLast? := by
    have hsplit : written ts = '[' :: TypeList.listed ts ++ [']'] := rfl
    rw [hsplit, List.getLast?_concat]
    rintro c ⟨⟩
    decide

theorem takeTypes_written (h : ∀ t ∈ ts, IsEntry t) (rest : Text) :
    takeTypes (written ts ++ rest) = (ts, rest.trimStart) := by
  rw [takeTypes, TypeList.read?_written h, Option.getD_some]

theorem takeTypes_of_head? (h : t.head? ≠ some '[') : takeTypes t = ([], t) := by
  rw [takeTypes]
  cases t with
  | nil => rfl
  | cons c t =>
      have hc : c ≠ '[' := by simpa using h
      simp [TypeList.read?, hc]

/-- A word goes as far as the next white space. -/
theorem firstWord?_append (hword : IsWord word) (hrest : ∀ c ∈ rest.head?, isBlank c = true) :
    firstWord? (word ++ rest) = some (word, rest.trimStart) := by
  obtain ⟨c, t, rfl⟩ := List.exists_cons_of_ne_nil hword.ne_nil
  have hc : c ≠ '[' := by simpa using hword.head?_ne
  have hfull : ∀ d ∈ c :: t, (!isBlank d) = true := by simpa using hword.full
  have hstart := hword.tight.trimStart_append rest
  have hdrop : rest.dropWhile (!isBlank ·) = rest :=
    dropWhile_of_head? fun d hd => by rw [hrest d hd]; rfl
  have htake : rest.takeWhile (!isBlank ·) = [] := by
    have happend := List.takeWhile_append_dropWhile (p := (!isBlank ·)) (l := rest)
    rwa [hdrop, List.append_left_eq_self] at happend
  rw [firstWord?, hstart]
  split
  · next hnil => cases hnil
  · next hbracket => exact absurd (List.cons.inj hbracket).1 hc
  · rw [List.takeWhile_append_of_pos hfull, htake, List.append_nil,
      List.dropWhile_append_of_pos hfull, hdrop]

theorem takeParam_append (hword : IsWord word) (hrest : ∀ c ∈ rest.head?, isBlank c = true) :
    takeParam (word ++ rest) = (some word, rest.trimStart) := by
  rw [takeParam, firstWord?_append hword hrest]

/-! ## Tags -/

theorem read_types (hname : Style.ofName name = .typed) (hts : ∀ t ∈ ts, IsEntry t) (d : Text) :
    read name (written ts ++ ' ' :: d) = ⟨name, d.trim, ts, none⟩ := by
  rw [read, hname]
  simp only [(tight_written ts).trim_append, takeTypes_written hts, Text.trimStart_trimEnd_cons,
    Text.trim_trim]

theorem read_types_param (hname : Style.ofName name = .typedNamed) (hts : ∀ t ∈ ts, IsEntry t)
    (hne : ts ≠ []) (hword : IsWord word) (d : Text) :
    read name (written ts ++ ' ' :: (word ++ ' ' :: d)) = ⟨name, d.trim, ts, some word⟩ := by
  have htrim : Text.trim (written ts ++ ' ' :: (word ++ ' ' :: d)) =
      written ts ++ ' ' :: (word ++ Text.trimEnd (' ' :: d)) := by
    have htight := (tight_written ts).append hword.tight [' ']
    simpa using htight.trim_append (' ' :: d)
  rw [read, hname]
  simp only [htrim, takeTypes_written hts, hword.tight.trimStart_cons_append,
    takeParam_append hword (Text.head?_trimEnd_cons d), Text.trimStart_trimEnd_cons, if_neg hne,
    Text.trim_trim]

/-- No types stand before the parameter, so they are looked for behind it. -/
theorem read_param_types (hname : Style.ofName name = .typedNamed) (hts : ∀ t ∈ ts, IsEntry t)
    (hword : IsWord word) (d : Text) :
    read name (word ++ ' ' :: (written ts ++ ' ' :: d)) = ⟨name, d.trim, ts, some word⟩ := by
  have htrim : Text.trim (word ++ ' ' :: (written ts ++ ' ' :: d)) =
      word ++ ' ' :: (written ts ++ Text.trimEnd (' ' :: d)) := by
    have htight := hword.tight.append (tight_written ts) [' ']
    simpa using htight.trim_append (' ' :: d)
  have hfirst (rest : Text) : (word ++ rest).head? ≠ some '[' := by
    rw [List.head?_append_of_ne_nil _ hword.ne_nil]
    exact hword.head?_ne
  have hblank (rest : Text) : ∀ c ∈ List.head? (' ' :: rest), isBlank c = true := by
    rintro c ⟨⟩
    exact Text.isBlank_space
  rw [read, hname]
  simp only [htrim, takeTypes_of_head? (hfirst _), takeParam_append hword (hblank _), if_true,
    (tight_written ts).trimStart_cons_append, takeTypes_written hts, Text.trimStart_trimEnd_cons,
    Text.trim_trim]

/-- A tag is read back from the text that is written for it: a list of types and a description, or the
two and a parameter before the list or after it, where the tag's style has one. -/
theorem read_written (name d : Text) (hts : ∀ t ∈ ts, IsEntry t) :
    (Style.ofName name = .typed →
      read name (written ts ++ ' ' :: d) = ⟨name, d.trim, ts, none⟩) ∧
    (Style.ofName name = .typedNamed → ts ≠ [] → ∀ word, IsWord word →
      read name (written ts ++ ' ' :: (word ++ ' ' :: d)) = ⟨name, d.trim, ts, some word⟩ ∧
      read name (word ++ ' ' :: (written ts ++ ' ' :: d)) = ⟨name, d.trim, ts, some word⟩) :=
  ⟨fun hname => read_types hname hts d, fun hname hne _ hword =>
    ⟨read_types_param hname hts hne hword d, read_param_types hname hts hword d⟩⟩

/-- A type with a comma in brackets that close each other across kinds, one that starts and ends with the
halves of arrows, and a description that starts with a bracket. -/
theorem read_written_of_arrows :
    ∃ ts : List Text, ts = ["Map\x7bA => (B, C>\x7d".toList, "=>a=".toList] ∧
      (∀ t ∈ ts, IsEntry t) ∧ Style.ofName "return".toList = .typed ∧
      Style.ofName "param".toList = .typedNamed ∧ ts ≠ [] ∧ IsWord "key]".toList ∧
      read "return".toList (written ts ++ ' ' :: "[x] y\r".toList) =
        ⟨"return".toList, "[x] y".toList, ts, none⟩ ∧
      read "param".toList (written ts ++ ' ' :: ("key]".toList ++ ' ' :: "[x] y\r".toList)) =
        ⟨"param".toList, "[x] y".toList, ts, some "key]".toList⟩ ∧
      read "param".toList ("key]".toList ++ ' ' :: (written ts ++ ' ' :: "[x] y\r".toList)) =
        ⟨"param".toList, "[x] y".toList, ts, some "key]".toList⟩ := by
  refine ⟨_, rfl, ?_⟩
  have hts : ∀ t ∈ ["Map\x7bA => (B, C>\x7d".toList, "=>a=".toList], IsEntry t :=
    List.forall_mem_cons.mpr ⟨by decide, List.forall_mem_singleton.mpr (by decide)⟩
  have hword : IsWord "key]".toList := by decide
  have hparam := (read_written "param".toList "[x] y\r".toList hts).2 rfl (by simp) _ hword
  exact ⟨hts, rfl, rfl, by simp, hword, (read_written "return".toList "[x] y\r".toList hts).1 rfl,
    hparam.1, hparam.2⟩

end Tag

end CodeCatalog
