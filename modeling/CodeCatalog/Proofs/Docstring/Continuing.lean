import CodeCatalog.Proofs.Docstring.Grouping

/-!
# Continuing

A line below a line of a tag goes on with that tag exactly if it is indented, has something on it, and
does not itself have the form of a line that opens a tag.
-/
namespace CodeCatalog

/-- A tag with more lines below its own. -/
def TagBlock.extend (b : TagBlock) (ls : List Text) : TagBlock :=
  { b with lines := b.lines ++ ls }

namespace TagBlock

@[simp] theorem name_extend (b : TagBlock) (ls : List Text) : (b.extend ls).name = b.name := rfl

@[simp] theorem extend_nil (b : TagBlock) : b.extend [] = b := by
  simp [extend]

theorem text_extend {b : TagBlock} (h : b.lines ≠ []) (ls : List Text) :
    (b.extend ls).text = b.text ++ ls.flatMap ('\n' :: ·) := by
  obtain ⟨l, rest, hb⟩ := List.exists_cons_of_ne_nil h
  simp [text, extend, hb, Text.unlines_cons]

end TagBlock

namespace Outline

variable {ls : List Text}

/-! ## The tag that is open -/

/-- Whether the last line opens a tag or continues one. -/
def endsInTag (ls : List Text) : Bool :=
  opensTag ls (ls.length - 1) || continuesTag ls (ls.length - 1)

/-- Whether a tag is open below some lines, where one is open above them or is not. -/
def openBelow (tagged : Bool) (ls : List Text) : Bool :=
  ls.foldl (fun tagged l => (tagLine? l).isSome || mayContinue l && tagged) tagged

@[simp] theorem openBelow_cons (tagged : Bool) (l : Text) (ls : List Text) :
    openBelow tagged (l :: ls) = openBelow ((tagLine? l).isSome || mayContinue l && tagged) ls := rfl

theorem openBelow_eq (tagged : Bool) (hne : ls ≠ []) :
    openBelow tagged ls =
      (opensTag ls (ls.length - 1) || continuesBelow tagged ls (ls.length - 1)) := by
  induction ls generalizing tagged with
  | nil => exact absurd rfl hne
  | cons l ls ih =>
      cases ls with
      | nil => rfl
      | cons l' ls =>
          rw [openBelow_cons, ih _ (by simp)]
          simp only [List.length_cons, Nat.add_sub_cancel, opensTag_cons_succ,
            continuesBelow_cons_succ]

theorem openBelow_of_endsInTag (h : endsInTag ls = true) : openBelow false ls = true := by
  cases ls with
  | nil => cases h
  | cons l ls =>
      rw [openBelow_eq false (by simp), continuesBelow_false]
      exact h

/-- A tag that is open below some lines was open above them, or is opened by one of them. -/
theorem mayContinue_or_openBelow (h : openBelow true ls = true) :
    (∀ l ∈ ls, mayContinue l = true) ∨ openBelow false ls = true := by
  induction ls with
  | nil => exact Or.inl (by simp)
  | cons l ls ih =>
      rw [openBelow_cons] at h ⊢
      cases htag : tagLine? l with
      | some tag => exact Or.inr (by simpa [htag] using h)
      | none =>
          cases hmay : mayContinue l with
          | false => exact Or.inr (by simpa [htag, hmay] using h)
          | true => simpa [htag, hmay] using ih (by simpa [htag, hmay] using h)

/-! ## Lines below lines -/

theorem addAbove_of_tagLine {l name rest : Text} (h : tagLine? l = some (name, rest)) (o : Outline) :
    addAbove l o = ⟨[], o.body, ⟨name, rest :: o.pending.map Text.trimStart⟩ :: o.tags⟩ := by
  rw [addAbove, h]

theorem addAbove_of_mayContinue {l : Text} (h : mayContinue l = true) (o : Outline) :
    addAbove l o = ⟨l :: o.pending, o.body, o.tags⟩ := by
  rw [mayContinue, Bool.and_eq_true, Option.isNone_iff_eq_none] at h
  simp [addAbove, h]

theorem addAbove_of_prose {l : Text} (htag : tagLine? l = none) (h : mayContinue l = false)
    (o : Outline) : addAbove l o = ⟨[], l :: o.prose, o.tags⟩ := by
  have hindent : isIndented l = false := by simpa [mayContinue, htag] using h
  simp [addAbove, htag, hindent, prose]

theorem ofLines_append_of_mayContinue (h : ∀ l ∈ ls, mayContinue l = true) (ms : List Text) :
    ofLines (ls ++ ms) = { ofLines ms with pending := ls ++ (ofLines ms).pending } := by
  induction ls with
  | nil => rfl
  | cons l ls ih =>
      rw [List.cons_append, ofLines_cons, ih fun l hl => h l (by simp [hl])]
      exact addAbove_of_mayContinue (h l (by simp)) _

/-- Below lines that end in a tag, the lines at the very start that may continue a tag go to that tag,
and all others stay as they are. -/
theorem ofLines_append_of_open (h : openBelow false ls = true) :
    ∃ earlier b, (ofLines ls).tags = earlier ++ [b] ∧
      ∀ ms, (ofLines (ls ++ ms)).pending = (ofLines ls).pending ∧
        (ofLines (ls ++ ms)).body = (ofLines ls).body ++ (ofLines ms).body ∧
        (ofLines (ls ++ ms)).tags =
          earlier ++ b.extend ((ofLines ms).pending.map Text.trimStart) :: (ofLines ms).tags := by
  induction ls with
  | nil => cases h
  | cons l ls ih =>
      rw [openBelow_cons] at h
      simp only [List.cons_append, ofLines_cons]
      cases htag : tagLine? l with
      | some tag =>
          obtain ⟨name, rest⟩ := tag
          rw [htag, Option.isSome_some, Bool.true_or] at h
          simp only [addAbove_of_tagLine htag]
          obtain hall | hopen := mayContinue_or_openBelow h
          · -- the line itself opens the tag, and all lines below it continue it
            have happend := ofLines_append_of_mayContinue hall
            have hls : ofLines ls = ⟨ls, [], []⟩ := by simpa using happend []
            refine ⟨[], ⟨name, rest :: ls.map Text.trimStart⟩, by rw [hls]; rfl, ?_⟩
            intro ms
            simp [happend, hls, TagBlock.extend]
          · obtain ⟨earlier, b, htags, happend⟩ := ih hopen
            refine ⟨⟨name, rest :: (ofLines ls).pending.map Text.trimStart⟩ :: earlier, b,
              by rw [htags]; rfl, fun ms => ?_⟩
            obtain ⟨hpending, hbody, htags'⟩ := happend ms
            simp [hpending, hbody, htags']
      | none =>
          rw [htag, Option.isSome_none, Bool.false_or, Bool.and_false] at h
          obtain ⟨earlier, b, htags, happend⟩ := ih h
          cases hmay : mayContinue l with
          | true =>
              simp only [addAbove_of_mayContinue hmay]
              refine ⟨earlier, b, htags, fun ms => ?_⟩
              obtain ⟨hpending, hbody, htags'⟩ := happend ms
              simp [hpending, hbody, htags']
          | false =>
              simp only [addAbove_of_prose htag hmay]
              refine ⟨earlier, b, htags, fun ms => ?_⟩
              obtain ⟨hpending, hbody, htags'⟩ := happend ms
              simp [prose, hpending, hbody, htags']

/-- A tag has at least the line that opens it. -/
theorem lines_ne_nil {b : TagBlock} (hb : b ∈ (ofLines ls).tags) : b.lines ≠ [] := by
  obtain ⟨line, -, name, rest, below, -, -, rfl⟩ := exists_of_mem_tags hb
  simp

theorem isIndented_trimEnd (line : Text) :
    isIndented line.trimEnd = (!line.allBlank && isIndented line) := by
  cases hblank : line.allBlank with
  | true => rw [Text.trimEnd_eq_nil_iff.mpr hblank]; rfl
  | false =>
      have hne : line.trimEnd ≠ [] := fun h => by
        rw [Text.trimEnd_eq_nil_iff, hblank] at h
        cases h
      obtain ⟨c, t, ht⟩ := List.exists_cons_of_ne_nil hne
      obtain ⟨rest, hrest⟩ : line.trimEnd <+: line := List.rdropWhile_prefix _ _
      rw [ht, List.cons_append] at hrest
      rw [ht, ← hrest]
      rfl

theorem mayContinue_trimEnd_iff (line : Text) :
    mayContinue line.trimEnd = true ↔
      line.allBlank = false ∧ isIndented line = true ∧ tagLine? line.trimEnd = none := by
  rw [mayContinue, isIndented_trimEnd]
  simp only [Bool.and_eq_true, Option.isNone_iff_eq_none, Bool.not_eq_true']
  tauto

end Outline

namespace Docstring

/-- The outline of a document, from which it is read. -/
def outline (raw : Text) : Outline :=
  .ofLines (raw.lines.map Text.trimEnd)

theorem tags_read_eq (raw : Text) :
    (read raw).tags = (outline raw).tags.map fun b => Tag.read b.name b.text := rfl

theorem body_read_eq (raw : Text) :
    (read raw).body = Text.unlines (strip List.isEmpty (outline raw).prose) := rfl

theorem outline_append (above below : Text) :
    outline (above ++ '\n' :: below) =
      .ofLines (above.lines.map Text.trimEnd ++ below.lines.map Text.trimEnd) := by
  rw [outline, Text.lines_append_cons, List.map_append]

theorem outline_line {line : Text} (hline : '\n' ∉ line) :
    outline line = Outline.addAbove line.trimEnd {} := by
  rw [outline, Text.lines_of_not_mem hline]
  rfl

theorem outline_cons {line : Text} (hline : '\n' ∉ line) (below : Text) :
    outline (line ++ '\n' :: below) = Outline.addAbove line.trimEnd (outline below) := by
  rw [outline_append, Text.lines_of_not_mem hline]
  rfl

/-- Whether the last line of a text is one that opens a tag or continues one. -/
def endsInTag (raw : Text) : Bool :=
  Outline.endsInTag (raw.lines.map Text.trimEnd)

/-- Below a text that ends in a tag, the lines at the very start that may continue a tag go to that tag. -/
theorem outline_append_of_endsInTag {above : Text} (h : endsInTag above = true) :
    ∃ earlier b, (outline above).tags = earlier ++ [b] ∧
      ∀ below : Text,
        (outline (above ++ '\n' :: below)).prose = (outline above).prose ++ (outline below).body ∧
        (outline (above ++ '\n' :: below)).tags =
          earlier ++ b.extend ((outline below).pending.map Text.trimStart) ::
            (outline below).tags := by
  obtain ⟨earlier, b, htags, happend⟩ :=
    Outline.ofLines_append_of_open (Outline.openBelow_of_endsInTag h)
  refine ⟨earlier, b, htags, fun below => ?_⟩
  obtain ⟨hpending, hbody, htags'⟩ := happend (below.lines.map Text.trimEnd)
  rw [outline_append]
  refine ⟨?_, htags'⟩
  rw [Outline.prose, hpending, hbody, ← List.append_assoc]
  rfl

/-- A line below a text is appended to the last tag of it: that tag has one line more, and nothing else
is read otherwise. Lines further below may add to that tag, and to what comes after it. -/
def Appends (above line : Text) : Prop :=
  ∃ earlier b, (outline above).tags = earlier ++ [b] ∧
    (outline (above ++ '\n' :: line)).tags = earlier ++ [b.extend [line.trim]] ∧
    (outline (above ++ '\n' :: line)).prose = (outline above).prose ∧
    ∀ below : Text, ∃ more later, (outline (above ++ '\n' :: (line ++ '\n' :: below))).tags =
      earlier ++ b.extend (line.trim :: more) :: later

theorem appends_iff_mayContinue {above line : Text} (hline : '\n' ∉ line)
    (habove : endsInTag above = true) :
    Appends above line ↔ Outline.mayContinue line.trimEnd = true := by
  obtain ⟨earlier, b, htags, happend⟩ := outline_append_of_endsInTag habove
  obtain ⟨hprose, htags'⟩ := happend line
  constructor
  · rintro ⟨earlier', b', habove', hline', -⟩
    by_contra hmay
    have hnone : (outline line).pending = [] := by
      rw [outline, Text.lines_of_not_mem hline, List.map_singleton, Outline.pending_ofLines,
        List.takeWhile_cons, if_neg hmay]
    -- without pending lines the last tag of the text above stays as it is
    obtain ⟨rfl, hb⟩ := List.append_inj' (htags.symm.trans habove') rfl
    obtain rfl : b = b' := by simpa using hb
    rw [htags', hnone, List.map_nil, TagBlock.extend_nil] at hline'
    have hlines := congrArg TagBlock.lines (List.cons.inj (List.append_cancel_left hline')).1
    simp [TagBlock.extend] at hlines
  · intro hmay
    have hadd := Outline.addAbove_of_mayContinue hmay
    rw [outline_line hline, hadd] at hprose htags'
    refine ⟨earlier, b, htags, ?_, ?_, fun below => ?_⟩
    · rw [htags', List.map_singleton, Text.trimStart_trimEnd]
    · rw [hprose, List.append_nil]
    · refine ⟨(outline below).pending.map Text.trimStart, (outline below).tags, ?_⟩
      rw [(happend _).2, outline_cons hline, hadd, List.map_cons, Text.trimStart_trimEnd]

/-- A line that itself opens a tag ends the tag above it. -/
theorem tags_of_tagLine {above line name rest : Text} (hline : '\n' ∉ line)
    (habove : endsInTag above = true) (htag : Outline.tagLine? line.trimEnd = some (name, rest)) :
    (read (above ++ '\n' :: line)).tags = (read above).tags ++ [Tag.read name rest] := by
  obtain ⟨earlier, b, htags, happend⟩ := outline_append_of_endsInTag habove
  rw [tags_read_eq, tags_read_eq, (happend line).2, outline_line hline,
    Outline.addAbove_of_tagLine htag, htags]
  simp [TagBlock.text, Text.unlines]

/-- What is read of a text to which a line is appended. -/
theorem Appends.read {above line : Text} (h : Appends above line) :
    ∃ earlier name text, (read above).tags = earlier ++ [Tag.read name text] ∧
      (read (above ++ '\n' :: line)).tags =
        earlier ++ [Tag.read name (text ++ '\n' :: line.trim)] ∧
      (read (above ++ '\n' :: line)).body = (read above).body ∧
      ∀ below, ∃ more later, (read (above ++ '\n' :: (line ++ '\n' :: below))).tags =
        earlier ++ Tag.read name (text ++ '\n' :: (line.trim ++ more)) :: later := by
  obtain ⟨earlier, b, habove, hline, hprose, hbelow⟩ := h
  have hne : b.lines ≠ [] := Outline.lines_ne_nil (show b ∈ (outline above).tags by simp [habove])
  refine ⟨earlier.map fun b => Tag.read b.name b.text, b.name, b.text, ?_, ?_, ?_, fun below => ?_⟩
  · rw [tags_read_eq, habove, List.map_append, List.map_singleton]
  · rw [tags_read_eq, hline, List.map_append, List.map_singleton, TagBlock.name_extend,
      TagBlock.text_extend hne, List.flatMap_singleton]
  · rw [body_read_eq, hprose, body_read_eq]
  · obtain ⟨more, later, htags⟩ := hbelow below
    refine ⟨more.flatMap ('\n' :: ·), later.map fun b => Tag.read b.name b.text, ?_⟩
    rw [tags_read_eq, htags, List.map_append, List.map_cons, TagBlock.name_extend,
      TagBlock.text_extend hne, List.flatMap_cons, List.cons_append]

/-- Below a line of a tag, a line is appended to that tag exactly if it has something on it, is indented
and does not read as a line that opens a tag. So only a blank line, one that is not indented, one that
opens a tag and the end of the text end a tag. -/
theorem appends_iff_indented (above line : Text) (hline : '\n' ∉ line)
    (habove : endsInTag above = true) :
    (Appends above line ↔
      line.allBlank = false ∧ Outline.isIndented line = true ∧
        Outline.tagLine? line.trimEnd = none) ∧
    (Appends above line → ∃ earlier name text, (read above).tags = earlier ++ [Tag.read name text] ∧
      (read (above ++ '\n' :: line)).tags =
        earlier ++ [Tag.read name (text ++ '\n' :: line.trim)] ∧
      (read (above ++ '\n' :: line)).body = (read above).body ∧
      ∀ below, ∃ more later, (read (above ++ '\n' :: (line ++ '\n' :: below))).tags =
        earlier ++ Tag.read name (text ++ '\n' :: (line.trim ++ more)) :: later) ∧
    ∀ name rest, Outline.tagLine? line.trimEnd = some (name, rest) →
      (read (above ++ '\n' :: line)).tags = (read above).tags ++ [Tag.read name rest] :=
  ⟨(appends_iff_mayContinue hline habove).trans (Outline.mayContinue_trimEnd_iff line),
    Appends.read, fun _ _ htag => tags_of_tagLine hline habove htag⟩

/-- Lines that end in a carriage return, the second indented by a tab. -/
theorem appends_of_lines_with_returns :
    '\n' ∉ "\tgreet @user\r".toList ∧ endsInTag "Greets.\n@example Greeting\r".toList = true ∧
      Appends "Greets.\n@example Greeting\r".toList "\tgreet @user\r".toList :=
  ⟨by decide, by decide,
    (appends_iff_indented _ _ (by decide) (by decide)).1.mpr ⟨by decide, by decide, by decide⟩⟩

/-- Indented code that starts with an at sign ends the tag above it. -/
theorem not_appends_of_indented_tagLine :
    ¬ ∀ above line : Text, '\n' ∉ line → endsInTag above = true → line.allBlank = false →
      Outline.isIndented line = true → Appends above line := by
  intro h
  have happends := h "@example Greeting a user".toList "  @user = User.new".toList
    (by decide) (by decide) (by decide) (by decide)
  rw [appends_iff_mayContinue (by decide) (by decide)] at happends
  exact absurd happends (by decide)

end Docstring

end CodeCatalog
