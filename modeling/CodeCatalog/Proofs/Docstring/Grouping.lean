import Mathlib.Data.List.Basic
import Mathlib.Data.List.TakeWhile
import CodeCatalog.Proofs.Docstring.Outline

/-!
# Grouping

What is read of a document, said of its lines by their positions: which lines open a tag, which
continue one, and that all others are prose.
-/
namespace CodeCatalog

/-! ## Lines -/

namespace Text

/-- The lines of a text, where a line feed ends a line and none stands behind the last one. A carriage
return before it is left at the end of its line, as white space. -/
def closedLines (t : Text) : List Text :=
  if t.lines.getLast? = some [] then t.lines.dropLast else t.lines

end Text

namespace Outline

/-! ## Positions -/

/-- Whether a line goes to a tag if the line above it does. -/
def mayContinue (line : Text) : Bool :=
  (tagLine? line).isNone && isIndented line

variable (ls : List Text)

def opensTag (i : Nat) : Bool :=
  ls[i]?.any fun line => (tagLine? line).isSome

/-- A line continues a tag if it may, and the line just above it opens a tag or continues one. -/
def continuesTag : Nat → Bool
  | 0 => false
  | i + 1 => ls[i + 1]?.any mayContinue && (opensTag ls i || continuesTag i)

def tagPositions : List Nat :=
  (List.range ls.length).filter (opensTag ls)

def prosePositions : List Nat :=
  (List.range ls.length).filter fun i => !opensTag ls i && !continuesTag ls i

/-- The lines that continue the tag opened by a line. -/
def continuations (i : Nat) : List Nat :=
  (List.range' (i + 1) (ls.length - (i + 1))).takeWhile (continuesTag ls)

/-- The name and the text of the tag that a line opens: what follows the name, and then the lines that
continue the tag, without the white space before them. -/
def tagAt? (i : Nat) : Option (Text × Text) :=
  (tagLine? (ls.getD i [])).map fun (name, rest) =>
    (name, rest ++ (continuations ls i).flatMap fun j => '\n' :: Text.trimStart (ls.getD j []))

variable {ls}

/-! ## Continuations -/

/-- The lines right below a line that may all continue what that line opens or continues. -/
def runBelow (ls : List Text) (i : Nat) : List Text :=
  (ls.drop (i + 1)).takeWhile mayContinue

@[simp] theorem runBelow_cons_zero (l : Text) (ls : List Text) :
    runBelow (l :: ls) 0 = ls.takeWhile mayContinue := rfl

@[simp] theorem runBelow_cons_succ (l : Text) (ls : List Text) (i : Nat) :
    runBelow (l :: ls) (i + 1) = runBelow ls i := rfl

/-- Below a line of a tag, the lines that may continue it do, up to the first that may not. -/
theorem continuations_eq (i : Nat) (h : (opensTag ls i || continuesTag ls i) = true) :
    continuations ls i = List.range' (i + 1) (runBelow ls i).length := by
  by_cases hi : i + 1 < ls.length
  · have hnext : continuesTag ls (i + 1) = mayContinue ls[i + 1] := by
      rw [continuesTag, h, Bool.and_true, List.getElem?_eq_getElem hi, Option.any_some]
    have hlen : ls.length - (i + 1) = ls.length - (i + 1 + 1) + 1 := by omega
    rw [continuations, runBelow, hlen, List.range'_succ, List.takeWhile_cons, hnext,
      List.drop_eq_getElem_cons hi, List.takeWhile_cons]
    cases hmay : mayContinue ls[i + 1] with
    | false => rfl
    | true =>
        have hbelow := continuations_eq (i + 1) (by rw [hnext, hmay, Bool.or_true])
        rw [continuations, runBelow] at hbelow
        simp only [if_true, hbelow, List.length_cons, List.range'_succ]
  · have hlen : ls.length - (i + 1) = 0 := by omega
    rw [continuations, runBelow, hlen, List.drop_eq_nil_of_le (by omega)]
    rfl
termination_by ls.length - i

/-! ## Lines below a line -/

/-- Whether a line continues a tag, where the line above all of them is one of a tag's or is not. -/
def continuesBelow (tagged : Bool) (ls : List Text) : Nat → Bool
  | 0 => ls[0]?.any mayContinue && tagged
  | i + 1 => ls[i + 1]?.any mayContinue && (opensTag ls i || continuesBelow tagged ls i)

def proseBelow (tagged : Bool) (ls : List Text) : List Nat :=
  (List.range ls.length).filter fun i => !opensTag ls i && !continuesBelow tagged ls i

theorem continuesBelow_false (ls : List Text) (i : Nat) :
    continuesBelow false ls i = continuesTag ls i := by
  induction i with
  | zero => simp [continuesBelow, continuesTag]
  | succ i ih => rw [continuesBelow, continuesTag, ih]

theorem proseBelow_false (ls : List Text) : proseBelow false ls = prosePositions ls := by
  simp only [proseBelow, prosePositions, continuesBelow_false]

@[simp] theorem opensTag_cons_zero (l : Text) (ls : List Text) :
    opensTag (l :: ls) 0 = (tagLine? l).isSome := rfl

@[simp] theorem opensTag_cons_succ (l : Text) (ls : List Text) (i : Nat) :
    opensTag (l :: ls) (i + 1) = opensTag ls i := rfl

@[simp] theorem continuesBelow_cons_zero (tagged : Bool) (l : Text) (ls : List Text) :
    continuesBelow tagged (l :: ls) 0 = (mayContinue l && tagged) := rfl

/-- All that counts of the line above is whether it is one of a tag's. -/
@[simp] theorem continuesBelow_cons_succ (tagged : Bool) (l : Text) (ls : List Text) (i : Nat) :
    continuesBelow tagged (l :: ls) (i + 1) =
      continuesBelow ((tagLine? l).isSome || mayContinue l && tagged) ls i := by
  induction i with
  | zero => rfl
  | succ i ih =>
      rw [continuesBelow, ih]
      rfl

theorem filter_range_succ (p : Nat → Bool) (n : Nat) :
    (List.range (n + 1)).filter p =
      (if p 0 then [0] else []) ++ ((List.range n).filter fun i => p (i + 1)).map (· + 1) := by
  rw [List.range_succ_eq_map, List.filter_cons, List.filter_map]
  cases p 0 <;> rfl

theorem tagPositions_cons (l : Text) (ls : List Text) :
    tagPositions (l :: ls) =
      (if (tagLine? l).isSome then [0] else []) ++ (tagPositions ls).map (· + 1) :=
  filter_range_succ _ ls.length

theorem proseBelow_cons (tagged : Bool) (l : Text) (ls : List Text) :
    proseBelow tagged (l :: ls) =
      (if !(tagLine? l).isSome && !(mayContinue l && tagged) then [0] else []) ++
        (proseBelow ((tagLine? l).isSome || mayContinue l && tagged) ls).map (· + 1) := by
  rw [proseBelow, List.length_cons, filter_range_succ]
  simp only [opensTag_cons_zero, opensTag_cons_succ, continuesBelow_cons_zero,
    continuesBelow_cons_succ]
  rfl

/-! ## What is read -/

/-- What adding a line above does to prose and pending lines goes by whether the line opens a tag, and
else by whether it may continue one. -/
theorem addAbove_cases (l : Text) (o : Outline) :
    (∃ name rest, tagLine? l = some (name, rest) ∧ mayContinue l = false ∧
      addAbove l o = ⟨[], o.body, ⟨name, rest :: o.pending.map Text.trimStart⟩ :: o.tags⟩) ∨
    (tagLine? l = none ∧ mayContinue l = true ∧ addAbove l o = ⟨l :: o.pending, o.body, o.tags⟩) ∨
    (tagLine? l = none ∧ mayContinue l = false ∧ addAbove l o = ⟨[], l :: o.prose, o.tags⟩) := by
  rw [addAbove]
  cases htag : tagLine? l with
  | some tag => exact Or.inl ⟨tag.1, tag.2, rfl, by simp [mayContinue, htag], rfl⟩
  | none =>
      cases hindent : isIndented l with
      | true => exact Or.inr (Or.inl ⟨rfl, by simp [mayContinue, htag, hindent], rfl⟩)
      | false => exact Or.inr (Or.inr ⟨rfl, by simp [mayContinue, hindent], rfl⟩)

theorem pending_ofLines (ls : List Text) : (ofLines ls).pending = ls.takeWhile mayContinue := by
  induction ls with
  | nil => rfl
  | cons l ls ih =>
      rw [ofLines_cons, List.takeWhile_cons]
      obtain ⟨name, rest, -, hmay, h⟩ | ⟨-, hmay, h⟩ | ⟨-, hmay, h⟩ := addAbove_cases l (ofLines ls)
      · rw [h, hmay]; rfl
      · rw [h, hmay, ih]; rfl
      · rw [h, hmay]; rfl

theorem map_proseBelow (tagged : Bool) (ls : List Text) :
    (proseBelow tagged ls).map (ls.getD · []) =
      if tagged then (ofLines ls).body else (ofLines ls).prose := by
  -- for both cases of the line above, as each case of one line is either case of the next
  induction ls generalizing tagged with
  | nil => cases tagged <;> rfl
  | cons l ls ih =>
      rw [ofLines_cons, proseBelow_cons]
      simp only [List.map_append, List.map_map, Function.comp_def, List.getD_cons_succ, ih]
      obtain ⟨name, rest, htag, hmay, h⟩ | ⟨htag, hmay, h⟩ | ⟨htag, hmay, h⟩ :=
        addAbove_cases l (ofLines ls)
      · cases tagged <;> simp [htag, h, prose]
      · cases tagged <;> simp [htag, hmay, h, prose]
      · cases tagged <;> simp [htag, hmay, h, prose]

theorem tags_ofLines (ls : List Text) :
    (ofLines ls).tags.map some = (tagPositions ls).map fun i =>
      (tagLine? (ls.getD i [])).map fun (name, rest) =>
        ⟨name, rest :: (runBelow ls i).map Text.trimStart⟩ := by
  induction ls with
  | nil => rfl
  | cons l ls ih =>
      rw [ofLines_cons, tagPositions_cons]
      simp only [List.map_append, List.map_map, Function.comp_def, List.getD_cons_succ,
        runBelow_cons_succ, ← ih]
      obtain ⟨name, rest, htag, -, h⟩ | ⟨htag, -, h⟩ | ⟨htag, -, h⟩ := addAbove_cases l (ofLines ls)
      · simp [htag, h, pending_ofLines]
      · simp [htag, h]
      · simp [htag, h]

/-- A tag has a line that opens it, and lines that may continue it. -/
theorem exists_of_mem_tags {b : TagBlock} (hb : b ∈ (ofLines ls).tags) :
    ∃ line ∈ ls, ∃ (name rest : Text) (below : List Text), tagLine? line = some (name, rest) ∧
      (∀ l ∈ below, l ∈ ls ∧ mayContinue l = true) ∧
        b = ⟨name, rest :: below.map Text.trimStart⟩ := by
  have hmem : some b ∈ (ofLines ls).tags.map some := List.mem_map_of_mem hb
  rw [tags_ofLines] at hmem
  obtain ⟨i, hi, htag⟩ := List.mem_map.mp hmem
  obtain ⟨⟨name, rest⟩, hline, rfl⟩ := Option.map_eq_some_iff.mp htag
  have hlt : i < ls.length := List.mem_range.mp (List.mem_filter.mp hi).1
  refine ⟨ls.getD i [], ?_, name, rest, runBelow ls i, hline, fun l hl => ⟨?_, ?_⟩, rfl⟩
  · rw [List.getD_eq_getElem?_getD, List.getElem?_eq_getElem hlt, Option.getD_some]
    exact List.getElem_mem hlt
  · exact List.mem_of_mem_drop ((List.takeWhile_prefix _).mem hl)
  · exact List.mem_takeWhile_imp hl

/-- The lines at the very start that may continue a tag do so if the line above them is one of a
tag's. All others are prose, or go to the tag that is opened last above them. -/
theorem proseBelow_perm (tagged : Bool) (ls : List Text) :
    (proseBelow tagged ls ++
        ((if tagged then List.range' 0 (ls.takeWhile mayContinue).length else []) ++
          (tagPositions ls).flatMap fun i =>
            List.range' i ((runBelow ls i).length + 1))).Perm
      (List.range' 0 ls.length) := by
  induction ls generalizing tagged with
  | nil => cases tagged <;> exact List.Perm.nil
  | cons l ls ih =>
      have hbelow (t : Bool) :
          ((proseBelow t ls).map (· + 1) ++
            ((if t then List.range' 1 (ls.takeWhile mayContinue).length else []) ++
              (tagPositions ls).flatMap fun i =>
                List.range' (i + 1) ((runBelow ls i).length + 1))).Perm
            (List.range' 1 ls.length) := by
        have h := (ih t).map (· + 1)
        cases t <;> simpa [List.map_flatMap, ← List.range'_succ_left] using h
      have hall : List.range' 0 (ls.length + 1) = 0 :: List.range' 1 ls.length := List.range'_succ
      rw [proseBelow_cons, tagPositions_cons, List.length_cons, hall]
      simp only [List.flatMap_append, List.flatMap_map, runBelow_cons_succ]
      obtain ⟨name, rest, htag, hmay, -⟩ | ⟨htag, hmay, -⟩ | ⟨htag, hmay, -⟩ :=
        addAbove_cases l (ofLines ls)
      · apply List.Perm.trans ?_ ((hbelow true).cons 0)
        simp [htag, hmay, List.range'_succ]
      · cases tagged with
        | true =>
            apply List.Perm.trans ?_ ((hbelow true).cons 0)
            simp [htag, hmay, List.range'_succ]
        | false =>
            apply List.Perm.trans ?_ ((hbelow false).cons 0)
            simp [htag, hmay]
      · apply List.Perm.trans ?_ ((hbelow false).cons 0)
        simp [htag, hmay]

/-- No line is lost, and none is at two places. -/
theorem positions_perm (ls : List Text) :
    (prosePositions ls ++ (tagPositions ls).flatMap fun i => i :: continuations ls i).Perm
      (List.range ls.length) := by
  have hblocks : (tagPositions ls).flatMap (fun i => i :: continuations ls i) =
      (tagPositions ls).flatMap fun i =>
        List.range' i ((runBelow ls i).length + 1) := by
    refine List.flatMap_congr fun i hi => ?_
    have hopens := (List.mem_filter.mp hi).2
    rw [continuations_eq i (by rw [hopens, Bool.true_or]), List.range'_succ]
  rw [hblocks, ← proseBelow_false, List.range_eq_range']
  exact proseBelow_perm false ls

theorem prosePositions_sorted (ls : List Text) : (prosePositions ls).Pairwise (· < ·) :=
  List.pairwise_lt_range.filter _

theorem continuations_sorted (ls : List Text) (i : Nat) :
    (i :: continuations ls i).Pairwise (· < ·) := by
  have hsub : (i :: continuations ls i).Sublist (List.range' i (ls.length - (i + 1) + 1)) := by
    rw [List.range'_succ]
    exact (List.takeWhile_sublist _).cons_cons i
  exact List.Pairwise.sublist hsub List.pairwise_lt_range'

theorem map_getD_run (ls : List Text) (i : Nat) :
    (List.range' (i + 1) (runBelow ls i).length).map (ls.getD · []) = runBelow ls i := by
  have hrun : runBelow ls i <+: ls.drop (i + 1) := List.takeWhile_prefix _
  have hle := hrun.length_le
  rw [List.length_drop] at hle
  apply List.ext_getElem
  · rw [List.length_map, List.length_range']
  · intro k _ hk
    have hlt : i + 1 + k < ls.length := by omega
    rw [hrun.getElem hk]
    simp [hlt]

theorem tagAt?_eq {i : Nat} (h : opensTag ls i = true) :
    tagAt? ls i = (tagLine? (ls.getD i [])).map fun (name, rest) =>
      (name, Text.unlines (rest :: (runBelow ls i).map Text.trimStart)) := by
  rw [tagAt?, continuations_eq i (by rw [h, Bool.true_or])]
  cases tagLine? (ls.getD i []) with
  | none => rfl
  | some tag =>
      simp only [Option.map_some, Text.unlines_cons, List.flatMap_map]
      rw [← map_getD_run, List.flatMap_map, List.length_map, List.length_range']

/-- An empty line ends the tag above it, so the lines above and below are read by themselves. -/
theorem ofLines_append_nil_cons (ls ms : List Text) :
    ofLines (ls ++ [] :: ms) =
      ⟨(ofLines ls).pending, (ofLines ls).body ++ [] :: (ofLines ms).prose,
        (ofLines ls).tags ++ (ofLines ms).tags⟩ := by
  induction ls with
  | nil => rfl
  | cons l ls ih =>
      rw [List.cons_append, ofLines_cons, ofLines_cons, ih]
      unfold addAbove
      cases tagLine? l with
      | some tag => rfl
      | none => cases isIndented l <;> simp

/-- An empty line at the end is prose. -/
theorem ofLines_concat_nil (ls : List Text) :
    ofLines (ls ++ [[]]) = { ofLines ls with body := (ofLines ls).body ++ [[]] } := by
  rw [ofLines_append_nil_cons, ofLines_nil, List.append_nil]
  rfl

theorem tagLine?_eq_some_iff {line name rest : Text} :
    tagLine? line = some (name, rest) ↔
      ∃ indent after : Text, line = indent ++ '@' :: (name ++ after) ∧ indent.allBlank = true ∧
        name ≠ [] ∧ (∀ c ∈ name, isNameChar c = true) ∧
        (∀ c ∈ after.head?, isNameChar c = false ∧ isBlank c = true) ∧ rest = after.trimStart := by
  constructor
  · intro h
    rw [tagLine?] at h
    split at h
    · next t ht =>
        simp only [Option.ite_none_right_eq_some, Option.some.injEq, Prod.mk.injEq] at h
        obtain ⟨⟨hne, hhead⟩, rfl, rfl⟩ := h
        refine ⟨line.takeWhile isBlank, t.dropWhile isNameChar, ?_, ?_, hne, ?_, ?_, rfl⟩
        · rw [List.takeWhile_append_dropWhile, ← ht]
          exact List.takeWhile_append_dropWhile.symm
        · exact Text.allBlank_iff.mpr fun c hc => List.mem_takeWhile_imp hc
        · exact fun c hc => List.mem_takeWhile_imp hc
        · intro c hc
          have hnot := List.head?_dropWhile_not isNameChar t
          rw [hc] at hnot hhead
          exact ⟨by simpa using hnot, hhead⟩
    · cases h
  · rintro ⟨indent, after, rfl, hindent, hne, hname, hafter, rfl⟩
    have hat : isBlank '@' = false := by decide
    have hline : (indent ++ '@' :: (name ++ after)).trimStart = '@' :: (name ++ after) := by
      rw [Text.trimStart, List.dropWhile_append_of_pos (Text.allBlank_iff.mp hindent),
        List.dropWhile_cons_of_neg (by rw [hat]; decide)]
    have hafter' : after.takeWhile isNameChar = [] ∧ after.dropWhile isNameChar = after ∧
        after.head?.all isBlank = true := by
      cases after with
      | nil => exact ⟨rfl, rfl, rfl⟩
      | cons c t =>
          obtain ⟨hc, hblank⟩ := hafter c rfl
          simp [hc, hblank]
    obtain ⟨htake, hdrop, hblank⟩ := hafter'
    rw [tagLine?, hline]
    simp only [List.takeWhile_append_of_pos hname, htake, List.append_nil,
      List.dropWhile_append_of_pos hname, hdrop, hblank]
    exact if_pos ⟨hne, trivial⟩

end Outline

/-! ## Documents -/

namespace Docstring

/-- The lines of a document. White space at their ends has no meaning. -/
def rows (raw : Text) : List Text :=
  raw.closedLines.map Text.trimEnd

theorem read_eq (raw : Text) :
    read raw =
      { raw
        body := Text.unlines (strip List.isEmpty (Outline.ofLines (rows raw)).prose)
        tags := (Outline.ofLines (rows raw)).tags.map fun b => Tag.read b.name b.text } := by
  rw [read, rows, Text.closedLines]
  split
  · next hlast =>
      have hlines : raw.lines.map Text.trimEnd = raw.lines.dropLast.map Text.trimEnd ++ [[]] := by
        rw [← List.dropLast_append_getLast? [] hlast, List.map_append, List.dropLast_concat]
        rfl
      rw [hlines, Outline.ofLines_concat_nil]
      simp only [Outline.prose, ← List.append_assoc, strip_concat List.isEmpty_nil]
  · rfl

theorem tags_read (raw : Text) :
    (read raw).tags.map some = (Outline.tagPositions (rows raw)).map fun i =>
      (Outline.tagAt? (rows raw) i).map fun (name, text) => Tag.read name text := by
  have hblocks := congrArg (List.map (Option.map fun b : TagBlock => Tag.read b.name b.text))
    (Outline.tags_ofLines (rows raw))
  rw [List.map_map, List.map_map] at hblocks
  rw [read_eq]
  simp only [List.map_map]
  refine Eq.trans hblocks (List.map_congr_left fun i hi => ?_)
  rw [Function.comp_apply, Outline.tagAt?_eq (List.mem_filter.mp hi).2]
  cases Outline.tagLine? ((rows raw).getD i []) <;> rfl

/-- A document is read by its lines. Each line that opens a tag gives one tag, with the text of the lines
that continue it, and the lines that neither open nor continue a tag are the body. No line is lost, none
is read twice, and they stay in order. -/
theorem read_by_lines (raw : Text) :
    (read raw).tags.map some = (Outline.tagPositions (rows raw)).map (fun i =>
        (Outline.tagAt? (rows raw) i).map fun (name, text) => Tag.read name text) ∧
      (read raw).body = Text.unlines
        (strip List.isEmpty ((Outline.prosePositions (rows raw)).map ((rows raw).getD · []))) ∧
      (Outline.prosePositions (rows raw) ++ (Outline.tagPositions (rows raw)).flatMap fun i =>
          i :: Outline.continuations (rows raw) i).Perm (List.range (rows raw).length) ∧
      (Outline.prosePositions (rows raw)).Pairwise (· < ·) ∧
      (∀ i, (i :: Outline.continuations (rows raw) i).Pairwise (· < ·)) ∧
      ∀ line name rest, Outline.tagLine? line = some (name, rest) ↔
        ∃ indent after : Text, line = indent ++ '@' :: (name ++ after) ∧ indent.allBlank = true ∧
          name ≠ [] ∧ (∀ c ∈ name, Outline.isNameChar c = true) ∧
          (∀ c ∈ after.head?, Outline.isNameChar c = false ∧ isBlank c = true) ∧
          rest = after.trimStart := by
  refine ⟨tags_read raw, ?_, Outline.positions_perm (rows raw),
    Outline.prosePositions_sorted (rows raw), Outline.continuations_sorted (rows raw),
    fun _ _ _ => Outline.tagLine?_eq_some_iff⟩
  rw [read_eq, ← Outline.proseBelow_false, Outline.map_proseBelow]
  rfl

/-- An indented line below prose is prose. -/
example :
    (read "@see b\n  c\nd\n  e".toList).body = "d\n  e".toList ∧
      (read "@see b\n  c\nd\n  e".toList).tags = [⟨"see".toList, "b\nc".toList, [], none⟩] := by
  decide

end Docstring

end CodeCatalog
