import CodeCatalog.Proofs.Docstring.Writing

/-!
# Closing

A list of types ends at the first bracket that leaves none open, whatever its kind. That is a bracket of
the list's own kind exactly if no bracket before it is closed by one of another kind.
-/
namespace CodeCatalog

namespace TypeList

open Nesting

variable {n : Nesting} {k : Int} {c : Char} {t inside rest after : Text} {ts : List Text}

/-! ## The end of a list -/

namespace Nesting

theorem last_pushAll (n : Nesting) (t : Text) : (n.pushAll t).last = t.getLastD n.last := by
  induction t generalizing n with
  | nil => rfl
  | cons c t ih =>
      have hlast := ih (n.push c)
      rwa [last_push, ← List.getLastD_cons] at hlast

theorem Stays.cons (hopen : 0 < n.depth) (hk : k ≤ n.depth) (h : (n.push c).Stays k t) :
    n.Stays k (c :: t) := by
  intro p hp
  cases p with
  | nil => simpa [rise] using hk
  | cons d p =>
      obtain ⟨rfl, hpt⟩ := List.cons_prefix_cons.mp hp
      have hstep : -1 ≤ (role n.last d).step := by cases role n.last d <;> decide
      have hrest := h p hpt
      rw [Nesting.depth_push (by omega), last_push] at hrest
      rw [rise]
      omega

/-- Where brackets are open, none is left open by a bracket that closes the only one. -/
theorem depth_push_eq_zero_iff (hopen : 0 < n.depth) :
    (n.push c).depth = 0 ↔ n.depth = 1 ∧ role n.last c = .closing := by
  rw [push]
  cases role n.last c <;> simp <;> omega

end Nesting

theorem upToClose_eq_some_iff (hopen : 0 < n.depth) :
    upToClose n t = some (inside, rest) ↔
      ∃ c, t = inside ++ c :: rest ∧ n.Stays 1 inside ∧ n.depth + rise n.last inside = 1 ∧
        role (inside.getLastD n.last) c = .closing := by
  constructor
  · intro h
    induction t generalizing n inside with
    | nil => cases h
    | cons c t ih =>
        have hle : (1 : Int) ≤ n.depth := by omega
        rw [upToClose] at h
        split at h
        · next hzero =>
            obtain ⟨rfl, rfl⟩ := Prod.mk.inj (Option.some.inj h)
            obtain ⟨hone, hclosing⟩ := (depth_push_eq_zero_iff hopen).mp hzero
            refine ⟨c, rfl, fun p hp => ?_, by simp [rise, hone], hclosing⟩
            rw [List.prefix_nil.mp hp]
            simpa [rise] using hle
        · next hne =>
            obtain ⟨⟨inside', rest'⟩, hclose, heq⟩ := Option.map_eq_some_iff.mp h
            obtain ⟨rfl, rfl⟩ := Prod.mk.inj heq
            obtain ⟨d, rfl, hstays, hrise, hclosing⟩ := ih (Nat.pos_of_ne_zero hne) hclose
            have hcons := Stays.cons hopen hle hstays
            rw [hcons.depth_push (by decide), last_push] at hrise
            rw [last_push] at hclosing
            exact ⟨d, rfl, hcons, by rw [rise]; omega, by rwa [List.getLastD_cons]⟩
  · rintro ⟨c, rfl, hstays, hrise, hclosing⟩
    have hdepth := hstays.depth_pushAll (by decide)
    have hone : (n.pushAll inside).depth = 1 := by omega
    have hzero : ((n.pushAll inside).push c).depth = 0 :=
      (depth_push_eq_zero_iff (by omega)).mpr ⟨hone, by rwa [last_pushAll]⟩
    rw [upToClose_append hstays, upToClose, if_pos hzero, Option.map_some]
    simp only [List.append_nil]

/-- A bracket that ends a list: inside, as many brackets are closed as are opened, and none is closed
in vain. -/
structure Closes (inside : Text) (c : Char) : Prop where
  balanced : Balanced inside
  closing : role (inside.getLastD ' ') c = .closing

theorem stays_start_iff :
    (Nesting.start 1).Stays 1 t ↔ ∀ p, p <+: t → 0 ≤ rise ' ' p := by
  refine forall_congr' fun p => imp_congr_right fun _ => ?_
  simp only [start]
  omega

theorem upToClose_start_eq_some_iff :
    upToClose (.start 1) t = some (inside, rest) ↔ ∃ c, t = inside ++ c :: rest ∧ Closes inside c := by
  rw [upToClose_eq_some_iff (by decide)]
  refine exists_congr fun c => and_congr_right fun _ => ?_
  have hclosed : (Nesting.start 1).depth + rise (Nesting.start 1).last inside = 1 ↔
      rise ' ' inside = 0 := by
    simp only [start]
    omega
  rw [stays_start_iff, hclosed]
  constructor
  · rintro ⟨hnonneg, hrise, hclosing⟩
    exact ⟨⟨hnonneg, hrise⟩, hclosing⟩
  · intro h
    exact ⟨h.balanced.nonneg, h.balanced.closed, h.closing⟩

theorem read?_eq_some_iff :
    read? t = some (ts, after) ↔ ∃ (inside : Text) (c : Char) (rest : Text),
      t = '[' :: (inside ++ c :: rest) ∧ Closes inside c ∧ entries inside = ts ∧
        rest.trimStart = after := by
  constructor
  · intro h
    unfold read? at h
    split at h
    · next t =>
        obtain ⟨⟨inside, rest⟩, hclose, heq⟩ := Option.map_eq_some_iff.mp h
        obtain ⟨hts, hafter⟩ := Prod.mk.inj heq
        obtain ⟨c, rfl, hc⟩ := upToClose_start_eq_some_iff.mp hclose
        exact ⟨inside, c, rest, rfl, hc, hts, hafter⟩
    · cases h
  · rintro ⟨inside, c, rest, rfl, hc, rfl, rfl⟩
    rw [read?, upToClose_start_eq_some_iff.mpr ⟨c, rfl, hc⟩, Option.map_some]

/-! ## Kinds of brackets -/

/-- The bracket that closes one of its own kind. -/
def partner : Char → Char
  | '[' => ']'
  | '<' => '>'
  | '{' => '}'
  | '(' => ')'
  | c => c

/-- The brackets that are open behind a character, the innermost first. A bracket is closed by one of its
own kind alone, and where none is open none can be closed. -/
def passing (opened : List Char) (last c : Char) : Option (List Char) :=
  match role last c, opened with
  | .opening, _ => some (c :: opened)
  | .plain, _ => some opened
  | .closing, o :: outer => if c = partner o then some outer else none
  | .closing, [] => none

/-- The brackets that are open behind a text, if each that is closed in it is closed by one of its kind. -/
def openBehind : List Char → Char → Text → Option (List Char)
  | opened, _, [] => some opened
  | opened, last, c :: t => (passing opened last c).bind fun opened => openBehind opened c t

/-- Every bracket in a text is closed in it, by one of its own kind. -/
def Paired (t : Text) : Prop :=
  openBehind [] ' ' t = some []

instance : DecidablePred Paired := fun _ => inferInstanceAs (Decidable (_ = _))

variable {last : Char} {opened opened' outer : List Char}

theorem length_passing (h : passing opened last c = some opened') :
    (opened'.length : Int) = opened.length + (role last c).step := by
  unfold passing at h
  split at h
  · next hrole =>
      obtain rfl := Option.some.inj h
      simp [hrole, Role.step]
  · next hrole =>
      obtain rfl := Option.some.inj h
      simp [hrole, Role.step]
  · next hrole =>
      split at h
      · obtain rfl := Option.some.inj h
        simp only [hrole, Role.step, List.length_cons]
        omega
      · cases h
  · cases h

theorem length_openBehind (h : openBehind opened last t = some opened') :
    (opened'.length : Int) = opened.length + rise last t := by
  induction t generalizing opened last with
  | nil =>
      obtain rfl := Option.some.inj h
      simp [rise]
  | cons c t ih =>
      obtain ⟨next, hnext, hrest⟩ := Option.bind_eq_some_iff.mp h
      rw [ih hrest, length_passing hnext, rise, Int.add_assoc]

theorem openBehind_append (s t : Text) :
    openBehind opened last (s ++ t) =
      (openBehind opened last s).bind fun opened => openBehind opened (s.getLastD last) t := by
  induction s generalizing opened last with
  | nil => rfl
  | cons c s ih =>
      rw [List.cons_append, openBehind, openBehind, Option.bind_assoc, List.getLastD_cons]
      exact congrArg _ (funext fun _ => ih)

theorem Paired.balanced (h : Paired t) : Balanced t where
  nonneg := by
    rintro p ⟨s, rfl⟩
    rw [Paired, openBehind_append] at h
    obtain ⟨opened, hp, -⟩ := Option.bind_eq_some_iff.mp h
    have hlength := length_openBehind hp
    rw [List.length_nil] at hlength
    omega
  closed := by
    have hlength := length_openBehind h
    rw [List.length_nil] at hlength
    omega

theorem Paired.closes (h : Paired inside) : Closes inside ']' :=
  ⟨h.balanced, by simp [role]⟩

theorem passing_append (h : 0 ≤ opened.length + (role last c).step) :
    passing (opened ++ outer) last c = (passing opened last c).map (· ++ outer) := by
  unfold passing
  cases hrole : role last c with
  | opening => rfl
  | plain => rfl
  | closing =>
      cases opened with
      | nil => simp [hrole, Role.step] at h
      | cons o opened =>
          simp only [List.cons_append]
          split <;> rfl

/-- Brackets that were open before are not touched as long as none is closed in vain. -/
theorem openBehind_append_outer (outer : List Char)
    (h : ∀ p, p <+: t → 0 ≤ opened.length + rise last p) :
    openBehind (opened ++ outer) last t = (openBehind opened last t).map (· ++ outer) := by
  induction t generalizing opened last with
  | nil => rfl
  | cons c t ih =>
      have hc := h [c] ⟨t, rfl⟩
      rw [rise, rise, Int.add_zero] at hc
      rw [openBehind, openBehind, passing_append hc]
      cases hnext : passing opened last c with
      | none => rfl
      | some next =>
          refine ih fun p hp => ?_
          have hcp := h (c :: p) (List.cons_prefix_cons.mpr ⟨rfl, hp⟩)
          rwa [length_passing hnext, Int.add_assoc]

/-- A list ends at a bracket of its own kind, with all brackets in it paired by their kinds, exactly if
no bracket up to there is closed by one of another kind. -/
theorem Closes.own_iff (h : Closes inside c) :
    c = ']' ∧ Paired inside ↔ (openBehind ['['] ' ' (inside ++ [c])).isSome = true := by
  have hnever : ∀ p, p <+: inside → 0 ≤ (([] : List Char).length : Int) + rise ' ' p := by
    simpa using h.balanced.nonneg
  have hinside : openBehind ['['] ' ' inside = (openBehind [] ' ' inside).map (· ++ ['[']) :=
    openBehind_append_outer ['['] hnever
  have hnext : passing ['['] (inside.getLastD ' ') c = if c = ']' then some [] else none := by
    unfold passing
    rw [h.closing]
    rfl
  rw [openBehind_append, hinside, Paired]
  cases hopened : openBehind [] ' ' inside with
  | none => simp
  | some opened =>
      have hlength := length_openBehind hopened
      rw [h.balanced.closed] at hlength
      obtain rfl : opened = [] := List.length_eq_zero_iff.mp (by simpa using hlength)
      simp only [Option.map_some, Option.bind_some, List.nil_append, openBehind, hnext, and_true]
      by_cases hc : c = ']' <;> simp [hc]

end TypeList

/-! ## Lists in tags -/

namespace Tag

open TypeList (Closes Paired entries openBehind read? read?_eq_some_iff)

variable {name raw t word after : Text}

theorem takeTypes_of_read?_eq_none (h : read? t = none) : takeTypes t = ([], t) := by
  rw [takeTypes, h, Option.getD_none]

theorem takeParam_of_head? (h : t.head? = some '[') : takeParam t = (none, t) := by
  obtain ⟨t, rfl⟩ := List.head?_eq_some_iff.mp h
  have hstart : Text.trimStart ('[' :: t) = '[' :: t :=
    List.dropWhile_cons_of_neg (by decide)
  have hword : firstWord? ('[' :: t) = none := by
    rw [firstWord?, hstart]
    rfl
  rw [takeParam, hword]

/-- A list that stands first and is not closed is left as it is. -/
theorem read_of_unclosed_first (hname : (Style.ofName name).hasTypes = true)
    (hhead : raw.trim.head? = some '[') (h : read? raw.trim = none) :
    read name raw = ⟨name, raw.trim, [], none⟩ := by
  have htypes := takeTypes_of_read?_eq_none h
  rw [read]
  cases hstyle : Style.ofName name with
  | plain => simp [hstyle, Style.hasTypes] at hname
  | typed => simp only [htypes, Text.trim_trim]
  | typedNamed => simp only [htypes, takeParam_of_head? hhead, if_true, Text.trim_trim]

/-- A list behind the parameter that is not closed is left as it is. -/
theorem read_of_unclosed_behind_word (hname : Style.ofName name = .typedNamed)
    (hword : firstWord? raw.trim = some (word, after)) (h : read? after = none) :
    read name raw = ⟨name, after.trim, [], some word⟩ := by
  have hhead : raw.trim.head? ≠ some '[' := by
    intro hhead
    have hnone := takeParam_of_head? hhead
    rw [takeParam, hword] at hnone
    cases hnone
  rw [read, hname]
  simp only [takeTypes_of_head? hhead, takeParam, hword, if_true, takeTypes_of_read?_eq_none h]

/-- A list of types ends at the first bracket that leaves none open, of whatever kind it is. If no bracket
up to there is closed by one of another kind, and only then, that is the bracket of its own kind and the
brackets in it are paired. A list that nothing closes stays in the text of its tag and gives no types. -/
theorem types_end_at_any_bracket (t : Text) :
    (∀ ts after, read? t = some (ts, after) ↔
      ∃ (inside : Text) (c : Char) (rest : Text), t = '[' :: (inside ++ c :: rest) ∧
        Closes inside c ∧ entries inside = ts ∧ rest.trimStart = after) ∧
    (∀ inside c, Closes inside c →
      (c = ']' ∧ Paired inside ↔ (openBehind ['['] ' ' (inside ++ [c])).isSome = true)) ∧
    (∀ inside, Paired inside → Closes inside ']') ∧
    (∀ name, (Style.ofName name).hasTypes = true → t.trim.head? = some '[' → read? t.trim = none →
      read name t = ⟨name, t.trim, [], none⟩) ∧
    ∀ name word after, Style.ofName name = .typedNamed →
      firstWord? t.trim = some (word, after) → read? after = none →
        read name t = ⟨name, after.trim, [], some word⟩ :=
  ⟨fun _ _ => read?_eq_some_iff, fun _ _ => Closes.own_iff, fun _ => Paired.closes,
    fun _ => read_of_unclosed_first, fun _ _ _ => read_of_unclosed_behind_word⟩

/-- A list that is opened by a square bracket and closed by an angle bracket, with no square bracket that
closes it. -/
theorem not_types_end_at_own_bracket :
    ¬ (∀ (t after : Text) (ts : List Text), read? t = some (ts, after) →
        ∃ inside rest : Text, t = '[' :: (inside ++ ']' :: rest) ∧ Paired inside ∧
          rest.trimStart = after) ∧
    ¬ ∀ name raw : Text, (Style.ofName name).hasTypes = true → raw.trim.head? = some '[' →
        ']' ∉ raw → (read name raw).types = [] ∧ (read name raw).text = raw.trim := by
  have hclose : ']' ∉ "[String> the result".toList := by decide
  constructor
  · intro h
    obtain ⟨inside, rest, heq, -, -⟩ :=
      h "[String> the result".toList "the result".toList ["String".toList] (by decide)
    exact hclose (by rw [heq]; simp)
  · intro h
    have htypes := (h "return".toList _ (by decide) (by decide) hclose).1
    exact absurd htypes (by decide)

end Tag

end CodeCatalog
