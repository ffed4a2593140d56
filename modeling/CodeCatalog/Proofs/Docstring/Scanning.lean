import CodeCatalog.Proofs.Docstring.Closing

/-!
# Scanning twice

A list of types is scanned twice: for the bracket that ends it, and for the commas between its entries.
The two scans run in step, one bracket apart, and neither closes a bracket where none is open.
-/
namespace CodeCatalog.TypeList

open Nesting

variable {n : Nesting} {c : Char} {k : Nat} {t inside rest : Text}

/-! ## One bracket apart -/

namespace Nesting

/-- The same scan, inside one bracket more. -/
def deeper (n : Nesting) : Nesting :=
  ⟨n.depth + 1, n.last⟩

theorem Stays.push_deeper (h : n.Stays 0 (c :: t)) : n.deeper.push c = (n.push c).deeper := by
  have hdepth := h.depth_push (Int.le_refl 0)
  unfold Nesting.push at hdepth ⊢
  cases hrole : role n.last c with
  | opening | plain => simp [deeper, hrole]
  | closing =>
      simp only [hrole, Role.step] at hdepth
      simp only [deeper, hrole, Nesting.mk.injEq, and_true]
      omega

theorem pushAll_concat (n : Nesting) (t : Text) (c : Char) :
    n.pushAll (t ++ [c]) = (n.pushAll t).push c :=
  List.foldl_concat _ _ _ _

/-- As long as no bracket is closed in vain, the two scans stay one bracket apart. -/
theorem pushAll_deeper (h : n.Stays 0 t) : n.deeper.pushAll t = (n.pushAll t).deeper := by
  induction t generalizing n with
  | nil => rfl
  | cons c t ih =>
      have hrest := ih (h.push (Int.le_refl 0))
      rw [← h.push_deeper] at hrest
      exact hrest

theorem Stays.of_prefix {p : Text} {j : Int} (h : n.Stays j t) (hp : p <+: t) : n.Stays j p :=
  fun q hq => h q (hq.trans hp)

end Nesting

/-! ## The search for the end -/

/-- The search for the end of a list goes on as long as at least one bracket is open. -/
theorem upToClose_eq_none_iff (hopen : 0 < n.depth) : upToClose n t = none ↔ n.Stays 1 t := by
  constructor
  · intro h
    induction t generalizing n with
    | nil =>
        intro p hp
        rw [List.prefix_nil.mp hp, rise]
        omega
    | cons c t ih =>
        rw [upToClose] at h
        split at h
        · cases h
        · next hne =>
            have hrest := ih (Nat.pos_of_ne_zero hne) (Option.map_eq_none_iff.mp h)
            exact hrest.cons hopen (by omega)
  · intro h
    have happend := upToClose_append h []
    rwa [List.append_nil] at happend

theorem Nesting.Stays.depth_pos (h : n.Stays 1 t) : 0 < (n.pushAll t).depth := by
  have hdepth := h.depth_pushAll (by decide)
  have hle := h t (List.prefix_refl t)
  omega

/-! ## The commas -/

/-- The characters of a text, each with the number of brackets that are open before it. -/
def marked : Nesting → Text → List (Char × Nat)
  | _, [] => []
  | n, c :: t => (c, n.depth) :: marked (n.push c) t

/-- The parts of a text between the commas that stand in exactly `k` brackets. -/
def between (n : Nesting) (k : Nat) (t : Text) : List Text :=
  ((marked n t).splitOn (',', k)).map (·.map Prod.fst)

theorem between_cons (n : Nesting) (k : Nat) (c : Char) (t : Text) :
    between n k (c :: t) =
      if c = ',' ∧ n.depth = k then [] :: between (n.push c) k t
      else (between (n.push c) k t).modifyHead (c :: ·) := by
  simp only [between, marked, List.splitOn_cons_eq_if_modifyHead, beq_iff_eq, Prod.mk.injEq]
  split
  · rfl
  · cases (marked (n.push c) t).splitOn (',', k) <;> rfl

theorem pieces_eq_between (n : Nesting) (t : Text) : pieces n t = between n 0 t := by
  induction t generalizing n with
  | nil => rfl
  | cons c t ih => rw [pieces, between_cons, ih]

theorem between_deeper (h : n.Stays 0 t) : between n.deeper (k + 1) t = between n k t := by
  induction t generalizing n with
  | nil => rfl
  | cons c t ih =>
      have hdepth : n.deeper.depth = k + 1 ↔ n.depth = k := Nat.add_right_cancel_iff
      rw [between_cons, between_cons, h.push_deeper, ih (h.push (Int.le_refl 0))]
      simp only [hdepth]

/-! ## Both scans of a list -/

theorem Closes.stays (h : Closes inside c) : (Nesting.start 0).Stays 0 inside := by
  intro p hp
  simpa [start] using h.balanced.nonneg p hp

theorem Closes.pushAll_eq {p : Text} (h : Closes inside c) (hp : p <+: inside) :
    (Nesting.start 1).pushAll p = ((Nesting.start 0).pushAll p).deeper :=
  pushAll_deeper (h.stays.of_prefix hp)

theorem Closes.depth_pos {p : Text} {d : Char} (h : Closes inside c) (hp : p ++ [d] <+: inside)
    (hd : role ((Nesting.start 0).pushAll p).last d = .closing) :
    0 < ((Nesting.start 0).pushAll p).depth := by
  have hbehind := h.pushAll_eq hp
  rw [pushAll_concat, pushAll_concat, h.pushAll_eq ((List.prefix_append p [d]).trans hp)] at hbehind
  simp only [push, deeper, hd, Nesting.mk.injEq, and_true] at hbehind
  omega

theorem Closes.entries_eq (h : Closes inside c) :
    entries inside = ((between (.start 1) 1 inside).map Text.trim).filter (· ≠ []) := by
  rw [entries, pieces_eq_between, ← between_deeper h.stays]
  rfl

/-- Behind a text in which the search for the end of a list has found none it goes on with at least one
bracket open, so it closes none in vain. When it has found the end, the scan for commas is in step with
it in all that is inside: one bracket less is open, and the same character was the last. So that scan
closes none in vain either, and it ends outside all brackets. The list holds what stands between the
commas that the search for the end has passed inside one bracket, trimmed, without what is empty. -/
theorem scans_in_step (t : Text) :
    (∀ p c rest, t = p ++ c :: rest → upToClose (.start 1) p = none →
      1 ≤ ((Nesting.start 1).pushAll p).depth ∧
      upToClose (.start 1) t =
        (upToClose ((Nesting.start 1).pushAll p) (c :: rest)).map
          fun (inside, after) => (p ++ inside, after)) ∧
    ∀ inside rest, upToClose (.start 1) t = some (inside, rest) →
      (∀ p, p <+: inside →
        ((Nesting.start 0).pushAll p).depth + 1 = ((Nesting.start 1).pushAll p).depth ∧
        ((Nesting.start 0).pushAll p).last = ((Nesting.start 1).pushAll p).last) ∧
      (∀ p c, p ++ [c] <+: inside → role ((Nesting.start 0).pushAll p).last c = .closing →
        1 ≤ ((Nesting.start 0).pushAll p).depth) ∧
      ((Nesting.start 0).pushAll inside).depth = 0 ∧
      read? ('[' :: t) =
        some (((between (.start 1) 1 inside).map Text.trim).filter (· ≠ []), rest.trimStart) := by
  constructor
  · rintro p c rest rfl hnone
    have hstays : (Nesting.start 1).Stays 1 p := (upToClose_eq_none_iff (by decide)).mp hnone
    exact ⟨hstays.depth_pos, upToClose_append hstays (c :: rest)⟩
  · intro inside rest hsome
    obtain ⟨c, -, hc⟩ := upToClose_start_eq_some_iff.mp hsome
    refine ⟨fun p hp => ?_, fun p d => hc.depth_pos, ?_, ?_⟩
    · rw [hc.pushAll_eq hp]
      exact ⟨rfl, rfl⟩
    · have hdepth := hc.stays.depth_pushAll (Int.le_refl 0)
      have hclosed := hc.balanced.closed
      simp only [start] at hdepth ⊢
      omega
    · rw [read?, hsome, Option.map_some, ← hc.entries_eq]

/-- Behind `p` a bracket is closed by one of another kind. There are arrows, and an entry with nothing in
it. -/
theorem scans_in_step_of_arrows :
    ∃ t p inside : Text, t = "Map\x7bA => (B, C>\x7d, , =>a] b".toList ∧
      p = "Map\x7bA => (B, C".toList ∧ inside = "Map\x7bA => (B, C>\x7d, , =>a".toList ∧
      upToClose (.start 1) p = none ∧ 1 ≤ ((Nesting.start 1).pushAll p).depth ∧
      upToClose (.start 1) t = some (inside, " b".toList) ∧ p ++ ['>'] <+: inside ∧
      ((Nesting.start 0).pushAll p).depth + 1 = ((Nesting.start 1).pushAll p).depth ∧
      1 ≤ ((Nesting.start 0).pushAll p).depth ∧ ((Nesting.start 0).pushAll inside).depth = 0 ∧
      read? ('[' :: t) = some (["Map\x7bA => (B, C>\x7d".toList, "=>a".toList], "b".toList) := by
  refine ⟨_, _, _, rfl, rfl, rfl, ?_⟩
  obtain ⟨hopen, hclosed⟩ := scans_in_step "Map\x7bA => (B, C>\x7d, , =>a] b".toList
  have hnone : upToClose (.start 1) "Map\x7bA => (B, C".toList = none := by decide
  have hsome : upToClose (.start 1) "Map\x7bA => (B, C>\x7d, , =>a] b".toList =
      some ("Map\x7bA => (B, C>\x7d, , =>a".toList, " b".toList) := by decide
  have hclose : "Map\x7bA => (B, C".toList ++ ['>'] <+: "Map\x7bA => (B, C>\x7d, , =>a".toList := by
    decide
  obtain ⟨hstep, hvain, hend, hread⟩ := hclosed _ _ hsome
  exact ⟨hnone, (hopen _ '>' _ rfl hnone).1, hsome, hclose,
    (hstep _ ((List.prefix_append _ _).trans hclose)).1, hvain _ _ hclose (by decide), hend, hread⟩

end CodeCatalog.TypeList
