import CodeCatalog.Proofs.Registry.Handles
import CodeCatalog.Proofs.Session.Runs

/-!
# Handles and generations

A handle is of use in the registry that issued it, until that is reset, and nowhere else. No handle
is issued twice in a session, and those of a later generation are greater.
-/
namespace CodeCatalog.Session

open Registry

variable {s : Session} {number k j : Nat} {r : Registry} {id a b : EntityId} {x : Action}

/-! ## Alive in one registry -/

/-- The handle is alive in the registry at a position. -/
def Alive (s : Session) (k : Nat) (id : EntityId) : Prop :=
  ∃ r, s.registries[k]? = some r ∧ r.contains id = true

/-- The generation has been drawn and no registry is of it any more. -/
structure Gone (s : Session) (g : Nat) : Prop where
  le_drawn : g ≤ s.drawn
  ne : ∀ (k : Nat) (r : Registry), s.registries[k]? = some r → r.generation ≠ g

/-- The registry at a position is reset by one of the actions. -/
def Resets (s : Session) (k : Nat) : List Action → Prop
  | [] => False
  | x :: actions =>
    (∃ number, x = .reset number ∧ s.numbers[number]? = some k) ∨ (s.act x).Resets k actions

theorem drawn_le_act (s : Session) (x : Action) : s.drawn ≤ (s.act x).drawn := by
  rw [drawn_act]
  exact Nat.le_add_right _ _

/-- Only a reset draws a generation for a registry that is there. -/
theorem draws_iff (h : s.Alive k id) : x.position? s = some k ∧ x.draws = true ↔
    ∃ number, x = .reset number ∧ s.numbers[number]? = some k := by
  obtain ⟨r, hr, _⟩ := h
  constructor
  · rintro ⟨hk, hd⟩
    cases x with
    | create policy =>
        cases hk
        simp at hr
    | reset number => exact ⟨number, rfl, hk⟩
    | share | operate => cases hd
  · rintro ⟨number, rfl, hk⟩
    exact ⟨hk, rfl⟩

namespace Alive

theorem generation_le (h : s.Alive k id) (hs : s.Sound) : id.generation ≤ s.drawn := by
  obtain ⟨r, hr, hid⟩ := h
  rw [(contains_iff_lt.mp hid).1]
  exact hs.generation_le k r hr

theorem position_eq (h : s.Alive j id) (h' : s.Alive k id) (hs : s.Sound) : j = k := by
  obtain ⟨r, hr, hid⟩ := h
  obtain ⟨r', hr', hid'⟩ := h'
  refine hs.eq_of_generation_eq j k r r' hr hr' ?_
  rw [← (contains_iff_lt.mp hid).1, ← (contains_iff_lt.mp hid').1]

theorem act (h : s.Alive k id) (hs : s.Sound)
    (hkeep : ¬ (x.position? s = some k ∧ x.draws = true)) : (s.act x).Alive k id := by
  obtain ⟨r, hr, hid⟩ := h
  have hlt : k < (s.act x).registries.size :=
    Nat.lt_of_lt_of_le (Array.getElem?_eq_some_iff.mp hr).1 (s.size_registries_le_act x)
  have hr' : (s.act x).registries[k]? = some (s.act x).registries[k] :=
    Array.getElem?_eq_getElem hlt
  rcases (turn_of_act hr').generation hs with ⟨hk, hd, _⟩ | ⟨_, r₀, hr₀, he⟩
  · exact absurd ⟨hk, hd⟩ hkeep
  · rw [hr, Option.some.injEq] at hr₀
    subst hr₀
    exact ⟨_, hr', he.contains hid⟩

theorem gone (h : s.Alive k id) (hs : s.Sound) (hk : x.position? s = some k)
    (hd : x.draws = true) : (s.act x).Gone id.generation := by
  have hle := h.generation_le hs
  refine ⟨Nat.le_trans hle (s.drawn_le_act x), ?_⟩
  intro j r' hr' hg
  rcases (turn_of_act hr').generation hs with ⟨_, _, hnew⟩ | ⟨hkeep, r₀, hr₀, he⟩
  · omega
  · obtain ⟨r, hr, hid⟩ := h
    have hjk : j = k := by
      refine hs.eq_of_generation_eq j k r₀ r hr₀ hr ?_
      rw [← he.generation, hg, (contains_iff_lt.mp hid).1]
    exact hkeep ⟨hjk ▸ hk, hd⟩

end Alive

namespace Gone

variable {g : Nat}

theorem act (h : s.Gone g) (hs : s.Sound) (x : Action) : (s.act x).Gone g := by
  refine ⟨Nat.le_trans h.le_drawn (s.drawn_le_act x), ?_⟩
  intro k r hr
  rcases (turn_of_act hr).generation hs with ⟨_, _, hg⟩ | ⟨_, r₀, hr₀, he⟩
  · have := h.le_drawn
    omega
  · rw [he.generation]
    exact h.ne k r₀ hr₀

theorem actAll (h : s.Gone g) (hs : s.Sound) (actions : List Action) :
    (s.actAll actions).Gone g := by
  induction actions generalizing s with
  | nil => exact h
  | cons x actions ih => exact ih (h.act hs x) (hs.act x)

theorem not_alive (h : s.Gone id.generation) (k : Nat) : ¬ s.Alive k id := by
  rintro ⟨r, hr, hid⟩
  exact h.ne k r hr (contains_iff_lt.mp hid).1.symm

end Gone

/-- A handle stays alive in its registry up to a reset of it, and is never alive in another one. -/
theorem alive_actAll_iff (hs : s.Sound) (h : s.Alive k id) (actions : List Action) :
    (s.actAll actions).Alive j id ↔ j = k ∧ ¬ s.Resets k actions := by
  induction actions generalizing s with
  | nil =>
      constructor
      · intro hj
        exact ⟨hj.position_eq h hs, fun hno => hno⟩
      · rintro ⟨rfl, _⟩
        exact h
  | cons x actions ih =>
      by_cases hreset : x.position? s = some k ∧ x.draws = true
      · have hgone := (h.gone hs hreset.1 hreset.2).actAll (hs.act x) actions
        constructor
        · intro hj
          exact absurd hj (hgone.not_alive j)
        · rintro ⟨_, hnot⟩
          exact absurd (.inl ((draws_iff h).mp hreset)) hnot
      · have hnumber := mt (draws_iff h).mpr hreset
        simp only [Resets, hnumber, false_or]
        exact ih (hs.act x) (h.act hs hreset)

/-! ## Handles in the order they are issued -/

section
variable {α : Type}

/-- What is seen in each action of a run, one after the other. -/
def gather (see : Session → Action → List α) (s : Session) : List Action → List α
  | [] => []
  | x :: actions => see s x ++ gather see (s.act x) actions

end

/-- The generation that an action draws. -/
def drawnBy (s : Session) (x : Action) : List Nat :=
  if x.draws then (x.position? s).toList.map fun _ => s.nextGeneration else []

/-- How many entities the registry at a position keeps in an action. -/
def kept (s : Session) (x : Action) (k : Nat) : Nat :=
  if x.draws then 0 else (s.registries[k]?.map (·.arena.size)).getD 0

/-- The handles that an action issues: those of all entities that its registry has got by it. -/
def issued (s : Session) (x : Action) : List EntityId :=
  (do
    let k ← x.position? s
    let r ← (s.act x).registries[k]?
    return r.handlesFrom (s.kept x k)).getD []

/-- What follows for two handles if `a` was issued before `b`. -/
def Precedes (a b : EntityId) : Prop :=
  a ≠ b ∧ (a.generation = b.generation → a < b)

/-- The handle has not been issued yet. -/
def Upcoming (s : Session) (id : EntityId) : Prop :=
  s.drawn < id.generation ∨
    ∃ (k : Nat) (r : Registry), s.registries[k]? = some r ∧ r.generation = id.generation ∧
      r.arena.size ≤ id.index

theorem Precedes.of_index (h : a.generation = b.generation → a.index < b.index) : Precedes a b := by
  refine ⟨?_, fun hg => .inr ⟨hg, h hg⟩⟩
  rintro rfl
  exact Nat.lt_irrefl _ (h rfl)

theorem mem_issued_iff : id ∈ s.issued x ↔ ∃ (k : Nat) (r : Registry),
    x.position? s = some k ∧ (s.act x).registries[k]? = some r ∧
      id ∈ r.handlesFrom (s.kept x k) := by
  unfold issued
  cases hk : x.position? s with
  | none => simp
  | some k =>
      cases hr : (s.act x).registries[k]? with
      | none => simp [hr]
      | some r => simp [hr]

theorem mem_drawnBy_iff {g : Nat} : g ∈ s.drawnBy x ↔
    x.draws = true ∧ (x.position? s).isSome ∧ g = s.drawn + 1 := by
  unfold drawnBy
  cases x.draws with
  | false => simp
  | true =>
      cases x.position? s with
      | none => simp
      | some k => simp [nextGeneration]

theorem alive_of_mem_issued (hs : s.Sound) (h : id ∈ s.issued x) :
    ∃ k, (s.act x).Alive k id := by
  obtain ⟨k, r, _, hr, hid⟩ := mem_issued_iff.mp h
  have hr' : r.Sound := ((hs.act x).reachable k r hr).sound
  exact ⟨k, r, hr, (hr'.mem_handlesFrom.mp hid).1⟩

theorem upcoming_of_mem_issued (hs : s.Sound) (h : id ∈ s.issued x) : s.Upcoming id := by
  obtain ⟨k, r, hk, hr, hid⟩ := mem_issued_iff.mp h
  have hr' : r.Sound := ((hs.act x).reachable k r hr).sound
  obtain ⟨hcontains, hle⟩ := hr'.mem_handlesFrom.mp hid
  have hg := (contains_iff_lt.mp hcontains).1
  cases turn_of_act hr with
  | renewed _ _ policy =>
      refine .inl ?_
      rw [hg]
      exact Nat.lt_succ_self _
  | @operated r₀ _ hd hr₀ op =>
      refine .inr ⟨k, r₀, hr₀, ?_, ?_⟩
      · rw [hg, (op.evolves (hs.reachable k r₀ hr₀).sound).generation]
      · simpa [kept, hd, hr₀] using hle
  | kept hk' _ => exact absurd hk hk'

theorem Upcoming.of_act (h : (s.act x).Upcoming id) (hs : s.Sound) : s.Upcoming id := by
  rcases h with h | ⟨k, r, hr, hg, hle⟩
  · exact .inl (Nat.lt_of_le_of_lt (s.drawn_le_act x) h)
  · rcases (turn_of_act hr).generation hs with ⟨_, _, hnew⟩ | ⟨_, r₀, hr₀, he⟩
    · refine .inl ?_
      omega
    · refine .inr ⟨k, r₀, hr₀, ?_, Nat.le_trans he.size_le hle⟩
      rw [← hg, he.generation]

theorem upcoming_of_mem_gather (hs : s.Sound) {actions : List Action}
    (h : id ∈ gather issued s actions) : s.Upcoming id := by
  induction actions generalizing s with
  | nil => cases h
  | cons x actions ih =>
      rcases List.mem_append.mp h with h | h
      · exact upcoming_of_mem_issued hs h
      · exact (ih (hs.act x) h).of_act hs

theorem Alive.precedes (h : s.Alive k a) (hb : s.Upcoming b) (hs : s.Sound) : Precedes a b := by
  refine .of_index fun hg => ?_
  rcases hb with hb | ⟨j, r', hr', hg', hle⟩
  · have := h.generation_le hs
    omega
  · obtain ⟨r, hr, ha⟩ := h
    obtain ⟨hga, hlt⟩ := contains_iff_lt.mp ha
    have hkj : k = j := by
      refine hs.eq_of_generation_eq k j r r' hr hr' ?_
      rw [← hga, hg', hg]
    subst hkj
    cases hr.symm.trans hr'
    exact Nat.lt_of_lt_of_le hlt hle

/-- What is still to be issued at the end of a run has not been issued in it. -/
theorem not_mem_gather_of_upcoming (hs : s.Sound) {actions : List Action}
    (h : (s.actAll actions).Upcoming id) : id ∉ gather issued s actions ∧ s.Upcoming id := by
  induction actions generalizing s with
  | nil => exact ⟨List.not_mem_nil, h⟩
  | cons x actions ih =>
      obtain ⟨hlater, hup⟩ := ih (hs.act x) h
      refine ⟨fun hid => ?_, hup.of_act hs⟩
      rcases List.mem_append.mp hid with hid | hid
      · obtain ⟨k, hk⟩ := alive_of_mem_issued hs hid
        exact (hk.precedes hup (hs.act x)).1 rfl
      · exact hlater hid

theorem issued_sorted (hs : s.Sound) (x : Action) : (s.issued x).Pairwise Precedes := by
  unfold issued
  cases hk : x.position? s with
  | none => exact .nil
  | some k =>
      cases hr : (s.act x).registries[k]? with
      | none =>
          simp [hr]
      | some r =>
          have hr' : r.Sound := ((hs.act x).reachable k r hr).sound
          simp only [hr, Option.bind_eq_bind, Option.bind_some, Option.pure_def, Option.getD_some]
          exact (hr'.handlesFrom_sorted _).imp fun hlt => .of_index fun _ => hlt

theorem gather_issued_sorted (hs : s.Sound) (actions : List Action) :
    (gather issued s actions).Pairwise Precedes := by
  induction actions generalizing s with
  | nil => exact .nil
  | cons x actions ih =>
      refine List.pairwise_append.mpr ⟨issued_sorted hs x, ih (hs.act x), ?_⟩
      intro a ha b hb
      obtain ⟨k, hk⟩ := alive_of_mem_issued hs ha
      exact hk.precedes (upcoming_of_mem_gather (hs.act x) hb) (hs.act x)

theorem drawn_lt_of_mem_gather {g : Nat} {actions : List Action}
    (h : g ∈ gather drawnBy s actions) : s.drawn < g := by
  induction actions generalizing s with
  | nil => cases h
  | cons x actions ih =>
      rcases List.mem_append.mp h with h | h
      · have := (mem_drawnBy_iff.mp h).2.2
        omega
      · exact Nat.lt_of_le_of_lt (s.drawn_le_act x) (ih h)

theorem gather_drawnBy_sorted (s : Session) (actions : List Action) :
    (gather drawnBy s actions).Pairwise (· < ·) := by
  induction actions generalizing s with
  | nil => exact .nil
  | cons x actions ih =>
      refine List.pairwise_append.mpr ⟨?_, ih (s.act x), ?_⟩
      · unfold drawnBy
        cases x.draws <;> cases x.position? s <;> simp
      · intro g hg g' hg'
        obtain ⟨hd, hk, rfl⟩ := mem_drawnBy_iff.mp hg
        have hlt := drawn_lt_of_mem_gather hg'
        rw [drawn_act, if_pos ⟨hd, hk⟩] at hlt
        exact hlt

/-- A registry is of a generation that the action has drawn, or of the one that it was of before. -/
theorem generation_of_act (hs : s.Sound) (hr : (s.act x).registries[k]? = some r) :
    r.generation ∈ s.drawnBy x ∨
      ∃ r₀, s.registries[k]? = some r₀ ∧ r₀.generation = r.generation := by
  rcases (turn_of_act hr).generation hs with ⟨hk, hd, hg⟩ | ⟨_, r₀, hr₀, he⟩
  · exact .inl (mem_drawnBy_iff.mpr ⟨hd, by rw [hk]; rfl, hg⟩)
  · exact .inr ⟨r₀, hr₀, he.generation.symm⟩

theorem generation_of_mem_gather (hs : s.Sound) {actions : List Action}
    (h : id ∈ gather issued s actions) : id.generation ∈ gather drawnBy s actions ∨
      ∃ (k : Nat) (r : Registry), s.registries[k]? = some r ∧ r.generation = id.generation := by
  induction actions generalizing s with
  | nil => cases h
  | cons x actions ih =>
      have hlater : id.generation ∈ gather drawnBy (s.act x) actions ∨
          ∃ (k : Nat) (r : Registry), (s.act x).registries[k]? = some r ∧
            r.generation = id.generation := by
        rcases List.mem_append.mp h with h | h
        · obtain ⟨k, r, hr, hid⟩ := alive_of_mem_issued hs h
          exact .inr ⟨k, r, hr, (contains_iff_lt.mp hid).1.symm⟩
        · exact ih (hs.act x) h
      rcases hlater with hlater | ⟨k, r, hr, hg⟩
      · exact .inl (List.mem_append_right _ hlater)
      · rcases generation_of_act hs hr with hdrawn | ⟨r₀, hr₀, hg₀⟩
        · exact .inl (List.mem_append_left _ (hg ▸ hdrawn))
        · exact .inr ⟨k, r₀, hr₀, hg₀.trans hg⟩

theorem mem_issued_of_alive (hs : s.Sound) (h : (s.act x).Alive k id) :
    s.Alive k id ∨ id ∈ s.issued x := by
  obtain ⟨r, hr, hid⟩ := h
  have hr' : r.Sound := ((hs.act x).reachable k r hr).sound
  cases turn_of_act hr with
  | renewed hk hd policy =>
      refine .inr (mem_issued_iff.mpr ⟨k, _, hk, hr, hr'.mem_handlesFrom.mpr ⟨hid, ?_⟩⟩)
      simp [kept, hd]
  | @operated r₀ hk hd hr₀ op =>
      by_cases hlt : id.index < r₀.arena.size
      · refine .inl ⟨r₀, hr₀, contains_iff_lt.mpr ⟨?_, hlt⟩⟩
        rw [(contains_iff_lt.mp hid).1, (op.evolves (hs.reachable k r₀ hr₀).sound).generation]
      · refine .inr (mem_issued_iff.mpr ⟨k, _, hk, hr, hr'.mem_handlesFrom.mpr ⟨hid, ?_⟩⟩)
        simpa [kept, hd, hr₀] using hlt
  | kept _ hr₀ => exact .inl ⟨r, hr₀, hid⟩

theorem mem_gather_of_alive (hs : s.Sound) {actions : List Action}
    (h : (s.actAll actions).Alive k id) : s.Alive k id ∨ id ∈ gather issued s actions := by
  induction actions generalizing s with
  | nil => exact .inl h
  | cons x actions ih =>
      rcases ih (hs.act x) h with h | h
      · rcases mem_issued_of_alive hs h with h | h
        · exact .inl h
        · exact .inr (List.mem_append_left _ h)
      · exact .inr (List.mem_append_right _ h)

/-! ## All sessions -/

/-- A session from its beginning. -/
def after (actions : List Action) : Session :=
  ({} : Session).actAll actions

theorem sound_after (actions : List Action) : (after actions).Sound :=
  Sound.empty.actAll actions

theorem after_append (earlier later : List Action) :
    after (earlier ++ later) = (after earlier).actAll later :=
  actAll_append _ earlier later

theorem alive_of_run {op : Operation} {ids : List EntityId} {t : Session} (hs : s.Sound)
    (hk : s.numbers[number]? = some k) (h : s.run number op.program = some (.ok ids, t)) :
    ∀ id ∈ ids, t.Alive k id := by
  obtain ⟨k', r, r', hk', hr, hrun, rfl⟩ := exists_of_run_eq_ok h
  cases hk.symm.trans hk'
  have hids := (op.contains_of_program (hs.reachable k r hr).sound).of_ok hrun
  intro id hid
  refine ⟨r', ?_, hids id hid⟩
  rw [getElem?_registries_put, if_pos rfl, hr, Option.map_some]

theorem run_of_dead {op : Operation} (hs : s.Sound) (hk : s.numbers[number]? = some k)
    (hr : s.registries[k]? = some r) (hop : op.scope? = some (.within id))
    (hdead : r.contains id = false) :
    s.run number op.program = some (.error (.invalidNamespace (.deadHandle id)), s) := by
  have hrun := op.program_of_dead (hs.reachable k r hr).sound hop hdead
  rw [run_of_error hk hr hrun, put_of_eq hr]

/-- What holds of the handles in a session after the actions `earlier`, and later on. -/
structure KeepsHandles (earlier : List Action) : Prop where
  given : ∀ number op ids t k, (after earlier).numbers[number]? = some k →
    (after earlier).run number op.program = some (.ok ids, t) →
    t = after (earlier ++ [.operate number op]) ∧ ∀ id ∈ ids, t.Alive k id
  shown : ∀ (k : Nat) (r : Registry) id, (after earlier).registries[k]? = some r → r.Shows id →
    (after earlier).Alive k id
  contains_iff : ∀ k id, (after earlier).Alive k id → ∀ later (j : Nat) (r : Registry),
    (after (earlier ++ later)).registries[j]? = some r →
    (r.contains id = true ↔ j = k ∧ ¬ (after earlier).Resets k later)
  get?_iff : ∀ k id, (after earlier).Alive k id → ∀ later (j : Nat) (r : Registry),
    (after (earlier ++ later)).registries[j]? = some r →
    ((∃ e, r.get? id = some e ∧ e.id = id) ↔ j = k ∧ ¬ (after earlier).Resets k later)
  refused : ∀ k id, (after earlier).Alive k id → ∀ later number (j : Nat) (r : Registry)
    (op : Operation),
    (after (earlier ++ later)).numbers[number]? = some j →
    (after (earlier ++ later)).registries[j]? = some r →
    ¬ (j = k ∧ ¬ (after earlier).Resets k later) → op.scope? = some (.within id) →
    (after (earlier ++ later)).run number op.program =
      some (.error (.invalidNamespace (.deadHandle id)), after (earlier ++ later))
  issued_sorted : (gather issued {} earlier).Pairwise Precedes
  drawn_sorted : (gather drawnBy {} earlier).Pairwise fun g g' =>
    ∀ a ∈ gather issued {} earlier, ∀ b ∈ gather issued {} earlier,
      a.generation = g → b.generation = g' → a < b
  issued_of_drawn : ∀ id ∈ gather issued {} earlier, id.generation ∈ gather drawnBy {} earlier
  issued_of_alive : ∀ k id, (after earlier).Alive k id → id ∈ gather issued {} earlier

/-- Handles do not leak from one generation into another. What a registry gives is alive in it until it
is reset, and in no other registry; anywhere else it is refused as a scope. No handle is issued twice,
those of one generation grow, and so do the generations. -/
theorem keeps_handles (earlier : List Action) : KeepsHandles earlier := by
  have hs := sound_after earlier
  have halive : ∀ k id, (after earlier).Alive k id → ∀ later (j : Nat) (r : Registry),
      (after (earlier ++ later)).registries[j]? = some r →
      (r.contains id = true ↔ j = k ∧ ¬ (after earlier).Resets k later) := by
    intro k id h later j r hr
    rw [← alive_actAll_iff hs h, ← after_append]
    constructor
    · intro hid
      exact ⟨r, hr, hid⟩
    · rintro ⟨r', hr', hid⟩
      cases hr.symm.trans hr'
      exact hid
  constructor
  case given =>
    intro number op ids t k hk hrun
    refine ⟨?_, alive_of_run hs hk hrun⟩
    rw [after_append]
    show t = ((Option.map _ ((after earlier).run number op.program)).getD _)
    rw [hrun]
    rfl
  case shown =>
    intro k r id hr hid
    exact ⟨r, hr, hid.contains (hs.reachable k r hr).sound⟩
  case contains_iff => exact halive
  case get?_iff =>
    intro k id h later j r hr
    have hr' := ((sound_after (earlier ++ later)).reachable j r hr).sound
    rw [← halive k id h later j r hr, Registry.contains_iff]
    constructor
    · rintro ⟨e, he, _⟩
      exact ⟨e, he⟩
    · rintro ⟨e, he⟩
      exact ⟨e, he, hr'.id_eq he⟩
  case refused =>
    intro k id h later number j r op hj hr hnot hop
    refine run_of_dead (sound_after _) hj hr hop ?_
    rw [← halive k id h later j r hr] at hnot
    exact Bool.eq_false_iff.mpr hnot
  case issued_sorted => exact gather_issued_sorted .empty earlier
  case drawn_sorted =>
    refine (gather_drawnBy_sorted {} earlier).imp ?_
    rintro g g' hlt a _ b _ rfl rfl
    exact .inl hlt
  case issued_of_drawn =>
    intro id hid
    rcases generation_of_mem_gather .empty hid with h | ⟨k, r, hr, _⟩
    · exact h
    · cases hr
  case issued_of_alive =>
    intro k id h
    rcases mem_gather_of_alive .empty h with ⟨r, hr, _⟩ | h
    · cases hr
    · exact h

-- The position of a handle from before a reset is taken again, and the handle is still dead.
example :
    (after [.create .latestDocumented, .operate 0 (.intern .root ['A'] .type), .reset 0,
      .operate 0 (.intern .root ['B'] .type)]).registries[0]?.map
        (fun r => (r.contains ⟨1, 1⟩, r.contains ⟨2, 1⟩)) = some (false, true) := by
  decide

end CodeCatalog.Session
