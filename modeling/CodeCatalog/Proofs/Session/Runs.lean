import CodeCatalog.Proofs.Registry.Reachable
import CodeCatalog.Session

/-!
# Runs of sessions

What can be done in a session, what one action makes of each registry, and that the generations of
the registries stay different whatever is done.
-/
namespace CodeCatalog

open Registry

variable {α : Type} {s : Session} {number k j : Nat} {r r' : Registry}

/-! ## Actions -/

/-- What can be done in a session. Registries are meant by number. -/
inductive Session.Action where
  | create (policy : CanonicalPolicy)
  | share (number : Nat)
  | reset (number : Nat)
  | operate (number : Nat) (op : Operation)
deriving DecidableEq

namespace Session

/-- What an action makes of a session. If there is no registry of the number nothing happens. -/
def act (s : Session) : Action → Session
  | .create policy => (s.create policy).2
  | .share number => ((s.share number).map (·.2)).getD s
  | .reset number => (s.reset number).getD s
  | .operate number op => ((s.run number op.program).map (·.2)).getD s

/-- One action after the other. -/
def actAll (s : Session) (actions : List Action) : Session :=
  actions.foldl act s

/-- The position of the registry that an action is about. -/
def Action.position? (s : Session) : Action → Option Nat
  | create _ => some s.registries.size
  | share _ => none
  | reset number => s.numbers[number]?
  | operate number _ => s.numbers[number]?

/-- Whether an action draws a generation. -/
def Action.draws : Action → Bool
  | create _ | reset _ => true
  | share _ | operate .. => false

/-- Puts a registry in the place of another one. -/
def put (s : Session) (k : Nat) (r : Registry) : Session :=
  { s with registries := s.registries.setIfInBounds k r }

theorem actAll_append (s : Session) (as bs : List Action) :
    s.actAll (as ++ bs) = (s.actAll as).actAll bs :=
  List.foldl_append

theorem getElem?_registries_put (s : Session) (k j : Nat) (r : Registry) :
    (s.put k r).registries[j]? =
      if k = j then (s.registries[j]?).map fun _ => r else s.registries[j]? := by
  unfold put
  rw [Array.getElem?_setIfInBounds]
  by_cases hkj : k = j
  · subst hkj
    by_cases hk : k < s.registries.size
    · simp [hk]
    · simp [hk]
  · simp [hkj]

theorem put_of_eq (h : s.registries[k]? = some r) : s.put k r = s := by
  have : s.registries.setIfInBounds k r = s.registries := by
    apply Array.ext_getElem?
    intro j
    rw [Array.getElem?_setIfInBounds]
    by_cases hkj : k = j
    · subst hkj
      obtain ⟨hk, _⟩ := Array.getElem?_eq_some_iff.mp h
      rw [if_pos rfl, if_pos hk, h]
    · rw [if_neg hkj]
  rw [put, this]

/-! ## Operations on one registry -/

theorem run_of_ok {x : RegistryM α} {a : α} (hn : s.numbers[number]? = some k)
    (hk : s.registries[k]? = some r) (hx : x r = .ok a r') :
    s.run number x = some (.ok a, s.put k r') := by
  simp only [run, hn, hk, Option.bind_eq_bind, Option.bind_some, EStateM.run, hx]
  rfl

theorem run_of_error {x : RegistryM α} {e : RegistryError} (hn : s.numbers[number]? = some k)
    (hk : s.registries[k]? = some r) (hx : x r = .error e r') :
    s.run number x = some (.error e, s.put k r') := by
  simp only [run, hn, hk, Option.bind_eq_bind, Option.bind_some, EStateM.run, hx]
  rfl

theorem act_operate (hn : s.numbers[number]? = some k) (hk : s.registries[k]? = some r)
    (op : Operation) : s.act (.operate number op) = s.put k (op.exec r) := by
  rw [← op.after_program r]
  simp only [act, RegistryM.after]
  cases hx : op.program r with
  | ok a r' =>
      rw [run_of_ok hn hk hx]
      rfl
  | error e r' =>
      rw [run_of_error hn hk hx]
      rfl

theorem registry?_eq_some_iff : s.registry? number = some r ↔
    ∃ k, s.numbers[number]? = some k ∧ s.registries[k]? = some r :=
  Option.bind_eq_some_iff

theorem run_of_none (h : s.registry? number = none) (x : RegistryM α) : s.run number x = none := by
  unfold run
  unfold registry? at h
  cases hn : s.numbers[number]? with
  | none => rfl
  | some k =>
      rw [hn, Option.bind_some] at h
      rw [Option.bind_eq_bind, Option.bind_some, h]
      rfl

theorem exists_of_run_eq_ok {x : RegistryM α} {a : α} {t : Session}
    (h : s.run number x = some (.ok a, t)) : ∃ k r r', s.numbers[number]? = some k ∧
      s.registries[k]? = some r ∧ x r = .ok a r' ∧ t = s.put k r' := by
  cases hreg : s.registry? number with
  | none =>
      rw [run_of_none hreg] at h
      cases h
  | some r =>
      obtain ⟨k, hn, hk⟩ := registry?_eq_some_iff.mp hreg
      cases hx : x r with
      | ok a' r' =>
          rw [run_of_ok hn hk hx] at h
          cases h
          exact ⟨k, r, r', hn, hk, hx, rfl⟩
      | error e r' =>
          rw [run_of_error hn hk hx] at h
          cases h

theorem act_operate_of_none (h : s.registry? number = none) (op : Operation) :
    s.act (.operate number op) = s := by
  simp only [act, run_of_none h, Option.map_none, Option.getD_none]

/-- What is at a position after an action: a new registry of the next generation, the registry that
was there after an operation, or the same as before. -/
inductive Turn (s : Session) (a : Action) (k : Nat) : Registry → Prop where
  | renewed (hk : a.position? s = some k) (hd : a.draws = true) (policy : CanonicalPolicy) :
      Turn s a k (.create policy s.nextGeneration)
  | operated {r : Registry} (hk : a.position? s = some k) (hd : a.draws = false)
      (hr : s.registries[k]? = some r) (op : Operation) : Turn s a k (op.exec r)
  | kept {r : Registry} (hk : a.position? s ≠ some k) (hr : s.registries[k]? = some r) : Turn s a k r

theorem turn_of_create {policy : CanonicalPolicy}
    (h : (s.act (.create policy)).registries[k]? = some r) : Turn s (.create policy) k r := by
  rw [act, create, Array.getElem?_push] at h
  split at h
  · rename_i hk
    cases h
    exact .renewed (a := .create policy) (congrArg some hk.symm) rfl policy
  · rename_i hk
    exact .kept (fun hpos => hk (Option.some.inj hpos).symm) h

theorem turn_of_share (h : (s.act (.share number)).registries[k]? = some r) :
    Turn s (.share number) k r := by
  have hsame : (s.act (.share number)).registries = s.registries := by
    simp only [act, share]
    cases s.numbers[number]? <;> rfl
  rw [hsame] at h
  exact .kept nofun h

theorem turn_of_reset (h : (s.act (.reset number)).registries[k]? = some r) :
    Turn s (.reset number) k r := by
  simp only [act, reset] at h
  cases hn : s.numbers[number]? with
  | none =>
      rw [hn] at h
      exact .kept (fun hpos => nomatch hn.symm.trans hpos) h
  | some j =>
      simp only [hn, Option.map_some, Option.getD_some, Array.getElem?_modify] at h
      split at h
      · rename_i hjk
        obtain ⟨r, _, rfl⟩ := Option.map_eq_some_iff.mp h
        rw [reset_eq_create]
        exact .renewed (a := .reset number) (hjk ▸ hn) rfl r.policy
      · rename_i hjk
        exact .kept (fun hpos => hjk (Option.some.inj (hn.symm.trans hpos))) h

theorem turn_of_operate {op : Operation}
    (h : (s.act (.operate number op)).registries[k]? = some r) : Turn s (.operate number op) k r := by
  cases hreg : s.registry? number with
  | none =>
      rw [act_operate_of_none hreg] at h
      refine .kept (fun hpos => ?_) h
      rw [registry?_eq_some_iff.mpr ⟨k, hpos, h⟩] at hreg
      cases hreg
  | some r₀ =>
      obtain ⟨j, hn, hj⟩ := registry?_eq_some_iff.mp hreg
      rw [act_operate hn hj, getElem?_registries_put] at h
      split at h
      · rename_i hjk
        subst hjk
        rw [hj] at h
        cases h
        exact .operated (a := .operate number op) hn rfl hj op
      · rename_i hjk
        exact .kept (fun hpos => hjk (Option.some.inj (hn.symm.trans hpos))) h

theorem turn_of_act {a : Action} (h : (s.act a).registries[k]? = some r) : Turn s a k r := by
  cases a with
  | create policy => exact turn_of_create h
  | share number => exact turn_of_share h
  | reset number => exact turn_of_reset h
  | operate number op => exact turn_of_operate h

theorem size_registries_le_act (s : Session) (a : Action) :
    s.registries.size ≤ (s.act a).registries.size := by
  cases a with
  | create policy =>
      simp only [act, create, Array.size_push]
      exact Nat.le_succ _
  | share number =>
      simp only [act, share]
      cases s.numbers[number]? <;> simp
  | reset number =>
      simp only [act, reset]
      cases s.numbers[number]? <;> simp
  | operate number op =>
      cases hreg : s.registry? number with
      | none => exact Nat.le_of_eq (congrArg (·.registries.size) (act_operate_of_none hreg op).symm)
      | some r =>
          obtain ⟨k, hn, hk⟩ := registry?_eq_some_iff.mp hreg
          rw [act_operate hn hk]
          simp [put]

/-! ## The generations of a session -/

theorem drawn_act (s : Session) (a : Action) :
    (s.act a).drawn = s.drawn + if a.draws ∧ (a.position? s).isSome then 1 else 0 := by
  cases a with
  | create policy => rfl
  | share number =>
      simp only [act, share]
      cases s.numbers[number]? <;> rfl
  | reset number =>
      simp only [act, reset, Action.position?, Action.draws]
      cases s.numbers[number]? <;> rfl
  | operate number op =>
      cases hreg : s.registry? number with
      | none =>
          rw [act_operate_of_none hreg]
          rfl
      | some r =>
          obtain ⟨k, hn, hk⟩ := registry?_eq_some_iff.mp hreg
          rw [act_operate hn hk]
          rfl

/-- Every registry is reachable on its own, and no two are of one generation. -/
structure Sound (s : Session) : Prop where
  reachable : ∀ (k : Nat) (r : Registry), s.registries[k]? = some r → r.Reachable
  generation_le : ∀ (k : Nat) (r : Registry), s.registries[k]? = some r → r.generation ≤ s.drawn
  eq_of_generation_eq : ∀ (j k : Nat) (r r' : Registry), s.registries[j]? = some r → s.registries[k]? = some r' →
    r.generation = r'.generation → j = k

namespace Turn

variable {a : Action}

theorem reachable (h : Turn s a k r) (hs : s.Sound) : r.Reachable := by
  cases h with
  | renewed hk hd policy => exact .create policy _
  | operated hk hd hr op => exact (hs.reachable _ _ hr).exec op
  | kept hk hr => exact hs.reachable _ _ hr

/-- A registry keeps its generation unless a new one is drawn for it. -/
theorem generation (h : Turn s a k r) (hs : s.Sound) :
    (a.position? s = some k ∧ a.draws = true ∧ r.generation = s.drawn + 1) ∨
      ¬ (a.position? s = some k ∧ a.draws = true) ∧
        ∃ r₀, s.registries[k]? = some r₀ ∧ r₀.Evolves r := by
  cases h with
  | renewed hk hd policy => exact .inl ⟨hk, hd, rfl⟩
  | operated hk hd hr op =>
      refine .inr ⟨fun h => ?_, _, hr, op.evolves (hs.reachable _ _ hr).sound⟩
      rw [hd] at h
      cases h.2
  | kept hk hr => exact .inr ⟨fun h => hk h.1, r, hr, .refl⟩

end Turn

namespace Sound

variable {a : Action}

theorem empty : ({} : Session).Sound where
  reachable _ _ h := nomatch h
  generation_le _ _ h := nomatch h
  eq_of_generation_eq _ _ _ _ h := nomatch h

theorem act (hs : s.Sound) (a : Action) : (s.act a).Sound := by
  have hdrawn := s.drawn_act a
  constructor
  case reachable =>
    intro k r hr
    exact (turn_of_act hr).reachable hs
  case generation_le =>
    intro k r hr
    rcases (turn_of_act hr).generation hs with ⟨hk, hd, hg⟩ | ⟨_, r₀, hr₀, he⟩
    · simp only [hk, hd, Option.isSome_some, and_self, if_true] at hdrawn
      omega
    · have hle := hs.generation_le k r₀ hr₀
      rw [he.generation]
      omega
  case eq_of_generation_eq =>
    -- a generation that has just been drawn is above those of all other registries
    intro j k r r' hr hr' heq
    rcases (turn_of_act hr).generation hs with ⟨hj, _, hg⟩ | ⟨_, r₀, hr₀, he⟩
    · rcases (turn_of_act hr').generation hs with ⟨hk, _, _⟩ | ⟨_, r₀', hr₀', he'⟩
      · exact Option.some.inj (hj.symm.trans hk)
      · have hle := hs.generation_le k r₀' hr₀'
        rw [he'.generation] at heq
        omega
    · have hle := hs.generation_le j r₀ hr₀
      rcases (turn_of_act hr').generation hs with ⟨_, _, hg'⟩ | ⟨_, r₀', hr₀', he'⟩
      · rw [he.generation] at heq
        omega
      · refine hs.eq_of_generation_eq j k r₀ r₀' hr₀ hr₀' ?_
        rw [← he.generation, ← he'.generation, heq]

theorem actAll (hs : s.Sound) (actions : List Action) : (s.actAll actions).Sound := by
  induction actions generalizing s with
  | nil => exact hs
  | cons a actions ih => exact ih (hs.act a)

end Sound

end Session

end CodeCatalog
