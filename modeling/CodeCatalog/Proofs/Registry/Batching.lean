import CodeCatalog.Proofs.Registry.Refusing

/-!
# Declarations in a list

A list of declarations is carried out one by one, up to the first that is refused. That one leaves
nothing behind, and those after it are not looked at.
-/
namespace CodeCatalog

open RegistryM

variable {r s t : Registry} {d : Declaration} {ds earlier later : List Declaration} {id : EntityId}
  {ids : List EntityId} {e : RegistryError}

/-- Declarations that all succeed, each in what the one before it leaves, with the handles that they
give. -/
inductive Registry.Takes : Registry → List Declaration → List EntityId → Registry → Prop where
  | nil (r : Registry) : Takes r [] [] r
  | cons {r s t : Registry} {d : Declaration} {ds : List Declaration} {id : EntityId}
      {ids : List EntityId} (h : declare d r = .ok id s) (hs : Takes s ds ids t) :
      Takes r (d :: ds) (id :: ids) t

namespace RegistryM

/-! ## One declaration and the rest -/

theorem declareAll_cons_of_error (h : declare d r = .error e s) (ds : List Declaration) :
    declareAll (d :: ds) r = .error e s := by
  rw [declareAll]
  exact bind_of_error h _

theorem declareAll_cons_of_ok (h : declare d r = .ok id s) (ds : List Declaration) :
    declareAll (d :: ds) r =
      match declareAll ds s with
      | .ok ids t => .ok (id :: ids) t
      | .error e t => .error e t := by
  rw [declareAll, run_bind, h]
  simp only
  rw [run_bind]
  cases declareAll ds s <;> rfl

/-! ## All that succeed, and the first that is refused -/

theorem declareAll_append (xs ys : List Declaration) :
    declareAll (xs ++ ys) = do
      let ids ← declareAll xs
      let more ← declareAll ys
      return ids ++ more := by
  induction xs with
  | nil => simp only [List.nil_append, declareAll, pure_bind, bind_pure]
  | cons d xs ih => simp only [List.cons_append, declareAll, ih, bind_assoc, pure_bind]

theorem declareAll_eq_ok_iff : declareAll ds r = .ok ids t ↔ r.Takes ds ids t := by
  constructor
  · intro h
    induction ds generalizing r ids with
    | nil =>
        cases h
        exact .nil _
    | cons d ds ih =>
        obtain ⟨id, s, hd, hrest⟩ := exists_of_bind_eq_ok h
        obtain ⟨ids', s', hds, hret⟩ := exists_of_bind_eq_ok hrest
        cases hret
        exact .cons hd (ih hds)
  · intro h
    induction h with
    | nil r => rfl
    | cons hd _ ih => rw [declareAll_cons_of_ok hd, ih]

theorem declareAll_of_refused (h : r.Takes earlier ids s) (hd : declare d s = .error e t)
    (later : List Declaration) : declareAll (earlier ++ d :: later) r = .error e t := by
  rw [declareAll_append, run_bind, declareAll_eq_ok_iff.mpr h]
  exact bind_of_error (declareAll_cons_of_error hd later) _

theorem declareAll_eq_error_iff :
    declareAll ds r = .error e t ↔
      ∃ earlier d later ids s, ds = earlier ++ d :: later ∧ r.Takes earlier ids s ∧
        declare d s = .error e t := by
  constructor
  · intro h
    induction ds generalizing r with
    | nil => cases h
    | cons d ds ih =>
        cases hd : declare d r with
        | error e' s =>
            rw [declareAll_cons_of_error hd] at h
            cases h
            exact ⟨[], d, ds, [], r, rfl, .nil r, hd⟩
        | ok id s =>
            rw [declareAll_cons_of_ok hd] at h
            cases hds : declareAll ds s with
            | ok ids t' =>
                rw [hds] at h
                cases h
            | error e' t' =>
                rw [hds] at h
                cases h
                obtain ⟨earlier, d', later, ids, s', rfl, htakes, hrefused⟩ := ih hds
                exact ⟨d :: earlier, d', later, id :: ids, s', rfl, .cons hd htakes, hrefused⟩
  · rintro ⟨earlier, d, later, ids, s, rfl, htakes, hd⟩
    exact declareAll_of_refused htakes hd later

/-- What is refused leaves nothing behind, not even a namespace on its way, but for want of room. -/
theorem eq_of_declare_eq_error (h : r.Sound) (hd : declare d r = .error e t) (hfull : ¬ Full e t) :
    t = r := by
  cases (guarded_declare h d).of_error hd with
  | deadScope _ _ => rfl
  | emptyName _ _ => rfl
  | full _ _ _ hf => exact absurd hf hfull

end RegistryM

namespace Registry

theorem Takes.eq_run (h : r.Takes ds ids t) : t = r.run (ds.map .declare) := by
  induction h with
  | nil r => rfl
  | @cons r s t d ds id ids hd _ ih =>
      have hexec : (Operation.declare d).exec r = s := by
        rw [Operation.exec, after, hd]
      rw [ih, ← hexec]
      rfl

theorem Takes.evolves (h : r.Takes ds ids t) (hr : r.Sound) : r.Evolves t :=
  (evolving_declareAll ds r hr).of_ok (declareAll_eq_ok_iff.mpr h)

/-- Two lists of declarations one after the other are one list: the second is carried out if the first
succeeds, and its handles follow those of the first. A list succeeds if all its declarations do, one
by one, and else is refused as the first of them is that is refused. Unless that is for want of room,
the registry is left as the declarations before it have made it. -/
theorem Reachable.declares_in_turn (hr : r.Reachable) (xs ys : List Declaration) :
    (declareAll (xs ++ ys) r =
      match declareAll xs r with
      | .ok ids s =>
        match declareAll ys s with
        | .ok more t => .ok (ids ++ more) t
        | .error e t => .error e t
      | .error e s => .error e s) ∧
    (∀ ids t, declareAll xs r = .ok ids t ↔ r.Takes xs ids t) ∧
    (∀ e t, declareAll xs r = .error e t ↔
      ∃ earlier d later ids s, xs = earlier ++ d :: later ∧ r.Takes earlier ids s ∧
        declare d s = .error e t) ∧
    ∀ earlier d later ids s e t, xs = earlier ++ d :: later → r.Takes earlier ids s →
      declare d s = .error e t →
        declareAll xs r = .error e t ∧ s = r.run (earlier.map .declare) ∧ (¬ Full e t → t = s) := by
  refine ⟨?_, fun _ _ => declareAll_eq_ok_iff, fun _ _ => declareAll_eq_error_iff, ?_⟩
  · rw [declareAll_append, run_bind]
    cases declareAll xs r with
    | error e s => rfl
    | ok ids s =>
        simp only
        rw [run_bind]
        cases declareAll ys s <;> rfl
  rintro earlier d later ids s e t rfl htakes hd
  have hs : s.Sound := (htakes.evolves hr.sound).sound hr.sound
  exact ⟨declareAll_of_refused htakes hd later, htakes.eq_run, eq_of_declare_eq_error hs hd⟩

/-- The second name goes through two namespaces and cannot be read. -/
theorem declares_in_turn_of_unreadable_second :
    ∃ first second third : Declaration, first.name = ['A', ':', ':', 'b'] ∧
      second.name = ['B', ':', ':', 'C', ':', ':'] ∧ third.name = ['D'] ∧
      ∃ s, Takes (create .latestDocumented 1) [first] [⟨1, 2⟩] s ∧
        declareAll [first, second, third] (create .latestDocumented 1) =
          .error (.emptyName second.name) s ∧
        s = (create .latestDocumented 1).run [.declare first] ∧
        s.at? ['A', '#', 'b'] = some ⟨1, 2⟩ ∧ s.at? ['B'] = none ∧ s.at? ['D'] = none := by
  have htakes : Takes (create .latestDocumented 1)
      [{ scope := .root, name := ['A', ':', ':', 'b'], kind := .instanceRoutine, site := ⟨['f'], 1⟩ }]
      [⟨1, 2⟩] _ := .cons rfl (.nil _)
  obtain ⟨hrefused, hrun, -⟩ := (Reachable.declares_in_turn (.create .latestDocumented 1) _ []).2.2.2
    _ { scope := .root, name := ['B', ':', ':', 'C', ':', ':'], kind := .type, site := ⟨['f'], 2⟩ }
    [{ scope := .root, name := ['D'], kind := .type, site := ⟨['f'], 3⟩ }] _ _ _ _ rfl htakes rfl
  exact ⟨_, _, _, rfl, rfl, rfl, _, htakes, hrefused, hrun, rfl, rfl, rfl⟩

end Registry

end CodeCatalog
