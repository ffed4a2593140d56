import CodeCatalog.Proofs.Entity.Histories
import CodeCatalog.Proofs.Registry.Interning

/-!
# Reachable registries

What can be done with a registry, and that whatever is done keeps it sound.
-/
namespace CodeCatalog

/-! ## Changing one entity -/

namespace Entity

theorem Remains.trans {e₁ e₂ e₃ : Entity} (h : e₁.Remains e₂) (h' : e₂.Remains e₃) :
    e₁.Remains e₃ :=
  ⟨h'.identity.trans h.identity, h'.children.trans h.children, h'.policy.trans h.policy⟩

theorem remains_performAll (e : Entity) (requests : List EntityRequest) :
    e.Remains (e.performAll requests).2 := by
  rw [performAll_eq]
  exact ⟨rfl, rfl, Ledger.policy_foldl_record _ _⟩

theorem remains_document (e : Entity) (d : Declaration) : e.Remains (e.document d) := by
  unfold document
  split
  · split <;> exact ⟨rfl, rfl, rfl⟩
  · exact ⟨rfl, rfl, rfl⟩

theorem remains_merge (e : Entity) (d : Declaration) : e.Remains (e.merge d) := by
  have hsite : e.Remains (e.addSite d.site d.isDocumented) := ⟨rfl, rfl, rfl⟩
  have hwrite : ∀ e : Entity, ∀ t, e.Remains { e with attributes := t } :=
    fun _ _ => ⟨rfl, rfl, rfl⟩
  unfold merge
  simp only
  split
  · exact (hsite.trans (remains_document _ d)).trans (hwrite _ _)
  · exact hsite.trans (hwrite _ _)

end Entity

/-! ## Steps -/

namespace Registry

/-- One step of an operation that changes something: an entity is added, or requests or a declaration
are carried out on one. -/
inductive Step (r : Registry) : Registry → Prop where
  | add {s : Registry} (h : r.Adds s) : Step r s
  | perform {id : EntityId} {e : Entity} (he : r.get? id = some e) (requests : List EntityRequest) :
      Step r (r.update id fun _ => (e.performAll requests).2)
  | merge (id : EntityId) (d : Declaration) : Step r (r.update id (·.merge d))

/-- Any number of steps. -/
abbrev Steps : Registry → Registry → Prop := Relation.ReflTransGen Step

variable {r s : Registry}

theorem Step.changes (h : r.Step s) : r.Changes s := by
  cases h with
  | add h => exact .add h
  | @perform id e he requests =>
      refine .edit id _ fun e' he' => ?_
      rw [he, Option.some.injEq] at he'
      exact he' ▸ e.remains_performAll requests
  | merge id d => exact .edit id _ fun e _ => e.remains_merge d

theorem Grows.steps (h : r.Grows s) : r.Steps s :=
  Relation.ReflTransGen.mono (fun _ _ => .add) _ _ h

theorem Steps.evolves (h : r.Steps s) : r.Evolves s :=
  Relation.ReflTransGen.mono (fun _ _ => Step.changes) _ _ h

theorem Steps.sound (h : r.Steps s) (hr : r.Sound) : s.Sound :=
  h.evolves.sound hr

end Registry

/-! ## Operations are made of steps -/

namespace RegistryM

variable {α β : Type} {x : RegistryM α}

/-- However an operation ends, it has taken steps from a sound registry. -/
def Stepping (x : RegistryM α) : Prop :=
  ∀ r, r.Sound → x.Ends r (fun _ s => r.Steps s) (fun _ s => r.Steps s)

/-- However an operation ends, a sound registry has evolved. -/
def Evolving (x : RegistryM α) : Prop :=
  ∀ r, r.Sound → x.Ends r (fun _ s => r.Evolves s) (fun _ s => r.Evolves s)

namespace Stepping

theorem pure (a : α) : Stepping (Pure.pure a : RegistryM α) :=
  fun _ _ => .refl

theorem bind {f : α → RegistryM β} (hx : Stepping x) (hf : ∀ a, Stepping (f a)) :
    Stepping (x >>= f) := by
  intro r hr
  refine (hx r hr).bind ?_
  intro a s hrs
  exact (hf a s (hrs.sound hr)).mono (fun _ _ hst => hrs.trans hst) (fun _ _ hst => hrs.trans hst)

theorem after (hx : Stepping x) {r : Registry} (hr : r.Sound) : r.Steps (x.after r) :=
  (hx r hr).after (fun _ _ h => h) (fun _ _ h => h)

theorem evolving (hx : Stepping x) : Evolving x :=
  fun r hr => (hx r hr).mono (fun _ _ h => h.evolves) (fun _ _ h => h.evolves)

end Stepping

theorem stepping_resolve (scope : Scope) (name : Text) : Stepping (resolve scope name) := by
  intro r hr
  exact (ends_resolve hr scope name).mono (fun _ _ h => h.grows.steps) (fun _ _ h => h.grows.steps)

theorem stepping_intern (scope : Scope) (name : Text) (kind : EntityKind) :
    Stepping (intern scope name kind) := by
  intro r hr
  exact (grows_intern hr scope name kind).mono (fun _ _ h => h.steps) (fun _ _ h => h.steps)

theorem stepping_perform (id : EntityId) (requests : List EntityRequest) :
    Stepping (perform id requests) := by
  intro r hr
  unfold Ends
  rw [run_perform, Registry.performAt]
  cases he : r.get? id with
  | none => exact .refl
  | some e => exact .single (.perform he requests)

theorem stepping_internWith (scope : Scope) (name : Text) (kind : EntityKind)
    (requests : List EntityRequest) : Stepping (internWith scope name kind requests) :=
  (stepping_intern scope name kind).bind fun id =>
    (stepping_perform id requests).bind fun _ => .pure _

theorem stepping_declare (d : Declaration) : Stepping (declare d) := by
  unfold declare
  refine (stepping_intern d.scope d.name d.kind).bind fun id => ?_
  refine Stepping.bind ?_ fun _ => .pure _
  intro r hr
  exact .single (.merge id d)

theorem stepping_declareAll (ds : List Declaration) : Stepping (declareAll ds) := by
  induction ds with
  | nil => exact .pure _
  | cons d ds ih =>
      exact (stepping_declare d).bind fun _ => ih.bind fun _ => .pure _

theorem evolving_intern (scope : Scope) (name : Text) (kind : EntityKind) :
    Evolving (intern scope name kind) :=
  (stepping_intern scope name kind).evolving

theorem evolving_perform (id : EntityId) (requests : List EntityRequest) :
    Evolving (perform id requests) :=
  (stepping_perform id requests).evolving

theorem evolving_declare (d : Declaration) : Evolving (declare d) :=
  (stepping_declare d).evolving

theorem evolving_declareAll (ds : List Declaration) : Evolving (declareAll ds) :=
  (stepping_declareAll ds).evolving

end RegistryM

/-! ## Runs -/

/-- What can be done with a registry between two resets. -/
inductive Operation where
  | resolve (scope : Scope) (name : Text)
  | intern (scope : Scope) (name : Text) (kind : EntityKind)
  | internWith (scope : Scope) (name : Text) (kind : EntityKind) (requests : List EntityRequest)
  | declare (d : Declaration)
  | declareAll (ds : List Declaration)
  | perform (id : EntityId) (requests : List EntityRequest)
deriving DecidableEq

/-- What an operation makes of a registry, whether it succeeds or is refused. -/
def Operation.exec (op : Operation) (r : Registry) : Registry :=
  match op with
  | resolve scope name => (RegistryM.resolve scope name).after r
  | intern scope name kind => (RegistryM.intern scope name kind).after r
  | internWith scope name kind requests => (RegistryM.internWith scope name kind requests).after r
  | declare d => (RegistryM.declare d).after r
  | declareAll ds => (RegistryM.declareAll ds).after r
  | perform id requests => (RegistryM.perform id requests).after r

/-- An operation as it is run. It gives the handles that it finds or makes. -/
def Operation.program : Operation → RegistryM (List EntityId)
  | resolve scope name => do return (← RegistryM.resolve scope name).owner.toList
  | intern scope name kind => do return [← RegistryM.intern scope name kind]
  | internWith scope name kind requests => do
    return [(← RegistryM.internWith scope name kind requests).1]
  | declare d => do return [← RegistryM.declare d]
  | declareAll ds => RegistryM.declareAll ds
  | perform id requests => do
    let _ ← RegistryM.perform id requests
    return []

theorem RegistryM.after_map {α β : Type} (x : RegistryM α) (f : α → β) (r : Registry) :
    (do return f (← x) : RegistryM β).after r = x.after r := by
  unfold after
  rw [run_bind]
  cases x r <;> rfl

theorem Operation.after_program (op : Operation) (r : Registry) : op.program.after r = op.exec r := by
  cases op with
  | declareAll ds => rfl
  | _ => exact RegistryM.after_map _ _ r

theorem Operation.steps (op : Operation) {r : Registry} (h : r.Sound) : r.Steps (op.exec r) := by
  cases op with
  | resolve scope name => exact (RegistryM.stepping_resolve scope name).after h
  | intern scope name kind => exact (RegistryM.stepping_intern scope name kind).after h
  | internWith scope name kind requests =>
      exact (RegistryM.stepping_internWith scope name kind requests).after h
  | declare d => exact (RegistryM.stepping_declare d).after h
  | declareAll ds => exact (RegistryM.stepping_declareAll ds).after h
  | perform id requests => exact (RegistryM.stepping_perform id requests).after h

theorem Operation.evolves (op : Operation) {r : Registry} (h : r.Sound) : r.Evolves (op.exec r) :=
  (op.steps h).evolves

theorem Operation.evolves_of_ok {op : Operation} {r t : Registry} {ids : List EntityId}
    (hr : r.Sound) (hrun : op.program r = .ok ids t) : r.Evolves t := by
  have hafter : op.exec r = t := by
    rw [← op.after_program, RegistryM.after, hrun]
  exact hafter ▸ op.evolves hr

/-- One operation after the other. -/
def Registry.run (r : Registry) (ops : List Operation) : Registry :=
  ops.foldl (fun r op => op.exec r) r

theorem Registry.run_append (r : Registry) (ops ops' : List Operation) :
    r.run (ops ++ ops') = (r.run ops).run ops' :=
  List.foldl_append

theorem Registry.steps_run {r : Registry} (h : r.Sound) (ops : List Operation) :
    r.Steps (r.run ops) := by
  induction ops generalizing r with
  | nil => exact .refl
  | cons op ops ih =>
      have hop := op.steps h
      exact hop.trans (ih (hop.sound h))

theorem Registry.evolves_run {r : Registry} (h : r.Sound) (ops : List Operation) :
    r.Evolves (r.run ops) :=
  (steps_run h ops).evolves

/-- A registry that was made new, and then operated on and reset any number of times. -/
inductive Registry.Reachable : Registry → Prop where
  | create (policy : CanonicalPolicy) (generation : Nat) : Reachable (.create policy generation)
  | exec {r : Registry} (h : Reachable r) (op : Operation) : Reachable (op.exec r)
  | reset {r : Registry} (h : Reachable r) (generation : Nat) : Reachable (r.reset generation)

namespace Registry.Reachable

variable {r : Registry}

theorem sound (h : Reachable r) : r.Sound := by
  induction h with
  | create policy generation => exact .create policy generation
  | exec h op ih => exact (op.evolves ih).sound ih
  | reset h generation =>
      rw [reset_eq_create]
      exact .create _ generation

theorem size_le_capacity (h : Reachable r) : r.arena.size ≤ RegistryM.capacity := by
  induction h with
  | create policy generation => exact Nat.le_add_left 1 _
  | exec h op ih => exact (op.evolves h.sound).size_le_capacity ih
  | reset h generation =>
      rw [reset_eq_create]
      exact Nat.le_add_left 1 _

theorem run (h : Reachable r) (ops : List Operation) : Reachable (r.run ops) := by
  induction ops generalizing r with
  | nil => exact h
  | cons op ops ih => exact ih (h.exec op)

end Registry.Reachable

end CodeCatalog
