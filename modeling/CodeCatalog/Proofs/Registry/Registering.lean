import Mathlib.Data.Finset.Card
import CodeCatalog.Proofs.Registry.Declaring
import CodeCatalog.Proofs.Registry.Identifying
import CodeCatalog.Proofs.Registry.Refusing
import CodeCatalog.Registry.Traverse

/-!
# Registered paths

Which paths a run registers that declares in the root and in no namespace only. Every call adds the
paths that its name goes through and, in the root, the one of what it declares. What was there before
makes no difference, so neither does the order of the calls.
-/
namespace CodeCatalog

open Registry

/-! ## What a call introduces -/

/-- The paths of the namespaces that a name goes through. -/
def DeclaredName.outerPaths (n : DeclaredName) : List Text :=
  (List.range n.outer.length).map fun i => nameSeparator.intercalate (n.outer.take (i + 1))

/-- The paths that a declaration in the root or in no namespace is about. -/
def Scope.introduces (scope : Scope) (name : Text) (kind : EntityKind) : List Text :=
  match DeclaredName.read? name with
  | some n => n.outerPaths ++ if scope = .detached then [] else [n.target kind]
  | none => []

namespace Operation

/-- The operation declares one entity, in the root or in no namespace. -/
def isTopLevel (op : Operation) : Bool :=
  op.declared?.any fun d => d.1 = .root || d.1 = .detached

def introduces (op : Operation) : List Text :=
  match op.declared? with
  | some (scope, name, kind) => scope.introduces name kind
  | none => []

def Succeeds (op : Operation) (r : Registry) : Prop :=
  ∃ ids s, op.program r = .ok ids s

end Operation

variable {r s t : Registry} {scope : Scope} {name q path : Text} {kind : EntityKind} {p : Placement}
  {id o : EntityId} {n : DeclaredName} {names : List Text} {op : Operation} {ops : List Operation}

theorem DeclaredName.outerPaths_eq (h : ∀ s ∈ n.outer, s ≠ []) :
    n.outerPaths = Path.descent [] n.outer :=
  (Path.descent_nil_eq h).symm

theorem Scope.introduces_root (h : DeclaredName.read? name = some n) :
    Scope.root.introduces name kind = n.outerPaths ++ [n.target kind] := by
  simp [introduces, h]

theorem Scope.introduces_detached (h : DeclaredName.read? name = some n) :
    Scope.detached.introduces name kind = n.outerPaths := by
  simp [introduces, h]

theorem Operation.introduces_eq (h : op.declared? = some (scope, name, kind)) :
    op.introduces = scope.introduces name kind := by
  simp [introduces, h]

theorem Operation.exists_of_isTopLevel (h : op.isTopLevel = true) :
    ∃ scope name kind, op.declared? = some (scope, name, kind) ∧
      (scope = .root ∨ scope = .detached) := by
  rw [isTopLevel, Option.any_eq_true] at h
  obtain ⟨⟨scope, name, kind⟩, hop, htop⟩ := h
  exact ⟨scope, name, kind, hop, by simpa using htop⟩

/-! ## Paths of what is added -/

theorem Registry.Sound.paths_add (h : r.Sound) {path : Option Text} {owner : Option EntityId}
    (ha : Admissible r.generation r.census ⟨r.nextId, kind, name, path, owner⟩) :
    (r.add (r.newEntity kind name path owner)).paths = r.paths ++ path.toList := by
  rw [paths, paths, OrderedMap.keys, OrderedMap.keys, h.entries_add ha, census_add,
    identity_newEntity, registrations_concat h.census.ne_nil, ← h.table, List.map_append]
  cases path <;> rfl

theorem Registry.mem_paths_of_at? (h : r.at? path = some id) : path ∈ r.paths :=
  OrderedMap.contains_iff.mp (Option.isSome_iff_exists.mpr ⟨id, h⟩)

theorem Placed.mem_paths_iff (h : Placed s kind p id t) (hs : s.Sound) :
    path ∈ t.paths ↔ path ∈ s.paths ∨ p.path? kind s = some path := by
  cases h with
  | old hp hat =>
      rw [hp, Option.some.injEq]
      constructor
      · exact Or.inl
      · rintro (h | rfl)
        · exact h
        · exact mem_paths_of_at? hat
  | new ha _ _ =>
      rw [hs.paths_add ha, List.mem_append, Option.mem_toList]

theorem Registry.Leads.mem_paths_iff (h : r.Leads o names id s) (hr : r.Sound) (ho : r.HasPath o q)
    (hn : ∀ n ∈ names, n ≠ []) :
    path ∈ s.paths ↔ path ∈ r.paths ∨ path ∈ Path.descent q names := by
  induction h generalizing q with
  | nil => simp [Path.descent]
  | @cons r s t o id id' name names h hs ih =>
      have hpath := Placement.path?_inside ho .ns name
      rw [ih (h.grows.evolves.sound hr) (h.hasPath hr hpath) fun n hm => hn n (by simp [hm]),
        h.mem_paths_iff hr, hpath, Path.descent, List.mem_cons, or_assoc, Option.some.injEq,
        eq_comm]

namespace RegistryM

theorem mem_paths_resolve (hr : r.Sound) (hres : resolve scope name r = .ok p s)
    (hn : DeclaredName.read? name = some n) :
    path ∈ s.paths ↔ path ∈ r.paths ∨ path ∈ n.outerPaths := by
  have hparts := (DeclaredName.parts_ne_nil hn).2
  obtain ⟨_, n', owner, hn', ho, _⟩ := exists_of_resolve_eq_ok hres
  cases hn.symm.trans hn'
  rw [DeclaredName.outerPaths_eq hparts]
  rw [run_findOwner] at ho
  split at ho
  · obtain ⟨o, t, hens, hret⟩ := exists_of_bind_eq_ok ho
    cases hret
    have hleads := (leads_ensureNamespaces hr hr.hasPath_root hparts).of_ok hens
    exact hleads.mem_paths_iff hr hr.hasPath_root hparts
  · rename_i houter
    cases ho
    simp [not_not.mp houter, Path.descent]

theorem mem_paths_intern (hr : r.Sound) (htop : scope = .root ∨ scope = .detached)
    (hin : intern scope name kind r = .ok id t) :
    path ∈ t.paths ↔ path ∈ r.paths ∨ path ∈ scope.introduces name kind := by
  rw [run_intern] at hin
  cases hres : resolve scope name r with
  | error e s => rw [hres] at hin; cases hin
  | ok p s =>
      rw [hres] at hin
      have hp := (ends_resolve hr scope name).of_ok hres
      have hs := hp.grows.evolves.sound hr
      have ht := (ends_place hs (hp.fits hr)).of_ok hin
      obtain ⟨n, hn, _⟩ := hp.found
      rw [ht.mem_paths_iff hs, mem_paths_resolve hr hres hn, or_assoc]
      rcases htop with rfl | rfl
      · rw [hp.path?_root hr hn, Scope.introduces_root hn,
          DeclaredName.target_eq (DeclaredName.parts_ne_nil hn).2]
        simp [eq_comm]
      · have hnone : p.path? kind s ≠ some path := by
          intro hpath
          exact (hp.registers.mp (Placement.path?_eq_some_iff.mp hpath).1).1 rfl
        rw [Scope.introduces_detached hn]
        simp [hnone]

end RegistryM

/-! ## Calls -/

namespace Operation

theorem guarded_program (hr : r.Sound) (hop : op.declared? = some (scope, name, kind)) :
    RegistryM.Guarded op.program r scope name := by
  rw [program_eq hop]
  refine (RegistryM.guarded_intern hr scope name kind).bind fun id t hguard => ?_
  obtain ⟨s, hfinish, _⟩ := op.run_finish id t
  unfold RegistryM.Ends
  rw [hfinish]
  exact hguard

theorem intern_of_succeeds (hop : op.declared? = some (scope, name, kind)) (h : op.Succeeds r) :
    ∃ id t, RegistryM.intern scope name kind r = .ok id t := by
  obtain ⟨ids, s, hrun⟩ := h
  rw [program_eq hop] at hrun
  obtain ⟨id, t, hin, _⟩ := RegistryM.exists_of_bind_eq_ok hrun
  exact ⟨id, t, hin⟩

/-- What an operation does to its entity after interning it leaves the table alone. -/
theorem paths_exec (hop : op.declared? = some (scope, name, kind))
    (hin : RegistryM.intern scope name kind r = .ok id t) : (op.exec r).paths = t.paths := by
  obtain ⟨s, hfinish, htable, _⟩ := op.run_finish id t
  rw [← after_program, program_eq hop, RegistryM.after, RegistryM.run_bind, hin]
  simp only [hfinish, paths, htable]

/-- A call fails only for a name that cannot be read, if there is room, and then does nothing. -/
theorem exec_of_not_succeeds (hr : r.Sound) (htop : op.isTopLevel = true)
    (hroom : (op.exec r).arena.size < RegistryM.capacity) (hfails : ¬ op.Succeeds r) :
    op.introduces = [] ∧ op.exec r = r := by
  obtain ⟨scope, name, kind, hop, hscope⟩ := exists_of_isTopLevel htop
  rw [← after_program] at hroom ⊢
  unfold RegistryM.after at hroom ⊢
  cases hrun : op.program r with
  | ok ids s => exact absurd ⟨ids, s, hrun⟩ hfails
  | error e s =>
      rw [hrun] at hroom
      cases (guarded_program hr hop).of_error hrun with
      | deadScope hs _ => rcases hscope with rfl | rfl <;> cases hs
      | emptyName _ hn => exact ⟨by simp [introduces_eq hop, Scope.introduces, hn], rfl⟩
      | full _ _ _ hfull => exact absurd hroom (Nat.not_lt_of_le hfull.2)

theorem mem_paths_exec (hr : r.Sound) (htop : op.isTopLevel = true)
    (hroom : (op.exec r).arena.size < RegistryM.capacity) :
    path ∈ (op.exec r).paths ↔ path ∈ r.paths ∨ path ∈ op.introduces := by
  by_cases hsucceeds : op.Succeeds r
  · obtain ⟨scope, name, kind, hop, hscope⟩ := exists_of_isTopLevel htop
    obtain ⟨id, t, hin⟩ := intern_of_succeeds hop hsucceeds
    rw [paths_exec hop hin, introduces_eq hop]
    exact RegistryM.mem_paths_intern hr hscope hin
  · obtain ⟨hnone, hsame⟩ := exec_of_not_succeeds hr htop hroom hsucceeds
    simp [hnone, hsame]

end Operation

/-! ## Runs of calls -/

namespace Registry

/-- Call by call, what is registered at the end is what was registered or has been introduced. -/
theorem mem_paths_run (hr : r.Sound) (htop : ∀ op ∈ ops, op.isTopLevel = true)
    (hroom : (r.run ops).arena.size < RegistryM.capacity) :
    path ∈ (r.run ops).paths ↔ path ∈ r.paths ∨ ∃ op ∈ ops, path ∈ op.introduces := by
  induction ops generalizing r with
  | nil => simp [run]
  | cons op ops ih =>
      have hexec := (op.evolves hr).sound hr
      have hfirst : (op.exec r).arena.size < RegistryM.capacity :=
        Nat.lt_of_le_of_lt (evolves_run hexec ops).size_le hroom
      have hrest := ih hexec (fun op' hop' => htop op' (List.mem_cons_of_mem _ hop')) hroom
      rw [Operation.mem_paths_exec hr (htop op (by simp)) hfirst] at hrest
      rw [show r.run (op :: ops) = (op.exec r).run ops from rfl, hrest, or_assoc]
      simp

/-- Later calls need room too, so a call of a run has failed for its name. -/
theorem exec_of_not_succeeds {earlier later : List Operation} (hr : r.Sound)
    (htop : op.isTopLevel = true)
    (hroom : (r.run (earlier ++ op :: later)).arena.size < RegistryM.capacity)
    (hfails : ¬ op.Succeeds (r.run earlier)) :
    op.introduces = [] ∧ op.exec (r.run earlier) = r.run earlier := by
  have hearlier := (evolves_run hr earlier).sound hr
  have hle := (evolves_run ((op.evolves hearlier).sound hearlier) later).size_le
  rw [run_append] at hroom
  exact Operation.exec_of_not_succeeds hearlier htop (Nat.lt_of_le_of_lt hle hroom) hfails

theorem Sound.card_paths (h : r.Sound) : r.paths.toFinset.card = r.size := by
  rw [paths, List.toFinset_card_of_nodup h.nodup_keys]
  simp [size, OrderedMap.size, OrderedMap.keys]

variable {policy : CanonicalPolicy} {g : Nat}

theorem mem_paths_run_create (htop : ∀ op ∈ ops, op.isTopLevel = true)
    (hroom : ((create policy g).run ops).arena.size < RegistryM.capacity) :
    path ∈ ((create policy g).run ops).paths ↔ ∃ op ∈ ops, path ∈ op.introduces := by
  rw [mem_paths_run (.create policy g) htop hroom]
  simp [paths, OrderedMap.keys]

/-- After calls that declare in the root or in no namespace the registered paths are those that the
successful ones introduce, each once. A call that fails does nothing. Calls in another order, or made
more than once, register the same paths. -/
theorem paths_of_calls (policy : CanonicalPolicy) (g : Nat) (ops : List Operation)
    (htop : ∀ op ∈ ops, op.isTopLevel = true)
    (hroom : ((create policy g).run ops).arena.size < RegistryM.capacity) :
    (∀ path, path ∈ ((create policy g).run ops).paths ↔ ∃ earlier op later,
      ops = earlier ++ op :: later ∧ op.Succeeds ((create policy g).run earlier) ∧
      path ∈ op.introduces) ∧
    (∀ earlier op later, ops = earlier ++ op :: later → ¬ op.Succeeds ((create policy g).run earlier) →
      op.introduces = [] ∧ op.exec ((create policy g).run earlier) = (create policy g).run earlier) ∧
    ((create policy g).run ops).size = (ops.flatMap Operation.introduces).toFinset.card ∧
    ∀ ops', (∀ op, op ∈ ops' ↔ op ∈ ops) →
      ((create policy g).run ops').arena.size < RegistryM.capacity →
      ∀ path, path ∈ ((create policy g).run ops').paths ↔ path ∈ ((create policy g).run ops).paths := by
  have hfails : ∀ earlier op later, ops = earlier ++ op :: later →
      ¬ op.Succeeds ((create policy g).run earlier) → op.introduces = [] ∧
        op.exec ((create policy g).run earlier) = (create policy g).run earlier := by
    rintro earlier op later rfl hnot
    exact exec_of_not_succeeds (.create policy g) (htop op (by simp)) hroom hnot
  refine ⟨?_, hfails, ?_, ?_⟩
  · intro path
    rw [mem_paths_run_create htop hroom]
    constructor
    · rintro ⟨op, hop, hpath⟩
      obtain ⟨earlier, later, hops⟩ := List.append_of_mem hop
      refine ⟨earlier, op, later, hops, ?_, hpath⟩
      by_contra hnot
      rw [(hfails earlier op later hops hnot).1] at hpath
      cases hpath
    · rintro ⟨earlier, op, later, rfl, _, hpath⟩
      exact ⟨op, by simp, hpath⟩
  · rw [← ((evolves_run (.create policy g) ops).sound (.create policy g)).card_paths]
    congr 1
    ext path
    simp [mem_paths_run_create htop hroom]
  · intro ops' hmem hroom' path
    have htop' : ∀ op ∈ ops', op.isTopLevel = true := fun op hop => htop op ((hmem op).mp hop)
    rw [mem_paths_run_create htop hroom, mem_paths_run_create htop' hroom']
    simp [hmem]

/-- A declaration in no namespace, a type named like a routine, the routine, a name that cannot be read,
and these calls again in another order. -/
theorem paths_of_calls_in_two_orders :
    ∃ ops ops' : List Operation,
      ops = [.intern .detached ['A', ':', ':', 'B', ':', ':', 'c'] .type,
        .internWith .root ['A', '#', 'b'] .type [.set "source" (.text ['x'])],
        .declare { scope := .root, name := ['A', ':', ':', 'b'], kind := .instanceRoutine,
                   site := ⟨['f'], 1⟩ },
        .intern .root ['X', ':', ':'] .ns] ∧
      ops' = ops.reverse ++ ops ∧
      (∀ path, path ∈ ((create .latestDocumented 1).run ops').paths ↔
        path ∈ ((create .latestDocumented 1).run ops).paths) ∧
      ((create .latestDocumented 1).run ops).paths =
        [['A'], ['A', ':', ':', 'B'], ['A', '#', 'b']] ∧
      ((create .latestDocumented 1).run ops').paths =
        [['A'], ['A', '#', 'b'], ['A', ':', ':', 'B']] := by
  refine ⟨_, _, rfl, rfl, ?_, by decide, by decide⟩
  exact (paths_of_calls .latestDocumented 1 _ (by decide) (by decide)).2.2.2 _
    (fun op => by rw [List.mem_append, List.mem_reverse, or_self]) (by decide)

end Registry

end CodeCatalog
