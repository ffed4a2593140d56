import Mathlib.Data.Set.Function
import Mathlib.Logic.Function.Basic
import CodeCatalog.Proofs.Registry.Reachable
import CodeCatalog.Proofs.Registry.Renaming

/-!
# After a reset

A registry that has been reset cannot be told from a new one with the same policy, whatever is done with
the two and asked of them: the replies are the same, but for the numbers of the generations.
-/
namespace CodeCatalog

/-! ## Commands and replies -/

/-- What can be done with a registry, and asked of it. -/
inductive Command where
  | operate (op : Operation)
  | reset
  | policy
  | root
  | find (path : Text)
  | lookup (path : Text)
  | get (id : EntityId)
  | contains (id : EntityId)
  | owner (id : EntityId)
  | hasChild (parent child : EntityId)
  | sameEntity (a b : EntityId)
  | equal (a b : EntityId)
  | less (a b : EntityId)
  | children (id : EntityId)
  | walk (id : EntityId)
  | entities
  | paths
  | sizes
deriving DecidableEq

inductive Reply where
  | done
  | refused (e : RegistryError)
  | policy (p : CanonicalPolicy)
  | flag (b : Bool)
  | handles (ids : List EntityId)
  | entities (es : List Entity)
  | placed (p : Placement)
  | interned (id : EntityId) (given : List Answer)
  | answers (as : Option (List Answer))
  | paths (ps : List Text)
  /-- The numbers of the registered entities and of all. -/
  | sizes (registered all : Nat)
deriving DecidableEq

/-- An operation as it is run, with all that it answers. -/
def Operation.reply : Operation → RegistryM Reply
  | resolve scope name => do return .placed (← RegistryM.resolve scope name)
  | intern scope name kind => do return .handles [← RegistryM.intern scope name kind]
  | internWith scope name kind requests => do
    let given ← RegistryM.internWith scope name kind requests
    return .interned given.1 given.2
  | declare d => do return .handles [← RegistryM.declare d]
  | declareAll ds => do return .handles (← RegistryM.declareAll ds)
  | perform id requests => do return .answers (← RegistryM.perform id requests)

namespace Registry

/-- Carries out a command. A reset takes the generation that is drawn next. -/
def obey (r : Registry) (next : Nat) : Command → Reply × Registry
  | .operate op =>
    match op.reply r with
    | .ok reply s => (reply, s)
    | .error e s => (.refused e, s)
  | .reset => (.done, r.reset next)
  | .policy => (.policy r.policy, r)
  | .root => (.handles [r.rootId], r)
  | .find path => (.handles (r.at? path).toList, r)
  | .lookup path => (.entities (r.lookup? path).toList, r)
  | .get id => (.entities (r.get? id).toList, r)
  | .contains id => (.flag (r.contains id), r)
  | .owner id => (.entities (r.ownerOf id).toList, r)
  | .hasChild parent child => (.flag ((r.get? parent).any (·.hasChild child)), r)
  | .sameEntity a b => (.flag (r.sameEntity a b), r)
  | .equal a b => (.flag (a = b), r)
  | .less a b => (.flag (a < b), r)
  | .children id => (.entities (r.children id), r)
  | .walk id => (.entities (r.walk id), r)
  | .entities => (.entities r.entities, r)
  | .paths => (.paths r.paths, r)
  | .sizes => (.sizes r.size r.arena.size, r)

end Registry

/-- The generations that are left to be drawn after a command. -/
def Command.advance : Command → (Nat → Nat) → Nat → Nat
  | reset, supply => fun i => supply (i + 1)
  | _, supply => supply

/-- Carries out commands one after the other, with a supply of generations for the resets among them. -/
def Registry.replay (r : Registry) (supply : Nat → Nat) : List Command → List Reply × Registry
  | [] => ([], r)
  | c :: cs =>
    let (reply, s) := r.obey (supply 0) c
    let (replies, t) := s.replay (c.advance supply) cs
    (reply :: replies, t)

/-! ## Handles in commands and replies -/

def Scope.uses : Scope → List EntityId
  | detached | root => []
  | within id => [id]

def Operation.uses : Operation → List EntityId
  | resolve scope _ => scope.uses
  | intern scope _ _ => scope.uses
  | internWith scope _ _ _ => scope.uses
  | declare d => d.scope.uses
  | declareAll ds => ds.flatMap (·.scope.uses)
  | perform id _ => [id]

def Command.uses : Command → List EntityId
  | operate op => op.uses
  | get id | contains id | owner id | children id | walk id => [id]
  | hasChild a b | sameEntity a b | equal a b | less a b => [a, b]
  | reset | policy | root | find _ | lookup _ | entities | paths | sizes => []

def Entity.shows (e : Entity) : List EntityId :=
  e.id :: e.owner.toList ++ e.children

def RegistryError.shows : RegistryError → List EntityId
  | invalidNamespace (.deadHandle id) => [id]
  | invalidNamespace (.described _) | emptyName _ | capacityExceeded _ => []

def Reply.shows : Reply → List EntityId
  | refused e => e.shows
  | handles ids => ids
  | entities es => es.flatMap (·.shows)
  | placed p => p.owner.toList
  | interned id _ => [id]
  | done | policy _ | flag _ | answers _ | paths _ | sizes _ _ => []

def Operation.rename (ρ : Nat → Nat) : Operation → Operation
  | resolve scope name => resolve (scope.rename ρ) name
  | intern scope name kind => intern (scope.rename ρ) name kind
  | internWith scope name kind requests => internWith (scope.rename ρ) name kind requests
  | declare d => declare (d.rename ρ)
  | declareAll ds => declareAll (ds.map (·.rename ρ))
  | perform id requests => perform (id.rename ρ) requests

def Command.rename (ρ : Nat → Nat) : Command → Command
  | operate op => operate (op.rename ρ)
  | get id => get (id.rename ρ)
  | contains id => contains (id.rename ρ)
  | owner id => owner (id.rename ρ)
  | hasChild a b => hasChild (a.rename ρ) (b.rename ρ)
  | sameEntity a b => sameEntity (a.rename ρ) (b.rename ρ)
  | equal a b => equal (a.rename ρ) (b.rename ρ)
  | less a b => less (a.rename ρ) (b.rename ρ)
  | children id => children (id.rename ρ)
  | walk id => walk (id.rename ρ)
  | c => c

def Reply.rename (ρ : Nat → Nat) : Reply → Reply
  | refused e => refused (e.rename ρ)
  | handles ids => handles (ids.map (·.rename ρ))
  | entities es => entities (es.map (·.rename ρ))
  | placed p => placed (p.rename ρ)
  | interned id given => interned (id.rename ρ) given
  | reply => reply

/-! ## The same replies under other numbers -/

section
variable {ρ : Nat → Nat}

open RegistryM in
theorem Operation.follows_reply (hρ : Function.Injective ρ) (op : Operation) :
    Follows ρ (·.rename ρ) (op.rename ρ).reply op.reply := by
  cases op with
  | resolve scope name => exact (follows_resolve hρ scope name).map fun _ => rfl
  | intern scope name kind => exact (follows_intern hρ scope name kind).map fun _ => rfl
  | internWith scope name kind requests =>
      exact (follows_internWith hρ scope name kind requests).map fun _ => rfl
  | declare d => exact (follows_declare hρ d).map fun _ => rfl
  | declareAll ds => exact (follows_declareAll hρ ds).map fun _ => rfl
  | perform id requests => exact (follows_perform hρ id requests).map fun _ => rfl

namespace Registry

theorem obey_rename (hρ : StrictMono ρ) (r : Registry) (next : Nat) (c : Command) :
    (r.rename ρ).obey (ρ next) (c.rename ρ) =
      ((r.obey next c).1.rename ρ, (r.obey next c).2.rename ρ) := by
  have hinj := hρ.injective
  cases c with
  | operate op =>
      simp only [obey, Command.rename, op.follows_reply hinj r]
      cases op.reply r <;> rfl
  | reset =>
      simp only [obey, Command.rename, reset_eq_create, create_rename]
      rfl
  | policy | root => rfl
  | find path =>
      simp only [obey, Command.rename, at?_rename]
      cases r.at? path <;> rfl
  | lookup path =>
      simp only [obey, Command.rename, lookup?_rename r hinj]
      cases r.lookup? path <;> rfl
  | get id =>
      simp only [obey, Command.rename, get?_rename r id hinj]
      cases r.get? id <;> rfl
  | contains id => simp only [obey, Command.rename, contains_rename r id hinj, Reply.rename]
  | owner id =>
      simp only [obey, Command.rename, ownerOf_rename r id hinj]
      cases r.ownerOf id <;> rfl
  | hasChild parent child =>
      simp only [obey, Command.rename, get?_rename r parent hinj, Option.any_map,
        Entity.hasChild_rename ρ _ hinj, Reply.rename]
  | sameEntity a b => simp only [obey, Command.rename, sameEntity_rename r hinj, Reply.rename]
  | equal a b => simp only [obey, Command.rename, EntityId.rename_inj hinj, Reply.rename]
  | less a b => simp only [obey, Command.rename, EntityId.rename_lt_rename hρ, Reply.rename]
  | children id => simp only [obey, Command.rename, children_rename r id hinj, Reply.rename]
  | walk id => simp only [obey, Command.rename, walk_rename r id hinj, Reply.rename]
  | entities => simp only [obey, Command.rename, entities_rename r hinj, Reply.rename]
  | paths => exact congrArg (fun ps => (Reply.paths ps, r.rename ρ)) (OrderedMap.keys_mapValues _ _)
  | sizes =>
      simp [obey, Command.rename, Reply.rename, size, OrderedMap.size, rename,
        OrderedMap.mapValues]

theorem replay_rename (hρ : StrictMono ρ) (r : Registry) (supply : Nat → Nat) (cs : List Command) :
    (r.rename ρ).replay (ρ ∘ supply) (cs.map (·.rename ρ)) =
      ((r.replay supply cs).1.map (·.rename ρ), (r.replay supply cs).2.rename ρ) := by
  induction cs generalizing r supply with
  | nil => rfl
  | cons c cs ih =>
      have hadvance : (c.rename ρ).advance (ρ ∘ supply) = ρ ∘ c.advance supply := by
        cases c <;> rfl
      simp only [List.map_cons, replay, Function.comp_apply, obey_rename hρ, hadvance, ih]

end Registry

end

/-! ## Numbers for numbers -/

section
variable {σ τ : Nat → Nat}

theorem EntityId.rename_rename (id : EntityId) : (id.rename σ).rename τ = id.rename (τ ∘ σ) := rfl

theorem EntityId.map_rename_rename (ids : List EntityId) :
    (ids.map (·.rename σ)).map (·.rename τ) = ids.map (·.rename (τ ∘ σ)) := by
  simp [rename_rename, Function.comp_def]

theorem Entity.rename_rename (e : Entity) : (e.rename σ).rename τ = e.rename (τ ∘ σ) := by
  simp [rename, EntityId.rename_rename, Function.comp_def]

theorem Registry.rename_rename (r : Registry) : (r.rename σ).rename τ = r.rename (τ ∘ σ) := by
  simp [rename, OrderedMap.mapValues, Entity.rename_rename, EntityId.rename_rename,
    Function.comp_def]

theorem RegistryError.rename_rename (e : RegistryError) :
    (e.rename σ).rename τ = e.rename (τ ∘ σ) := by
  cases e with
  | invalidNamespace found => cases found <;> rfl
  | emptyName | capacityExceeded => rfl

theorem Reply.rename_rename (reply : Reply) : (reply.rename σ).rename τ = reply.rename (τ ∘ σ) := by
  cases reply with
  | refused e => exact congrArg refused e.rename_rename
  | handles ids => exact congrArg handles (EntityId.map_rename_rename ids)
  | entities es => simp [rename, Entity.rename_rename, Function.comp_def]
  | placed p => simp [rename, Placement.rename, EntityId.rename_rename, Function.comp_def]
  | _ => rfl

theorem Reply.shows_rename (reply : Reply) :
    (reply.rename σ).shows = reply.shows.map (·.rename σ) := by
  cases reply with
  | refused e =>
      cases e with
      | invalidNamespace found => cases found <;> rfl
      | emptyName | capacityExceeded => rfl
  | entities es =>
      simp only [rename, shows, List.flatMap_map, List.map_flatMap]
      refine List.flatMap_congr fun e _ => ?_
      cases h : e.owner <;> simp [Entity.shows, h]
  | placed p => cases h : p.owner <;> simp [rename, shows, Placement.rename, h]
  | _ => rfl

theorem Scope.rename_rename (scope : Scope) : (scope.rename σ).rename τ = scope.rename (τ ∘ σ) := by
  cases scope <;> rfl

theorem Declaration.rename_rename (d : Declaration) :
    (d.rename σ).rename τ = d.rename (τ ∘ σ) := by
  simp [rename, Scope.rename_rename]

theorem Command.rename_rename (c : Command) : (c.rename σ).rename τ = c.rename (τ ∘ σ) := by
  cases c with
  | operate op =>
      cases op <;>
        simp [rename, Operation.rename, Scope.rename_rename, Declaration.rename_rename,
          EntityId.rename_rename, Function.comp_def]
  | _ => rfl

theorem EntityId.rename_eq_self {id : EntityId} (h : σ id.generation = id.generation) :
    id.rename σ = id := by
  rw [rename, h]

theorem Scope.rename_eq_self {scope : Scope}
    (h : ∀ id ∈ scope.uses, σ id.generation = id.generation) : scope.rename σ = scope := by
  cases scope with
  | detached | root => rfl
  | within id => exact congrArg within (EntityId.rename_eq_self (h id List.mem_cons_self))

theorem Declaration.rename_eq_self {d : Declaration}
    (h : ∀ id ∈ d.scope.uses, σ id.generation = id.generation) : d.rename σ = d := by
  rw [rename, Scope.rename_eq_self h]

theorem Operation.rename_eq_self {op : Operation}
    (h : ∀ id ∈ op.uses, σ id.generation = id.generation) : op.rename σ = op := by
  cases op with
  | resolve | intern | internWith => simp only [rename, Scope.rename_eq_self h]
  | declare d => simp only [rename, Declaration.rename_eq_self h]
  | declareAll ds =>
      have hds : ds.map (·.rename σ) = ds.map id := List.map_congr_left fun d hd =>
        Declaration.rename_eq_self fun id hid => h id (List.mem_flatMap.mpr ⟨d, hd, hid⟩)
      rw [List.map_id] at hds
      simp only [rename, hds]
  | perform id requests => simp only [rename, EntityId.rename_eq_self (h id List.mem_cons_self)]

theorem Command.rename_eq_self {c : Command}
    (h : ∀ id ∈ c.uses, σ id.generation = id.generation) : c.rename σ = c := by
  cases c with
  | operate op => exact congrArg operate (op.rename_eq_self h)
  | get | contains | owner | children | walk =>
      simp only [rename, EntityId.rename_eq_self (h _ List.mem_cons_self)]
  | hasChild a b | sameEntity a b | equal a b | less a b =>
      have ha := EntityId.rename_eq_self (h a (by simp [uses]))
      have hb := EntityId.rename_eq_self (h b (by simp [uses]))
      simp only [rename, ha, hb]
  | _ => rfl

/-- Commands that are renumbered backwards and then forwards again are the same as before. -/
theorem Command.map_rename_leftInverse (hback : Function.LeftInverse σ τ) {cs : List Command}
    (huses : ∀ c ∈ cs, ∀ id ∈ c.uses, id.generation ∈ Set.range τ) :
    (cs.map (·.rename σ)).map (·.rename τ) = cs := by
  have hsame : ∀ c ∈ cs, (c.rename σ).rename τ = id c := by
    intro c hc
    rw [rename_rename]
    apply rename_eq_self
    intro handle hid
    obtain ⟨i, hi⟩ := huses c hc handle hid
    rw [← hi, Function.comp_apply, hback i]
  rw [List.map_map]
  exact (List.map_congr_left hsame).trans (List.map_id cs)

end

/-! ## Nothing is left -/

namespace Registry

/-- A run on a new registry is the run that numbers its generations from zero, renumbered. -/
theorem replay_create (policy : CanonicalPolicy) {drawn : Nat → Nat} (h : StrictMono drawn)
    (cs : List Command) :
    (create policy (drawn 0)).replay (fun i => drawn (i + 1)) (cs.map (·.rename drawn)) =
      (((create policy 0).replay (· + 1) cs).1.map (·.rename drawn),
        ((create policy 0).replay (· + 1) cs).2.rename drawn) := by
  rw [← replay_rename h, create_rename]
  rfl

/-- A registry that has been reset and a new one of the same policy reply alike to all commands, and
end alike, but for the numbers of the generations that they draw. The commands may use the handles that
replies have shown since the reset, as these are all of such a generation. -/
theorem reset_replies_as_new (r : Registry) {drawn drawn' : Nat → Nat}
    (h : StrictMono drawn) (h' : StrictMono drawn') :
    ∃ ρ : Nat → Nat, (∀ i, ρ (drawn i) = drawn' i) ∧ Set.InjOn ρ (Set.range drawn) ∧
      ∀ cs : List Command, (∀ c ∈ cs, ∀ id ∈ c.uses, id.generation ∈ Set.range drawn) →
        ((create r.policy (drawn' 0)).replay (fun i => drawn' (i + 1)) (cs.map (·.rename ρ)) =
          (((r.reset (drawn 0)).replay (fun i => drawn (i + 1)) cs).1.map (·.rename ρ),
            ((r.reset (drawn 0)).replay (fun i => drawn (i + 1)) cs).2.rename ρ)) ∧
        ∀ reply ∈ ((r.reset (drawn 0)).replay (fun i => drawn (i + 1)) cs).1,
          ∀ id ∈ reply.shows, id.generation ∈ Set.range drawn := by
  have hback : Function.LeftInverse (Function.invFun drawn) drawn :=
    Function.leftInverse_invFun h.injective
  have hρ : (drawn' ∘ Function.invFun drawn) ∘ drawn = drawn' :=
    funext fun i => congrArg drawn' (hback i)
  refine ⟨drawn' ∘ Function.invFun drawn, congrFun hρ, ?_, fun cs huses => ?_⟩
  · rintro _ ⟨i, rfl⟩ _ ⟨j, rfl⟩ hij
    have hij' : drawn' i = drawn' j := by
      rw [← congrFun hρ i, ← congrFun hρ j]
      exact hij
    rw [h'.injective hij']
  -- A reset leaves a new registry, and the commands, numbered from zero, are what both runs carry out.
  · have hreset := replay_create r.policy h (cs.map (·.rename (Function.invFun drawn)))
    have hnew := replay_create r.policy h' (cs.map (·.rename (Function.invFun drawn)))
    have hcs : (cs.map (·.rename (Function.invFun drawn))).map (·.rename drawn') =
        cs.map (·.rename (drawn' ∘ Function.invFun drawn)) := by
      simp only [List.map_map, Function.comp_def, Command.rename_rename]
    rw [Command.map_rename_leftInverse hback huses] at hreset
    rw [hcs] at hnew
    rw [hnew, reset_eq_create, hreset]
    constructor
    · have hreplies : Reply.rename (drawn' ∘ Function.invFun drawn) ∘ Reply.rename drawn =
          Reply.rename drawn' := funext fun reply => by
        rw [Function.comp_apply, Reply.rename_rename, hρ]
      rw [List.map_map, hreplies, rename_rename, hρ]
    · intro reply hreply id hid
      obtain ⟨reply, -, rfl⟩ := List.mem_map.mp hreply
      rw [Reply.shows_rename] at hid
      obtain ⟨id, -, rfl⟩ := List.mem_map.mp hid
      exact ⟨id.generation, rfl⟩

/-- The new registry is in its eighth generation, and the other one is reset to its fifth: the routine
has the same place and the same path in both, and is gone from both when they are reset again. -/
theorem reset_replies_as_new_of_routine_and_reset :
    ∃ ρ : Nat → Nat, ρ 5 = 8 ∧
      ((create .firstDocumented 8).replay (· + 1 + 8)
          [.operate (.intern .root ['A', ':', ':', 'b'] .instanceRoutine),
            .owner ⟨8, 2⟩, .paths, .reset, .contains ⟨8, 2⟩]).1 =
        ((((create .firstDocumented 1).run [.intern .root ['A'] .ns]).reset 5).replay (· + 1 + 5)
          [.operate (.intern .root ['A', ':', ':', 'b'] .instanceRoutine),
            .owner ⟨5, 2⟩, .paths, .reset, .contains ⟨5, 2⟩]).1.map (·.rename ρ) := by
  have hfrom5 : StrictMono fun i : Nat => i + 5 := fun _ _ h => Nat.add_lt_add_right h 5
  have hfrom8 : StrictMono fun i : Nat => i + 8 := fun _ _ h => Nat.add_lt_add_right h 8
  obtain ⟨ρ, hρ, -, hreplies⟩ := reset_replies_as_new
    ((create .firstDocumented 1).run [.intern .root ['A'] .ns]) hfrom5 hfrom8
  have h5 : ρ 5 = 8 := hρ 0
  have hsame := (hreplies
    [.operate (.intern .root ['A', ':', ':', 'b'] .instanceRoutine),
      .owner ⟨5, 2⟩, .paths, .reset, .contains ⟨5, 2⟩] (by
        simp [Command.uses, Operation.uses, Scope.uses])).1
  refine ⟨ρ, h5, ?_⟩
  simp only [List.map_cons, List.map_nil, Command.rename, Operation.rename, Scope.rename,
    EntityId.rename, h5] at hsame
  exact congrArg Prod.fst hsame

end Registry

end CodeCatalog
