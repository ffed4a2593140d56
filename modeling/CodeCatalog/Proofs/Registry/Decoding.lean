import CodeCatalog.Proofs.Registry.Identifying
import CodeCatalog.Proofs.Registry.Placing

/-!
# What a path says

A path ends in a name. If there is no separator in that name, the path tells it, the separator before
it and the owner. So of two members with such names only one can have a path.
-/
namespace CodeCatalog

/-! ## Texts -/

namespace Path

variable {q q' l l' : Text} {k k' : EntityKind}

/-- There is no separator in the text, and no part of one. -/
def Plain (l : Text) : Prop :=
  ∀ c ∈ l, isSeparatorChar c = false

instance (l : Text) : Decidable (Plain l) :=
  List.decidableBAll (isSeparatorChar · = false) l

theorem Plain.not_overlaps (h : Plain l) : ¬ Overlaps l l' := by
  rintro ⟨t, c, hc, rfl⟩
  have hplain := h c (by simp)
  rw [hc] at hplain
  cases hplain

theorem member_eq_iff (h : Plain l) (h' : Plain l') :
    member q k l = member q' k' l' ↔ q = q' ∧ k.separator = k'.separator ∧ l = l' := by
  constructor
  · intro heq
    rcases eq_or_overlaps_of_member_eq heq with ⟨rfl, rfl, hsep⟩ | hover | hover
    · exact ⟨rfl, hsep, rfl⟩
    · exact absurd hover h.not_overlaps
    · exact absurd hover h'.not_overlaps
  · rintro ⟨rfl, hsep, rfl⟩
    exact member_congr hsep q l

end Path

/-! ## Members -/

open Registry

variable {r : Registry} {o id : EntityId} {kind : EntityKind} {leaf : Text} {op : Operation}

/-- The operation succeeds and gives the entity `id`. The effective namespace `o` is registered, and
`leaf` is the last part of the name. -/
def Operation.RegistersIn (op : Operation) (r : Registry) (o : EntityId) (kind : EntityKind)
    (leaf : Text) (id : EntityId) : Prop :=
  ∃ scope name p s, op.declared? = some (scope, name, kind) ∧
    RegistryM.resolve scope name r = .ok p s ∧ p.registers = true ∧ p.owner = some o ∧
    p.leaf = leaf ∧ op.program r = .ok [id] (op.exec r)

theorem Operation.RegistersIn.hasPath (h : op.RegistersIn r o kind leaf id) (hr : r.Sound) :
    ∃ q, (op.exec r).HasPath o q ∧ (op.exec r).HasPath id (Path.member q kind leaf) := by
  obtain ⟨scope, name, p, s, hop, hres, hreg, ho, rfl, hrun⟩ := h
  obtain ⟨_, t, hids, hin, hev⟩ := Operation.exists_intern hop hrun
  cases hids
  obtain ⟨_, o', q, ho', hq, hid⟩ := hr.hasPath_intern hres hreg hin
  rw [ho, Option.some.injEq] at ho'
  subst ho'
  exact ⟨q, hev.hasPath hq, hev.hasPath hid⟩

namespace Registry

theorem Sound.member_eq_iff (h : r.Sound) {o o' : EntityId} {q q' : Text} {kind kind' : EntityKind}
    {leaf leaf' : Text} (hq : r.HasPath o q) (hq' : r.HasPath o' q') (hleaf : Path.Plain leaf)
    (hleaf' : Path.Plain leaf') :
    Path.member q kind leaf = Path.member q' kind' leaf' ↔
      o = o' ∧ kind.separator = kind'.separator ∧ leaf = leaf' := by
  rw [Path.member_eq_iff hleaf hleaf']
  refine and_congr_left fun _ => ?_
  constructor
  · rintro rfl
    exact h.hasPath_unique hq hq'
  · rintro rfl
    exact hq.eq_of_eq hq'

/-- The path of a member tells the owner, the separator and the name, if no separator is in the name.
So two operations that register such names give one handle exactly for one name of one owner with one
separator. -/
theorem Reachable.member_path_inj (hr : r.Reachable) :
    (∀ o o' q q' kind kind' leaf leaf', r.HasPath o q → r.HasPath o' q' →
      Path.Plain leaf → Path.Plain leaf' →
      (Path.member q kind leaf = Path.member q' kind' leaf' ↔
        o = o' ∧ kind.separator = kind'.separator ∧ leaf = leaf')) ∧
    ∀ (op : Operation) o kind leaf id, op.RegistersIn r o kind leaf id → Path.Plain leaf →
      ∀ ops (op' : Operation) o' kind' leaf' id',
        op'.RegistersIn ((op.exec r).run ops) o' kind' leaf' id' → Path.Plain leaf' →
        (id = id' ↔ o = o' ∧ kind.separator = kind'.separator ∧ leaf = leaf') := by
  have h := hr.sound
  constructor
  · intro o o' q q' kind kind' leaf leaf' hq hq' hleaf hleaf'
    exact h.member_eq_iff hq hq' hleaf hleaf'
  · intro op o kind leaf id hop hleaf ops op' o' kind' leaf' id' hop' hleaf'
    have hexec := (op.evolves h).sound h
    have hrun := evolves_run hexec ops
    have hev : (op.exec r).Evolves (op'.exec ((op.exec r).run ops)) :=
      hrun.trans (op'.evolves (hrun.sound hexec))
    obtain ⟨q, hq, hid⟩ := hop.hasPath h
    obtain ⟨q', hq', hid'⟩ := hop'.hasPath (hrun.sound hexec)
    have hlater := hev.sound hexec
    rw [← hlater.member_eq_iff (hev.hasPath hq) hq' hleaf hleaf']
    constructor
    · rintro rfl
      exact (hev.hasPath hid).eq_of_eq hid'
    · intro heq
      rw [← heq] at hid'
      exact hlater.hasPath_unique (hev.hasPath hid) hid'

/-- A routine of the root, a routine of a type, and a declaration of the second one in a name. -/
theorem member_path_inj_of_routines :
    (Path.member [] .instanceRoutine ['b'] = Path.member ['A'] .instanceRoutine ['b'] ↔
      (⟨1, 0⟩ : EntityId) = ⟨1, 1⟩ ∧
        EntityKind.instanceRoutine.separator = EntityKind.instanceRoutine.separator ∧ ['b'] = ['b']) ∧
    (Operation.intern (.within ⟨1, 1⟩) ['b'] .instanceRoutine).RegistersIn
      ((create .latestDocumented 1).run [.intern .root ['A'] .type]) ⟨1, 1⟩ .instanceRoutine ['b']
      ⟨1, 2⟩ ∧
    ∀ ops (op' : Operation) o' kind' leaf' id',
      op'.RegistersIn (((create .latestDocumented 1).run [.intern .root ['A'] .type,
        .intern (.within ⟨1, 1⟩) ['b'] .instanceRoutine]).run ops) o' kind' leaf' id' →
      Path.Plain leaf' →
      (⟨1, 2⟩ = id' ↔ ⟨1, 1⟩ = o' ∧
        EntityKind.instanceRoutine.separator = kind'.separator ∧ ['b'] = leaf') :=
  have h : (Operation.intern (.within ⟨1, 1⟩) ['b'] .instanceRoutine).RegistersIn
      ((create .latestDocumented 1).run [.intern .root ['A'] .type]) ⟨1, 1⟩ .instanceRoutine ['b']
      ⟨1, 2⟩ :=
    ⟨_, _, _, _, rfl, rfl, rfl, rfl, rfl, rfl⟩
  have hr := (Reachable.create .latestDocumented 1).run [.intern .root ['A'] .type]
  ⟨(Reachable.member_path_inj hr).1 _ _ _ _ _ _ _ _ ⟨_, rfl, rfl⟩ ⟨_, rfl, rfl⟩ (by decide)
      (by decide), h,
    (Reachable.member_path_inj hr).2 _ _ _ _ _ h (by decide)⟩

end Registry

end CodeCatalog
