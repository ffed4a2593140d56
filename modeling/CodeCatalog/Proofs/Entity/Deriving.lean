import CodeCatalog.Proofs.Entity.Merge
import CodeCatalog.Proofs.Registry.Reachable

/-!
# Derived keys

What stands under the derived keys follows from the identity of an entity and the history of its sites,
whatever is asked of its attributes, and also where these have slots of the same names. Every entity of a
reachable registry has such a history.
-/
namespace CodeCatalog

/-! ## Files -/

namespace CanonicalPolicy

/-- The sites of records, the canonical one first. -/
def files (policy : CanonicalPolicy) (records : List (Location × Bool)) : List Location :=
  (policy.order records).filterMap fun i => (records[i]?).map (·.1)

end CanonicalPolicy

theorem Ledger.Holds.canonicalFirst_eq_files {policy : CanonicalPolicy}
    {records : List (Location × Bool)} {l : Ledger} (h : Holds policy records l) :
    l.canonicalFirst = policy.files records := by
  have hsite (i : Nat) : l.sites[i]? = (records[i]?).map (·.1) := by rw [h.sites, List.getElem?_map]
  calc l.canonicalFirst
      = (l.canonicalFirst.map some).filterMap id := by
          rw [List.filterMap_map, Function.id_comp, List.filterMap_some]
    _ = ((policy.order records).map (l.sites[·]?)).filterMap id := by rw [h.canonicalFirst_eq]
    _ = policy.files records := by
          rw [List.filterMap_map, Function.id_comp]
          simp only [hsite]
          rfl

/-- As a signed number a line is the one of the same 64 bits. -/
theorem Location.toInt64_line (l : Location) :
    l.line.toInt64 = Int64.ofInt ((l.line.toNat : Int).bmod UInt64.size) := by
  have hline : l.line.toInt64.toInt = (l.line.toNat : Int).bmod UInt64.size :=
    BitVec.toInt_eq_toNat_bmod _
  rw [← hline, Int64.ofInt_toInt]

/-! ## Records -/

namespace Entity

variable {e : Entity}

theorem ledger_performAll {policy : CanonicalPolicy} {found : List (Location × Bool)}
    (h : e.ledger = Ledger.ofRecords policy found) (rs : List EntityRequest) :
    (e.performAll rs).2.ledger = Ledger.ofRecords policy (found ++ rs.filterMap (·.site?)) := by
  rw [performAll_eq, h, Ledger.ofRecords, Ledger.ofRecords, List.foldl_append]

end Entity

/-! ## Records of all entities -/

namespace Registry

variable {r s : Registry}

/-- All ledgers hold what has been recorded in them, and nothing else. -/
def Recorded (r : Registry) : Prop :=
  ∀ id e, r.get? id = some e → ∃ found, e.ledger = Ledger.ofRecords r.policy found

theorem Step.recorded (h : r.Step s) (hr : r.Sound) (hrecorded : r.Recorded) : s.Recorded := by
  intro id e he
  rw [h.changes.policy]
  cases h with
  | add h =>
      obtain ⟨e₀, he₀, hsame⟩ | ⟨-, hblank⟩ := h.content hr he
      · have hledger : e.ledger = e₀.ledger := hsame.2
        exact hledger ▸ hrecorded id e₀ he₀
      · exact ⟨[], hblank.2⟩
  | @perform j e₀ he₀ requests =>
      rw [get?_update] at he
      split at he
      · rename_i hid
        subst hid
        rw [he₀] at he
        cases he
        obtain ⟨found, hfound⟩ := hrecorded _ e₀ he₀
        exact ⟨_, Entity.ledger_performAll hfound requests⟩
      · exact hrecorded id e he
  | merge j d =>
      rw [get?_update] at he
      split at he
      · obtain ⟨e₀, he₀, rfl⟩ := Option.map_eq_some_iff.mp he
        obtain ⟨found, hfound⟩ := hrecorded _ e₀ he₀
        refine ⟨found ++ [(d.site, d.isDocumented)], ?_⟩
        rw [Entity.ledger_merge, hfound, Ledger.ofRecords, Ledger.ofRecords, List.foldl_append]
        rfl
      · exact hrecorded id e he

theorem Steps.recorded (h : r.Steps s) (hr : r.Sound) (hrecorded : r.Recorded) : s.Recorded := by
  induction h with
  | refl => exact hrecorded
  | @tail s t hrs hst ih => exact hst.recorded (Steps.sound hrs hr) ih

theorem recorded_create (policy : CanonicalPolicy) (generation : Nat) :
    (create policy generation).Recorded := by
  intro id e he
  obtain ⟨-, rfl⟩ := get?_create he
  exact ⟨[], rfl⟩

theorem Reachable.recorded (h : r.Reachable) : r.Recorded := by
  induction h with
  | create policy generation => exact recorded_create policy generation
  | exec h op ih => exact (op.steps h.sound).recorded h.sound ih
  | reset h generation =>
      rw [reset_eq_create]
      exact recorded_create _ generation

end Registry

/-! ## Access by key -/

namespace Entity

variable {e : Entity} {key : String}

/-- The derived keys. -/
def DerivedKey.keys : List String := ["name", "path", "file", "line", "files"]

theorem DerivedKey.isSome_ofKey?_iff : (ofKey? key).isSome = true ↔ key ∈ keys := by
  constructor
  · intro h
    unfold ofKey? at h
    split at h
    case h_6 => cases h
    all_goals decide
  · intro h
    simp only [keys, List.mem_cons, List.not_mem_nil, or_false] at h
    obtain rfl | rfl | rfl | rfl | rfl := h <;> rfl

theorem DerivedKey.ofKey?_eq_none_iff : ofKey? key = none ↔ key ∉ keys := by
  rw [← isSome_ofKey?_iff, Option.not_isSome_iff_eq_none]

theorem get_of_holds {policy : CanonicalPolicy} {records : List (Location × Bool)}
    (h : Ledger.Holds policy records e.ledger) :
    e.get "files" = some (.locations (policy.files records)) ∧
      e.get "file" = (policy.files records).head?.map (.text ·.file) ∧
      e.get "line" = (policy.files records).head?.map
        (fun l => .int (Int64.ofInt ((l.line.toNat : Int).bmod UInt64.size))) := by
  simp only [← h.canonicalFirst_eq_files, h.head?_canonicalFirst, ← Location.toInt64_line]
  exact ⟨rfl, rfl, rfl⟩

/-- After any requests the name and the path are what they were, and the file, the line and the files are
those of the sites that were recorded. Writes under these keys are refused, also where the attributes have
a slot of that name, and under all others they go to the attributes. -/
theorem derives_from_sites (e : Entity) (policy : CanonicalPolicy) (found : List (Location × Bool))
    (h : e.ledger = Ledger.ofRecords policy found) (rs : List EntityRequest) :
    (e.performAll rs).2.get "name" = some (.text e.name) ∧
    (e.performAll rs).2.get "path" = e.path.map .text ∧
    (e.performAll rs).2.get "files" =
      some (.locations (policy.files (found ++ rs.filterMap (·.site?)))) ∧
    (e.performAll rs).2.get "file" =
      (policy.files (found ++ rs.filterMap (·.site?))).head?.map (.text ·.file) ∧
    (e.performAll rs).2.get "line" =
      (policy.files (found ++ rs.filterMap (·.site?))).head?.map
        (fun l => .int (Int64.ofInt ((l.line.toNat : Int).bmod UInt64.size))) ∧
    (∀ key ∈ DerivedKey.keys, ∀ value,
      (e.performAll rs).2.perform (.set key value) = (.flag false, (e.performAll rs).2)) ∧
    ∀ key ∉ DerivedKey.keys,
      (e.performAll rs).2.get key = (e.performAll rs).2.attributes.get key ∧
      ∀ value, (e.performAll rs).2.perform (.set key value) =
        (((e.performAll rs).2.attributes.perform (.set key value)).1,
          { (e.performAll rs).2 with
            attributes := ((e.performAll rs).2.attributes.perform (.set key value)).2 }) := by
  have hholds := Ledger.holds_ofRecords policy (found ++ rs.filterMap (·.site?))
  rw [← ledger_performAll h rs] at hholds
  obtain ⟨hfiles, hfile, hline⟩ := get_of_holds hholds
  refine ⟨?_, ?_, hfiles, hfile, hline, fun key hkey => ?_, fun key hkey => ?_⟩
  · rw [performAll_eq]
    rfl
  · rw [performAll_eq]
    rfl
  · exact perform_set_of_derived (DerivedKey.isSome_ofKey?_iff.mpr hkey) _
  · have hother := DerivedKey.ofKey?_eq_none_iff.mpr hkey
    refine ⟨?_, perform_set_of_not_derived hother _⟩
    rw [get, hother]

/-- A slot named as a derived key is not read, and a line past the signed numbers comes out negative. -/
theorem derives_from_sites_of_slot_named_file :
    (fun e : Entity => (e.get "file", e.get "line", e.attributes.get "file"))
        ((Registry.rootEntity .latestDocumented 1).performAll
          [.attribute (.set "file" (.text ['x'])), .addSite ⟨['a'], 1⟩ false,
            .addSite ⟨['b'], 18446744073709551615⟩ true]).2 =
      (some (.text ['b']), some (.int (-1)), some (.text ['x'])) := by
  obtain ⟨-, -, -, hfile, hline, -⟩ := derives_from_sites (Registry.rootEntity .latestDocumented 1)
    .latestDocumented [] rfl [.attribute (.set "file" (.text ['x'])), .addSite ⟨['a'], 1⟩ false,
      .addSite ⟨['b'], 18446744073709551615⟩ true]
  exact Prod.ext (hfile.trans (by decide)) (Prod.ext (hline.trans (by decide)) (by decide))

end Entity

end CodeCatalog
