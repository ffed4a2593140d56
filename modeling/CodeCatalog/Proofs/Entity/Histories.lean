import CodeCatalog.Entity.Request
import CodeCatalog.Proofs.Location.Ledger

/-!
# Histories of an entity

Requests to an entity make two histories that do not meet, one of its attributes and one of its sites.
-/
namespace CodeCatalog

namespace EntityRequest

/-- The site that a request adds. -/
def site? : EntityRequest → Option (Location × Bool)
  | .addSite site documented => some (site, documented)
  | .get _ | .set _ _ | .attribute _ => none

/-- What a request asks of the attributes. A derived key is not written to them. -/
def attribute? : EntityRequest → Option AttributeRequest
  | .set key value => if (Entity.DerivedKey.ofKey? key).isSome then none else some (.set key value)
  | .attribute request => some request
  | .get _ | .addSite _ _ => none

end EntityRequest

namespace Entity

variable {e : Entity} {key : String}

theorem perform_set_of_derived (h : (DerivedKey.ofKey? key).isSome = true) (e : Entity)
    (value : AttributeValue) : e.perform (.set key value) = (.flag false, e) := by
  obtain ⟨derivedKey, hkey⟩ := Option.isSome_iff_exists.mp h
  simp only [perform, set?, hkey]

/-- Under any other key a write goes on to the attributes. -/
theorem perform_set_of_not_derived (h : DerivedKey.ofKey? key = none) (e : Entity)
    (value : AttributeValue) :
    e.perform (.set key value) = e.perform (.attribute (.set key value)) := by
  simp only [perform, set?, h, AttributeTable.perform]
  cases e.attributes.set? key value <;> rfl

theorem perform_eq (e : Entity) (r : EntityRequest) :
    (e.perform r).2 = { e with
      attributes := r.attribute?.elim e.attributes fun request => (e.attributes.perform request).2
      ledger := r.site?.elim e.ledger fun found => e.ledger.record found.1 found.2 } := by
  cases r with
  | set key value =>
      rw [EntityRequest.attribute?, EntityRequest.site?]
      split
      · next hderived => rw [perform_set_of_derived hderived]; rfl
      · next hother =>
          rw [perform_set_of_not_derived (by simpa using hother)]
          rfl
  | _ => rfl

/-- The attributes and the ledger go their ways, and nothing else changes. -/
theorem performAll_eq (e : Entity) (rs : List EntityRequest) :
    (e.performAll rs).2 = { e with
      attributes := (rs.filterMap (·.attribute?)).foldl (fun t r => (t.perform r).2) e.attributes
      ledger := (rs.filterMap (·.site?)).foldl (fun l found => l.record found.1 found.2) e.ledger } := by
  induction rs generalizing e with
  | nil => rfl
  | cons r rs ih =>
      change ((e.perform r).2.performAll rs).2 = _
      rw [ih, perform_eq]
      cases hattribute : r.attribute? <;> cases hsite : r.site? <;>
        simp only [List.filterMap_cons, hattribute, hsite] <;> rfl

theorem sites_performAll (e : Entity) (rs : List EntityRequest) :
    (e.performAll rs).2.ledger.sites = e.ledger.sites ++ (rs.filterMap (·.site?)).map (·.1) := by
  rw [performAll_eq]
  exact Ledger.sites_foldl_record _ _

end Entity

end CodeCatalog
