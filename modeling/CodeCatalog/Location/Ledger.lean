import CodeCatalog.Location.Basic

/-! The declaration sites of an entity, and which of them is canonical. -/
namespace CodeCatalog

/-- Which site of an entity is the canonical one. -/
inductive CanonicalPolicy where
  /-- The last site found that is documented. -/
  | latestDocumented
  /-- The first site found that is documented. -/
  | firstDocumented
  /-- The first site found. -/
  | firstDiscovered
deriving DecidableEq

/-- The sites of an entity. -/
structure Ledger where
  policy : CanonicalPolicy
  /-- All sites, in the order they were found. -/
  sites : List Location := []
  /-- The position of the site that the policy has chosen, if it has chosen one. -/
  chosen : Option Nat := none
deriving DecidableEq

namespace Ledger

/-- The choice of a policy when a site is found at a position. -/
def choose (policy : CanonicalPolicy) (chosen : Option Nat) (position : Nat) (documented : Bool) :
    Option Nat :=
  match policy, documented with
  | .latestDocumented, true => some position
  | .firstDocumented, true => chosen.or (some position)
  | _, _ => chosen

/-- Adds a site. -/
def record (l : Ledger) (site : Location) (documented : Bool) : Ledger :=
  { l with
    sites := l.sites ++ [site]
    chosen := choose l.policy l.chosen l.sites.length documented }

/-- The position of the canonical site. Without a choice it is the first. -/
def canonicalIndex (l : Ledger) : Option Nat :=
  if l.sites = [] then none else some (l.chosen.getD 0)

/-- The canonical site. -/
def canonical (l : Ledger) : Option Location :=
  l.canonicalIndex.bind (l.sites[·]?)

/-- Whether the site found last is the canonical one. -/
def lastIsCanonical (l : Ledger) : Bool :=
  l.sites ≠ [] && l.canonicalIndex = some (l.sites.length - 1)

/-- All sites: the canonical one, and then the others in the order they were found. -/
def canonicalFirst (l : Ledger) : List Location :=
  match l.canonicalIndex with
  | none => []
  | some i => l.sites[i]?.toList ++ l.sites.eraseIdx i

@[simp] theorem sites_record (l : Ledger) (site : Location) (documented : Bool) :
    (l.record site documented).sites = l.sites ++ [site] := rfl

@[simp] theorem policy_record (l : Ledger) (site : Location) (documented : Bool) :
    (l.record site documented).policy = l.policy := rfl

end Ledger

end CodeCatalog
