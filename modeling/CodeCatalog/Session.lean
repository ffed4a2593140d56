import CodeCatalog.Registry.Declare
import CodeCatalog.Registry.Traverse

/-! Sessions: several registries that never issue the same handle. -/
namespace CodeCatalog

/-- The registries of a session go by numbers; a registry that is shared has several. -/
structure Session where
  /-- How many generations have been drawn. -/
  drawn : Nat := 0
  registries : Array Registry := #[]
  /-- For each number the position of its registry. -/
  numbers : Array Nat := #[]
deriving DecidableEq

namespace Session

/-- The registry with a number. -/
def registry? (s : Session) (number : Nat) : Option Registry :=
  s.numbers[number]?.bind (s.registries[·]?)

/-- The generation that is drawn next. They are counted from 1 on, without a bound: a counter of 32 bits,
which wraps, gives the same ones as long as fewer than 2 ^ 32 are drawn. -/
def nextGeneration (s : Session) : Nat :=
  s.drawn + 1

/-- Makes a registry, and gives its number. -/
def create (s : Session) (policy : CanonicalPolicy) : Nat × Session :=
  (s.numbers.size,
    { drawn := s.nextGeneration
      registries := s.registries.push (.create policy s.nextGeneration)
      numbers := s.numbers.push s.registries.size })

/-- Gives a registry one more number. -/
def share (s : Session) (number : Nat) : Option (Nat × Session) :=
  s.numbers[number]?.map fun position =>
    (s.numbers.size, { s with numbers := s.numbers.push position })

/-- Resets the registry with a number. -/
def reset (s : Session) (number : Nat) : Option Session :=
  s.numbers[number]?.map fun position =>
    { s with
      drawn := s.nextGeneration
      registries := s.registries.modify position (·.reset s.nextGeneration) }

/-- Runs an operation on the registry with a number. -/
def run {α : Type} (s : Session) (number : Nat) (operation : RegistryM α) :
    Option (Except RegistryError α × Session) := do
  let position ← s.numbers[number]?
  let r ← s.registries[position]?
  match operation.run r with
  | .ok a r' => return (.ok a, { s with registries := s.registries.setIfInBounds position r' })
  | .error e r' => return (.error e, { s with registries := s.registries.setIfInBounds position r' })

end Session

end CodeCatalog
