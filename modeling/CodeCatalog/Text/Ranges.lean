/-! Sets of code points as ascending lists of closed ranges. -/
namespace CodeCatalog.Text

/-- The code points of a character class, as closed ranges in ascending order. -/
abbrev Ranges := List (Nat × Nat)

namespace Ranges

/-- Whether a code point lies in one of the ranges. A range above it ends the search. -/
def contains : Ranges → Nat → Bool
  | [], _ => false
  | (low, high) :: rest, n => if n < low then false else n ≤ high || contains rest n

/-- Every range is nonempty, and a gap lies before the next one. -/
def ascending : Ranges → Bool
  | [] => true
  | [(low, high)] => low ≤ high
  | (low, high) :: (low', high') :: rest =>
    low ≤ high && high + 1 < low' && ascending ((low', high') :: rest)

end Ranges

end CodeCatalog.Text
