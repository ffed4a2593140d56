import CodeCatalog.Text.Basic

/-! Locations: the files and lines where something is declared. -/
namespace CodeCatalog

structure Location where
  file : Text
  line : UInt64
deriving DecidableEq

namespace Location

/-- A location as text, `file:line`. -/
def render (l : Location) : Text :=
  l.file ++ ':' :: Nat.toDigits 10 l.line.toNat

/-- Files go by the code points of their names, lines of one file by their number. -/
def le (a b : Location) : Bool :=
  a.file < b.file || a.file = b.file && a.line ≤ b.line

/-- The locations in order; equal ones stay as they were. -/
def sorted (ls : List Location) : List Location :=
  ls.mergeSort le

/-- The locations without repetitions. -/
def distinct (ls : List Location) : List Location :=
  ls.eraseDups

end Location

end CodeCatalog
