import CodeCatalog.Text.Basic
import CodeCatalog.Text.Ranges

/-! White space: the characters with the property White_Space, and trimming by it. -/
namespace CodeCatalog

/-- The code points with the property White_Space. -/
def blankRanges : Text.Ranges :=
  [(0x09, 0x0D), (0x20, 0x20), (0x85, 0x85), (0xA0, 0xA0), (0x1680, 0x1680), (0x2000, 0x200A),
   (0x2028, 0x2029), (0x202F, 0x202F), (0x205F, 0x205F), (0x3000, 0x3000)]

/-- White space, also beyond ASCII. -/
def isBlank (c : Char) : Bool :=
  blankRanges.contains c.toNat

namespace Text

def trimStart (t : Text) : Text :=
  t.dropWhile isBlank

def trimEnd (t : Text) : Text :=
  dropTrailing isBlank t

def trim (t : Text) : Text :=
  strip isBlank t

/-- Whether a text has nothing but white space. -/
def allBlank (t : Text) : Bool :=
  t.all isBlank

@[simp] theorem trimStart_nil : trimStart [] = [] := rfl

@[simp] theorem trimEnd_nil : trimEnd [] = [] := rfl

@[simp] theorem trim_nil : trim [] = [] := rfl

theorem trim_eq (t : Text) : trim t = trimEnd (trimStart t) := rfl

end Text

end CodeCatalog
