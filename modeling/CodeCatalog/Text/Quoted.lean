import CodeCatalog.Text.Basic
import CodeCatalog.Text.Combining
import CodeCatalog.Text.Unprintable

/-! Quoted text, in which every character can be told apart. -/
namespace CodeCatalog.Text

/-- A code point in hexadecimal, without leading zeros. -/
def escapedPoint (c : Char) : Text :=
  ['\\', 'u', '{'] ++ Nat.toDigits 16 c.toNat ++ ['}']

/-- Quotes and backslashes are escaped by a letter, as are the commonest controls. A character that
would not show, or would change the look of its neighbour, stands by its code point. -/
def quotedChar (c : Char) : Text :=
  if c = '"' then ['\\', '"']
  else if c = '\\' then ['\\', '\\']
  else if c = '\n' then ['\\', 'n']
  else if c = '\r' then ['\\', 'r']
  else if c = '\t' then ['\\', 't']
  else if c = '\x00' then ['\\', '0']
  else if isCombining c || isUnprintable c then escapedPoint c
  else [c]

/-- A text between double quotes. -/
def quoted (t : Text) : Text :=
  '"' :: (t.flatMap quotedChar ++ ['"'])

end CodeCatalog.Text
