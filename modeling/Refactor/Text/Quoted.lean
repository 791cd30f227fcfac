import Refactor.Text.CharClass
import Refactor.Text.Property.Printable

/-!
# Quoted texts

A text between double quotes in which everything that does not show on its own is spelled
out: the quote and the backslash behind a backslash, the usual controls by a letter, and other
hidden characters by their code point in braces.
-/

namespace Refactor.Text

/-- Whether the character has a visible form of its own. -/
def isShown (c : Char) : Bool :=
  let n := c.toNat
  if n < 0x80 then 0x20 ≤ n && n < 0x7F
  else inRanges soundMarkRanges n ||
    !(inRanges hiddenRanges n || inRanges fillerRanges n || inRanges extendRanges n)

/-- How one character is written inside double quotes. -/
def quoteChar (c : Char) : List Char :=
  if c = '"' then ['\\', '"']
  else if c = '\\' then ['\\', '\\']
  else if c = '\n' then ['\\', 'n']
  else if c = '\r' then ['\\', 'r']
  else if c = '\t' then ['\\', 't']
  else if c.toNat = 0 then ['\\', '0']
  else if isShown c then [c]
  else ['\\', 'u', '\x7b'] ++ Nat.toDigits 16 c.toNat ++ ['\x7d']

/-- The text between double quotes. -/
def quoted (s : String) : String :=
  String.ofList ('"' :: (s.toList.flatMap quoteChar ++ ['"']))

end Refactor.Text
