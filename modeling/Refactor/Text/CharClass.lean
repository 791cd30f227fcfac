import Refactor.Text.Property.Age
import Refactor.Text.Property.Alphabetic
import Refactor.Text.Property.Mark
import Refactor.Text.Property.Number

/-!
# Character classes

The classes of characters that names, statements and comments are cut by. Below `0x80` each
class is given by a rule, so that the tables are consulted only for other scripts. Letters and
numbers are those of Unicode 17.0; the digits and words that statements are cut into are those
of 16.0.

- `isBlank`: the property White_Space.
- `isAlphabetic`, `isNumeric`, `isAlphanumeric`: letters and numbers of any script.
- `isDigit`: decimal digits of any script.
- `isWordChar`: what a word may consist of (letters, marks, decimal digits, connectors, joiners).
- `isNameStart`: the ASCII letters and the underscore, with which an identifier begins.
-/

namespace Refactor.Text

/-- Whether one of the inclusive ranges holds `n`. -/
def inRanges (ranges : List (Nat × Nat)) (n : Nat) : Bool :=
  ranges.any fun range => range.1 ≤ n && n ≤ range.2

/-- The property White_Space. -/
def isBlank (c : Char) : Bool :=
  let n := c.toNat
  (9 ≤ n && n ≤ 13) || n == 0x20 || n == 0x85 || n == 0xA0 || n == 0x1680 ||
    (0x2000 ≤ n && n ≤ 0x200A) || n == 0x2028 || n == 0x2029 || n == 0x202F || n == 0x205F ||
    n == 0x3000

/-- The letters `A` to `Z` and `a` to `z`. -/
def isAsciiLetter (c : Char) : Bool :=
  ('A' ≤ c && c ≤ 'Z') || ('a' ≤ c && c ≤ 'z')

/-- The digits `0` to `9`. -/
def isAsciiDigit (c : Char) : Bool :=
  '0' ≤ c && c ≤ '9'

/-- The property Alphabetic. -/
def isAlphabetic (c : Char) : Bool :=
  if c.toNat < 0x80 then isAsciiLetter c else inRanges alphabeticRanges c.toNat

/-- Whether the code point is younger than the classes that statements are cut by. -/
def isRecent (c : Char) : Bool :=
  inRanges recentRanges c.toNat

/-- The general category Decimal Number, by Unicode 16.0. -/
def isDigit (c : Char) : Bool :=
  if c.toNat < 0x80 then isAsciiDigit c else inRanges decimalRanges c.toNat && !isRecent c

/-- The general category Number. -/
def isNumeric (c : Char) : Bool :=
  if c.toNat < 0x80 then isAsciiDigit c
  else inRanges decimalRanges c.toNat || inRanges otherNumberRanges c.toNat

/-- Alphabetic or numeric. -/
def isAlphanumeric (c : Char) : Bool :=
  isAlphabetic c || isNumeric c

/-- What a word consists of: the letters, marks, decimal digits, connectors and joiners of
Unicode 16.0. -/
def isWordChar (c : Char) : Bool :=
  if c.toNat < 0x80 then isAsciiLetter c || isAsciiDigit c || c == '_'
  else (inRanges alphabeticRanges c.toNat || inRanges markRanges c.toNat ||
    inRanges decimalRanges c.toNat || inRanges connectorRanges c.toNat ||
    inRanges joinControlRanges c.toNat) && !isRecent c

/-- What an identifier begins with: an ASCII letter or the underscore. -/
def isNameStart (c : Char) : Bool :=
  isAsciiLetter c || c == '_'

theorem isAsciiLetter_toNat_lt {c : Char} (h : isAsciiLetter c = true) : c.toNat < 0x80 := by
  simp only [isAsciiLetter, Bool.or_eq_true, Bool.and_eq_true, decide_eq_true_eq, Char.le_def,
    UInt32.le_iff_toNat_le] at h
  have hz : 'Z'.val.toNat = 90 := rfl
  have hz' : 'z'.val.toNat = 122 := rfl
  have hc : c.toNat = c.val.toNat := rfl
  omega

end Refactor.Text
