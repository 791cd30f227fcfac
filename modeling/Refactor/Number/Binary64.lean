import Refactor.Text.CharClass

/-!
# Double-precision numbers, exactly

Similarity scores and thresholds are binary floating-point numbers of 64 bits. A finite one is
a whole number of units of `2^-1074`, the smallest positive value, so that comparing two of
them is comparing integers and no step of the arithmetic is approximate except the rounding
that the format itself prescribes.

- `ofRatio`: the number nearest a quotient of two naturals, ties to the even significand.
- `ofDecimal`: the number nearest a decimal.
- `lt`, `le`: the order, in which the number that is not a number has no place.
- `parse?`: the texts that denote a number.
-/

namespace Refactor

/-- A binary floating-point number of 64 bits. The units of a finite number are those of
`2^-1074`; the sign is kept apart, since zero has two. -/
inductive Binary64
  | nan
  | infinite (negative : Bool)
  | finite (negative : Bool) (units : Nat)
  deriving DecidableEq, Repr

namespace Binary64

/-! ## Rounding -/

/-- The quotient rounded to the nearest natural number, a tie to the even one. -/
def roundDiv (num den : Nat) : Nat :=
  let quotient := num / den
  let rest := num % den
  if 2 * rest > den ∨ (2 * rest = den ∧ quotient % 2 = 1) then quotient + 1 else quotient

/-- How many units the last place of a number of `units` units is worth, as an exponent of two.
A significand has 53 binary digits. -/
def placeOf (units : Nat) : Nat :=
  if units = 0 then 0 else Nat.log2 units - 52

/-- The representable number of units nearest `num / den`. -/
def roundUnits (num den : Nat) : Nat :=
  let place := Nat.pow 2 (placeOf (num / den))
  roundDiv num (den * place) * place

/-- The units of one. -/
def oneUnits : Nat := Nat.pow 2 1074

/-- The number of units from which on a magnitude is infinite. -/
def limitUnits : Nat := Nat.pow 2 2098

/-- A magnitude of so many units, infinite when they are too many. -/
def ofUnits (negative : Bool) (units : Nat) : Binary64 :=
  if units < limitUnits then finite negative units else infinite negative

/-- The number nearest `num / den`. -/
def ofRatio (num den : Nat) : Binary64 :=
  ofUnits false (roundUnits (num * oneUnits) den)

def zero : Binary64 := finite false 0

def one : Binary64 := ofRatio 1 1

/-- The number nearest `± digits * 10 ^ exponent`. Decimals beyond the range of the format are
settled by their size, before any power of ten is formed. -/
def ofDecimal (negative : Bool) (digits : Nat) (exponent : Int) : Binary64 :=
  if digits = 0 then finite negative 0
  else
    let size := ((Nat.toDigits 10 digits).length : Int) + exponent
    if size > 400 then infinite negative
    else if size < -400 then finite negative 0
    else if 0 ≤ exponent then
      ofUnits negative (roundUnits (digits * Nat.pow 10 exponent.toNat * oneUnits) 1)
    else
      ofUnits negative (roundUnits (digits * oneUnits) (Nat.pow 10 (-exponent).toNat))

/-! ## Order -/

/-- Where a number stands on the line: first the infinities, then the signed units. -/
def position? : Binary64 → Option (Int × Int)
  | nan => none
  | infinite negative => some (if negative then -1 else 1, 0)
  | finite negative units => some (0, if negative then -(units : Int) else units)

def lt (a b : Binary64) : Bool :=
  match a.position?, b.position? with
  | some p, some q => p.1 < q.1 || (p.1 == q.1 && p.2 < q.2)
  | _, _ => false

def le (a b : Binary64) : Bool :=
  match a.position?, b.position? with
  | some p, some q => p.1 < q.1 || (p.1 == q.1 && p.2 ≤ q.2)
  | _, _ => false

/-- Whether the number lies between zero and one, both included. -/
def inUnitInterval (a : Binary64) : Bool :=
  zero.le a && a.le one

/-! ## Reading -/

/-- A run of ASCII digits: its value, its length, and what follows. -/
def readDigits (cs : List Char) : Nat × Nat × List Char :=
  let digits := cs.takeWhile Text.isAsciiDigit
  (digits.foldl (fun n c => n * 10 + (c.toNat - 48)) 0, digits.length, cs.drop digits.length)

/-- An optional sign and what follows it. -/
def readSign : List Char → Bool × List Char
  | '-' :: rest => (true, rest)
  | '+' :: rest => (false, rest)
  | cs => (false, cs)

/-- The exponent that a decimal ends with, nothing standing for zero. -/
def readExponent? : List Char → Option Int
  | [] => some 0
  | c :: cs =>
    if c = 'e' ∨ c = 'E' then
      let (negative, rest) := readSign cs
      let (value, count, after) := readDigits rest
      if count = 0 ∨ after ≠ [] then none
      else some (if negative then -(value : Int) else value)
    else none

/-- A decimal: digits with an optional point among or beside them, then an exponent. -/
def readDecimal? (negative : Bool) (cs : List Char) : Option Binary64 :=
  let (whole, wholeCount, rest) := readDigits cs
  let (fraction, fractionCount, rest) :=
    match rest with
    | '.' :: rest => readDigits rest
    | rest => (0, 0, rest)
  if wholeCount + fractionCount = 0 then none
  else
    (readExponent? rest).map fun exponent =>
      ofDecimal negative (whole * Nat.pow 10 fractionCount + fraction) (exponent - fractionCount)

/-- The number that a text denotes: an optional sign, then a decimal or one of the words for
infinity and for no number, in either case. -/
def parse? (text : String) : Option Binary64 :=
  let (negative, rest) := readSign text.toList
  let word := rest.map Char.toLower
  if word = "inf".toList ∨ word = "infinity".toList then some (infinite negative)
  else if word = "nan".toList then some nan
  else readDecimal? negative rest

end Binary64

end Refactor
