import Refactor.Number.Binary64

/-!
# Decimal texts of numbers

Two ways to write a number. `shortest` takes the fewest digits that read back as the number,
the nearest such decimal to it (a tie goes away from zero), and never an exponent. `fixed` takes
a given number of places and rounds the exact value, a tie to the even digit.
-/

namespace Refactor.Binary64

/-! ## The fewest digits -/

/-- The numbers that read back as a given one, in quarters of its unit: the bounds belong to
them exactly when the significand is even. -/
structure Window where
  low : Nat
  value : Nat
  high : Nat
  closed : Bool

/-- The window of a positive magnitude. Below a power of two the lower neighbour is only half
a place away. -/
def windowOf (units : Nat) : Window :=
  let place := placeOf units
  let step := Nat.pow 2 place
  let significand := units / step
  { low := 4 * units - (if significand = Nat.pow 2 52 ∧ 0 < place then step else 2 * step)
    value := 4 * units
    high := 4 * units + 2 * step
    closed := significand % 2 = 0 }

/-- A decimal `digits * 10 ^ exponent`. -/
structure Decimal where
  digits : Nat
  exponent : Int
  deriving DecidableEq

/-- The denominator of a window's bounds. -/
def quarterOne : Nat := 4 * oneUnits

/-- A decimal and a bound over a common denominator. -/
def scaled (d : Decimal) (bound : Nat) : Nat × Nat :=
  if 0 ≤ d.exponent then (d.digits * quarterOne * Nat.pow 10 d.exponent.toNat, bound)
  else (d.digits * quarterOne, bound * Nat.pow 10 (-d.exponent).toNat)

/-- Whether the decimal lies in the window. -/
def Window.holds (w : Window) (d : Decimal) : Bool :=
  let (x, low) := scaled d w.low
  let (_, high) := scaled d w.high
  if w.closed then low ≤ x && x ≤ high else low < x && x < high

/-- How far the decimal is from the window's value, over a denominator that depends on the
exponent alone. -/
def Window.distance (w : Window) (d : Decimal) : Nat :=
  let (x, value) := scaled d w.value
  (x - value) + (value - x)

/-- The decimals with the given exponent next to the window's value, from below and above. -/
def Window.neighbours (w : Window) (exponent : Int) : Decimal × Decimal :=
  let floor :=
    if 0 ≤ exponent then w.value / (quarterOne * Nat.pow 10 exponent.toNat)
    else w.value * Nat.pow 10 (-exponent).toNat / quarterOne
  (⟨floor, exponent⟩, ⟨floor + 1, exponent⟩)

/-- The nearest decimal of the window on one grid, if the grid has any. Of two that are equally
near the greater is taken. -/
def Window.nearest? (w : Window) (exponent : Int) : Option Decimal :=
  let (below, above) := w.neighbours exponent
  match w.holds below, w.holds above with
  | true, true => some (if w.distance below < w.distance above then below else above)
  | true, false => some below
  | false, true => some above
  | false, false => none

/-- The exponent of the leading decimal digit of a positive magnitude. -/
def leadExponent (units : Nat) : Int :=
  ((Nat.toDigits 10 (units * Nat.pow 10 400 / oneUnits)).length : Int) - 401

/-- The first grid, from the coarsest of the given number of digits on, that has a decimal in
the window. -/
def Window.search (w : Window) (lead : Int) : Nat → Nat → Decimal
  | 0, digits => (w.neighbours (lead - digits)).1
  | tries + 1, digits =>
    match w.nearest? (lead - digits) with
    | some d => d
    | none => w.search lead tries (digits + 1)

/-- The shortest decimal that reads back as a positive magnitude; seventeen digits always do. -/
def shortestDecimal (units : Nat) : Decimal :=
  (windowOf units).search (leadExponent units) 17 0

/-! ## Texts -/

/-- A decimal without exponent. -/
def Decimal.text (d : Decimal) : List Char :=
  let digits := Nat.toDigits 10 d.digits
  if 0 ≤ d.exponent then
    if d.digits = 0 then ['0'] else digits ++ List.replicate d.exponent.toNat '0'
  else
    let places := (-d.exponent).toNat
    let padded := List.replicate (places + 1 - digits.length) '0' ++ digits
    let whole := padded.take (padded.length - places)
    let fraction := padded.drop (padded.length - places)
    whole ++ ('.' :: fraction)

/-- Removes zeros at the end of a fraction, and a point that nothing follows. -/
def dropFractionZeros (cs : List Char) : List Char :=
  if cs.contains '.' then
    let kept := (cs.reverse.dropWhile (· == '0'))
    (match kept with
      | '.' :: rest => rest
      | kept => kept).reverse
  else cs

def signText (negative : Bool) (magnitude : List Char) : String :=
  String.ofList (if negative then '-' :: magnitude else magnitude)

/-- The fewest digits that read back as the number, without exponent. -/
def shortest : Binary64 → String
  | nan => "NaN"
  | infinite negative => signText negative "inf".toList
  | finite negative units =>
    signText negative <|
      if units = 0 then ['0'] else dropFractionZeros (shortestDecimal units).text

/-- The number with `places` digits after the point. -/
def fixed (places : Nat) : Binary64 → String
  | nan => "NaN"
  | infinite negative => signText negative "inf".toList
  | finite negative units =>
    let digits := roundDiv (units * Nat.pow 10 places) oneUnits
    signText negative (Decimal.text ⟨digits, -(places : Int)⟩)

/-- Scores and rates are written with six places. -/
def sixPlaces : Binary64 → String :=
  fixed 6

end Refactor.Binary64
