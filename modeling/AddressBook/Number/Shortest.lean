import AddressBook.Number.Binary64
/-!
# Shortest decimal text of a double

A double is written with the fewest digits that read back as the same double. The reals that round to
it form an interval, whose ends belong to it exactly when the significand is even. On each decimal grid
of 1, 2, … 17 significant digits only the two neighbours of the value can be the nearest grid points in
the interval; the first grid with a neighbour inside wins, of two neighbours the nearer one, and a tie
goes to the even digit.

How the digits are laid out is a separate choice, `Layout`.
-/

namespace AddressBook.Number

/-- A positive decimal: `digits * 10 ^ exponent`. -/
structure Decimal where
  digits : Nat
  exponent : Int
deriving DecidableEq, Repr

namespace Binary64

/-- Four times the number of units in one, so that the ends of an interval are whole. -/
def quarterOne : Nat := 4 * one

def quarters (x : Binary64) : Nat := 4 * x.units

/-- The lower end of the interval that rounds to the number, in quarter units. -/
def lowerEnd (x : Binary64) : Nat :=
  x.quarters - (if x.significand = Nat.pow 2 52 ∧ 0 < x.lastPlace then 1 else 2) * Nat.pow 2 x.lastPlace

/-- The upper end of the interval that rounds to the number, in quarter units. -/
def upperEnd (x : Binary64) : Nat := x.quarters + 2 * Nat.pow 2 x.lastPlace

/-- Whether a quotient of quarter units rounds to the number. -/
def roundsHere (x : Binary64) (num den : Nat) : Bool :=
  if x.significand % 2 = 0 then x.lowerEnd * den ≤ num && num ≤ x.upperEnd * den
  else x.lowerEnd * den < num && num < x.upperEnd * den

/-- The number of places that a fraction of one has to be moved up to reach one. -/
def placesBelowOne (quarters : Nat) : Nat → Nat
  | 0 => 0
  | fuel + 1 => if quarterOne ≤ quarters then 0 else placesBelowOne (10 * quarters) fuel + 1

/-- The power of ten of the leading digit. -/
def leadingPower (x : Binary64) : Int :=
  if quarterOne ≤ x.quarters then
    ((Nat.toDigits 10 (x.quarters / quarterOne)).length : Int) - 1
  else - (placesBelowOne x.quarters 330 : Int)

/-- The nearest point of the grid of multiples of `10 ^ power` that reads back, if one does. -/
def onGrid? (x : Binary64) (power : Int) : Option Decimal :=
  let up := Nat.pow 10 power.toNat
  let down := Nat.pow 10 (-power).toNat
  let step := quarterOne * up
  let scaled := x.quarters * down
  let below := scaled / step
  let above := below + 1
  let belowHit := x.roundsHere (below * step) down
  let aboveHit := x.roundsHere (above * step) down
  let toBelow := scaled - below * step
  let toAbove := above * step - scaled
  let belowWins := toBelow < toAbove || (toBelow == toAbove && below % 2 == 0)
  if belowHit && (!aboveHit || belowWins) then some { digits := below, exponent := power }
  else if aboveHit then some { digits := above, exponent := power }
  else none

/-- The first hit among the grids that start at `power` and get finer. -/
def firstGrid (x : Binary64) (power : Int) : Nat → Decimal
  | 0 => { digits := 0, exponent := 0 }
  | fuel + 1 => (x.onGrid? power).getD (firstGrid x (power - 1) fuel)

/-- The shortest decimal that reads back as the magnitude of a number other than zero. -/
def shortest (x : Binary64) : Decimal := firstGrid x x.leadingPower 17

end Binary64

def dropTrailingZeros (digits : List Char) : List Char :=
  (digits.reverse.dropWhile (· == '0')).reverse

/-- Where positional notation ends. -/
structure Layout where
  /-- Positional from this power of ten of the leading digit on. -/
  least : Int
  /-- Positional below this power of ten of the leading digit. -/
  bound : Int
  /-- Written before a positive exponent. -/
  positiveSign : List Char

namespace Layout

def exponentText (layout : Layout) (exponent : Int) : List Char :=
  (if exponent < 0 then ['-'] else layout.positiveSign) ++ Nat.toDigits 10 exponent.natAbs

/-- Digits and the power of ten of the first one, laid out. -/
def digitsText (layout : Layout) (digits : List Char) (power : Int) : List Char :=
  if power < layout.least || layout.bound ≤ power then
    let fraction := digits.drop 1
    digits.take 1 ++ (if fraction.isEmpty then [] else '.' :: fraction) ++
      'e' :: layout.exponentText power
  else if power < 0 then
    ['0', '.'] ++ List.replicate (power.natAbs - 1) '0' ++ digits
  else
    let whole := power.toNat + 1
    let fraction := digits.drop whole
    digits.take whole ++ List.replicate (whole - digits.length) '0' ++
      '.' :: (if fraction.isEmpty then ['0'] else fraction)

def text (layout : Layout) (x : Binary64) : List Char :=
  let sign := if x.negative then ['-'] else []
  if x.isZero then sign ++ ['0', '.', '0']
  else
    let decimal := x.shortest
    let digits := Nat.toDigits 10 decimal.digits
    sign ++ layout.digitsText (dropTrailingZeros digits) (decimal.exponent + digits.length - 1)

end Layout

end AddressBook.Number
