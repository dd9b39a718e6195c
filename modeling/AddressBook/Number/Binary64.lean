/-!
# Finite binary64 numbers

A finite double is a sign and a magnitude. The magnitude is kept as its 63 bits read as one natural
number, the biased exponent above the fraction, so that the order of the bits is the order of the
values. Every magnitude is a whole number of units of `2 ^ (-1074)`, the smallest positive double,
which lets all arithmetic here be exact arithmetic on `Nat` followed by one rounding.

The rounding is to nearest with ties to even: `Binary64.round?` gives the double nearest to a quotient of
units, or nothing when that is beyond the largest double.
-/

namespace AddressBook.Number

/-- The quotient rounded to the nearest whole number, a tie to the even one. -/
def roundHalfEven (num den : Nat) : Nat :=
  let quotient := num / den
  let rest := num % den
  if 2 * rest < den then quotient
  else if den < 2 * rest then quotient + 1
  else quotient + quotient % 2

/-- The first bit pattern that is no finite magnitude. -/
def infinityBits : Nat := 2047 * Nat.pow 2 52

/-- A finite double: its sign and the bits of its magnitude. -/
structure Binary64 where
  negative : Bool
  bits : Nat
  finite : bits < infinityBits := by decide
deriving DecidableEq, Repr

namespace Binary64

def zero : Binary64 := { negative := false, bits := 0 }

instance : Inhabited Binary64 := ⟨zero⟩

/-- The power of two, counted in units, that one step of the last place is worth. -/
def lastPlace (x : Binary64) : Nat := x.bits / Nat.pow 2 52 - 1

/-- The whole number that `lastPlace` scales: the fraction, with the leading one of a normal number. -/
def significand (x : Binary64) : Nat :=
  if x.bits < Nat.pow 2 52 then x.bits else Nat.pow 2 52 + x.bits % Nat.pow 2 52

/-- The magnitude as a whole number of units of `2 ^ (-1074)`. -/
def units (x : Binary64) : Nat := x.significand * Nat.pow 2 x.lastPlace

/-- The bits of the magnitude nearest to `num / den` units. -/
def roundBits (num den : Nat) : Nat :=
  let place := (num / den).log2 - 52
  place * Nat.pow 2 52 + roundHalfEven num (den * Nat.pow 2 place)

/-- The double nearest to `num / den` units, if it is finite. -/
def round? (negative : Bool) (num den : Nat) : Option Binary64 :=
  if h : roundBits num den < infinityBits then some { negative, bits := roundBits num den, finite := h }
  else none

/-- The number of units in one. -/
def one : Nat := Nat.pow 2 1074

def ofQuotient? (negative : Bool) (num den : Nat) : Option Binary64 := round? negative (num * one) den

def ofNat? (negative : Bool) (n : Nat) : Option Binary64 := ofQuotient? negative n 1

/-- The product, rounded once. -/
def mul? (x y : Binary64) : Option Binary64 :=
  round? (x.negative != y.negative) (x.units * y.units) one

/-- The quotient, rounded once; `y` is not zero. -/
def div? (x y : Binary64) : Option Binary64 :=
  round? (x.negative != y.negative) (x.units * one) y.units

def neg (x : Binary64) : Binary64 := { x with negative := !x.negative }

def isZero (x : Binary64) : Bool := x.bits == 0

/--
The double nearest to `digits * 10 ^ exponent`. A value far below the smallest double is zero and one far
above the largest is none, without computing the power.
-/
def ofDecimal? (negative : Bool) (digits : Nat) (exponent : Int) : Option Binary64 :=
  if digits = 0 then some { zero with negative }
  else
    let leading : Int := exponent + (Nat.toDigits 10 digits).length
    if leading < -330 then some { zero with negative }
    else if 310 < leading then none
    else if 0 ≤ exponent then ofNat? negative (digits * Nat.pow 10 exponent.toNat)
    else ofQuotient? negative digits (Nat.pow 10 exponent.natAbs)

end Binary64

end AddressBook.Number
