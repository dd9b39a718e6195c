import AddressBook.Json.Basic
import AddressBook.Text.Reader
/-!
# JSON numbers

A number is a minus sign or none, digits without a needless leading zero, then a fraction or none, then
an exponent or none. Without fraction and exponent it is an `int` when it fits 64 bits; `-0` and larger
numbers are doubles.

The double of a literal is not always the nearest one. The leading digits that fit 64 bits are rounded
to a double, and that is multiplied or divided by the double nearest to the power of ten: two roundings.
A literal beyond the largest double is refused.
-/

namespace AddressBook.Json

open Number (Binary64)
open Text (Reader digitValue spanDigits valueOf)

/-- The first whole number that does not fit 64 unsigned bits. -/
def unsignedBound : Nat := Nat.pow 2 64

/-- Appends digits to a number for as long as it fits 64 bits; answers it and the digits left over. -/
def absorb (n : Nat) : List Char → Nat × List Char
  | [] => (n, [])
  | c :: rest =>
      if 10 * n + digitValue c < unsignedBound then absorb (10 * n + digitValue c) rest
      else (n, c :: rest)

/-! ### Doubles -/

/-- The double nearest to a power of ten that is not beyond the largest double. -/
def powerOfTen (exponent : Nat) : Binary64 := (Binary64.ofNat? false (Nat.pow 10 exponent)).getD .zero

/-- Divides by a power of ten, in steps of the largest one. -/
def scaleDown (x : Binary64) (exponent : Nat) : Option Binary64 :=
  if exponent ≤ 308 then x.div? (powerOfTen exponent)
  else if x.isZero then some x
  else (x.div? (powerOfTen 308)).bind fun y => scaleDown y (exponent - 308)
termination_by exponent

/-- The double of `significand * 10 ^ exponent`, rounded once for the significand and once a step. -/
def scale? (significand : Nat) (exponent : Int) : Option Binary64 :=
  (Binary64.ofNat? false significand).bind fun x =>
    if exponent < 0 then scaleDown x exponent.natAbs
    else if exponent ≤ 308 then x.mul? (powerOfTen exponent.toNat)
    else if x.isZero then some x
    else none

/-- The double of a literal with the given sign. -/
def floatOf? (negative : Bool) (significand : Nat) (exponent : Int) : Option Json :=
  (scale? significand exponent).map fun x => .float (if negative then x.neg else x)

/-! ### Literals -/

/-- The fraction after the whole digits: its digits, if there is a point, and the rest. -/
def readFraction : Reader (Option (List Char))
  | '.' :: cs =>
      match spanDigits cs with
      | ([], _) => none
      | (digits, rest) => some (some digits, rest)
  | cs => some (none, cs)

def readExponentDigits (negative : Bool) : Reader Int := fun cs =>
  match spanDigits cs with
  | ([], _) => none
  | (digits, rest) =>
      let magnitude : Int := valueOf 10 digits
      some (if negative then -magnitude else magnitude, rest)

def readExponent : Reader (Option Int)
  | 'e' :: cs | 'E' :: cs =>
      (match cs with
        | '+' :: cs => readExponentDigits false cs
        | '-' :: cs => readExponentDigits true cs
        | cs => readExponentDigits false cs).map fun (exponent, rest) => (some exponent, rest)
  | cs => some (none, cs)

/-- The whole digits: a lone zero, or digits that do not start with one. -/
def readWhole : Reader (List Char) := fun cs =>
  match spanDigits cs with
  | ([], _) => none
  | ('0' :: _ :: _, _) => none
  | (digits, rest) => some (digits, rest)

/-- A number without fraction and exponent, all of whose digits fit 64 bits. -/
def wholeNumber (negative : Bool) (n : Nat) : Option Json :=
  if !negative then some (.int n)
  else if n ≠ 0 ∧ n ≤ Nat.pow 2 63 then some (.int (-n))
  else floatOf? true n 0

def numberOfParts (negative : Bool) (whole : List Char) (fraction : Option (List Char))
    (exponent : Option Int) : Option Json :=
  let (significand, left) := absorb 0 whole
  match fraction, exponent with
  | none, none =>
      if left.isEmpty then wholeNumber negative significand
      else floatOf? negative significand left.length
  | _, _ =>
      let digits := fraction.getD []
      let (significand, ignored) := absorb significand digits
      let taken : Int := (digits.length : Int) - ignored.length
      floatOf? negative significand (left.length - taken + exponent.getD 0)

/-- Reads a number after its sign. -/
def readUnsigned (negative : Bool) : Reader Json := fun cs => do
  let (whole, cs) ← readWhole cs
  let (fraction, cs) ← readFraction cs
  let (exponent, cs) ← readExponent cs
  let value ← numberOfParts negative whole fraction exponent
  pure (value, cs)

def readNumber : Reader Json
  | '-' :: cs => readUnsigned true cs
  | cs => readUnsigned false cs

end AddressBook.Json
