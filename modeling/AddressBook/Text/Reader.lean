/-!
# Readers and digits

A reader takes something from the start of a text and answers it with the rest, or nothing when the text
does not start with it. Beside that, this module reads the digits that every number format shares.
-/

namespace AddressBook.Text

/-- Reads something at the start of a text and answers it with the rest. -/
abbrev Reader (α : Type) := List Char → Option (α × List Char)

def digitValue (c : Char) : Nat := c.toNat - '0'.toNat

def hexValue? (c : Char) : Option Nat :=
  if '0' ≤ c ∧ c ≤ '9' then some (c.toNat - '0'.toNat)
  else if 'a' ≤ c ∧ c ≤ 'f' then some (c.toNat - 'a'.toNat + 10)
  else if 'A' ≤ c ∧ c ≤ 'F' then some (c.toNat - 'A'.toNat + 10)
  else none

def isHexDigit (c : Char) : Bool := (hexValue? c).isSome

def valueOf (base : Nat) (digits : List Char) : Nat :=
  digits.foldl (fun n c => base * n + (hexValue? c).getD 0) 0

/-- The decimal digits at the start of a text, and the rest. -/
def spanDigits (cs : List Char) : List Char × List Char :=
  (cs.takeWhile Char.isDigit, cs.dropWhile Char.isDigit)

/-- Reads exactly so many decimal digits. -/
def readDigits (count : Nat) : Reader Nat := fun cs =>
  let digits := cs.take count
  if digits.length = count ∧ digits.all Char.isDigit then some (valueOf 10 digits, cs.drop count)
  else none

/-- What a reader took from a text, given the rest that it left. -/
def taken (cs rest : List Char) : List Char := cs.take (cs.length - rest.length)

end AddressBook.Text
