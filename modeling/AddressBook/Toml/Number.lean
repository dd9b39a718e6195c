import AddressBook.Number.Binary64
import AddressBook.Text.Reader
import AddressBook.Toml.Item
/-!
# TOML numbers and dates

Whole numbers fit 64 signed bits and may be hexadecimal, octal or binary; one underscore may stand
between two digits. A number with a point or an exponent must not be beyond the largest double. Dates are
checked against the calendar.
-/

namespace AddressBook.Toml

open Number (Binary64)
open Text (Reader isHexDigit valueOf spanDigits readDigits taken)

/-! ### Whole numbers -/

/-- Digits with single underscores between them, after a first digit. -/
def readMoreDigits (isDigit : Char → Bool) : Reader (List Char)
  | '_' :: c :: cs =>
      if isDigit c then (readMoreDigits isDigit cs).map fun (ds, cs) => (c :: ds, cs) else none
  | c :: cs =>
      if isDigit c then (readMoreDigits isDigit cs).map fun (ds, cs) => (c :: ds, cs)
      else if c = '_' then none
      else some ([], c :: cs)
  | [] => some ([], [])

/-- Digits with single underscores between them. -/
def readDigitGroup (isDigit : Char → Bool) : Reader (List Char)
  | c :: cs =>
      if isDigit c then (readMoreDigits isDigit cs).map fun (ds, cs) => (c :: ds, cs) else none
  | [] => none

def signed64? (n : Int) : Option Int := if -Nat.pow 2 63 ≤ n ∧ n < Nat.pow 2 63 then some n else none

/-- Reads a whole number in a base other than ten, whose mark has been read. -/
def readInBase (base : Nat) (isDigit : Char → Bool) : Reader Item := fun cs => do
  let (digits, cs) ← readDigitGroup isDigit cs
  let n ← signed64? (valueOf base digits)
  pure (.integer n, cs)

def readSign : List Char → Bool × List Char
  | '+' :: cs => (false, cs)
  | '-' :: cs => (true, cs)
  | cs => (false, cs)

/-- Decimal digits without a needless leading zero. -/
def readDecimal : Reader (List Char)
  | '0' :: cs => some (['0'], cs)
  | cs => readDigitGroup Char.isDigit cs

/-! ### Numbers with a point or an exponent -/

def readFraction : Reader (List Char)
  | '.' :: cs => readDigitGroup Char.isDigit cs
  | cs => some ([], cs)

def readExponent : Reader Int
  | 'e' :: cs | 'E' :: cs =>
      let (negative, cs) := readSign cs
      (readDigitGroup Char.isDigit cs).map fun (ds, cs) =>
        let magnitude : Int := valueOf 10 ds
        (if negative then -magnitude else magnitude, cs)
  | cs => some (0, cs)

/-- Whether the number is below the first one that is rounded to infinity; below zero any is. -/
def isFinite (negative : Bool) (digits : Nat) (exponent : Int) : Bool :=
  negative || (Binary64.ofDecimal? false digits exponent).isSome

/-- Reads a number in base ten, with the text where it started. -/
def readDecimalNumber (start : List Char) : Reader Item := fun cs => do
  let (negative, cs) := readSign cs
  let (whole, cs) ← readDecimal cs
  let (fraction, afterFraction) ← readFraction cs
  let (exponent, rest) ← readExponent afterFraction
  if rest.length = cs.length then
    let n ← signed64? (if negative then -(valueOf 10 whole : Int) else valueOf 10 whole)
    pure (.integer n, cs)
  else if isFinite negative (valueOf 10 (whole ++ fraction)) (exponent - fraction.length) then
    pure (.float (String.ofList (taken start rest)), rest)
  else none

def readNumber : Reader Item := fun cs =>
  match cs with
  | '0' :: 'x' :: cs => readInBase 16 isHexDigit cs
  | '0' :: 'o' :: cs => readInBase 8 (fun c => '0' ≤ c && c ≤ '7') cs
  | '0' :: 'b' :: cs => readInBase 2 (fun c => c == '0' || c == '1') cs
  | _ =>
      match (readSign cs).2 with
      | 'i' :: 'n' :: 'f' :: rest | 'n' :: 'a' :: 'n' :: rest =>
          some (.float (String.ofList (taken cs rest)), rest)
      | _ => readDecimalNumber cs cs

/-! ### Dates and times -/

/-- A number of two digits in a range. -/
def readPair (least most : Nat) : Reader Nat := fun cs =>
  (readDigits 2 cs).filter fun (n, _) => least ≤ n && n ≤ most

def expect? (c : Char) : List Char → Option (List Char)
  | d :: cs => if d = c then some cs else none
  | [] => none

def daysIn (year month : Nat) : Nat :=
  if month = 2 then
    if year % 4 = 0 ∧ (year % 100 ≠ 0 ∨ year % 400 = 0) then 29 else 28
  else if month = 4 ∨ month = 6 ∨ month = 9 ∨ month = 11 then 30
  else 31

def afterDate? (cs : List Char) : Option (List Char) := do
  let (year, cs) ← readDigits 4 cs
  let cs ← expect? '-' cs
  let (month, cs) ← readPair 1 12 cs
  let cs ← expect? '-' cs
  let (_, cs) ← readPair 1 (daysIn year month) cs
  pure cs

/-- The text after the digits of a fraction of a second, if there is one. -/
def afterSecondFraction? : List Char → Option (List Char)
  | '.' :: cs =>
      match spanDigits cs with
      | ([], _) => none
      | (_, rest) => some rest
  | cs => some cs

def afterTime? (cs : List Char) : Option (List Char) := do
  let (_, cs) ← readPair 0 23 cs
  let cs ← expect? ':' cs
  let (_, cs) ← readPair 0 59 cs
  let cs ← expect? ':' cs
  let (_, cs) ← readPair 0 60 cs
  afterSecondFraction? cs

/-- The text after the distance from universal time. -/
def afterOffset? : List Char → Option (List Char)
  | 'Z' :: cs | 'z' :: cs => some cs
  | '+' :: cs | '-' :: cs => do
      let (_, cs) ← readPair 0 23 cs
      let cs ← expect? ':' cs
      let (_, cs) ← readPair 0 59 cs
      pure cs
  | _ => none

/-- The text after a time that follows a date, if there is one, and after its offset. -/
def afterDateTime (cs : List Char) : List Char :=
  let time := match cs with
    | 'T' :: cs | 't' :: cs | ' ' :: cs => afterTime? cs
    | _ => none
  match time with
  | none => cs
  | some cs => (afterOffset? cs).getD cs

/-- Reads a date, a date with a time, or a time. -/
def readDateTime : Reader Item := fun cs =>
  ((afterDate? cs).map afterDateTime <|> afterTime? cs).map fun rest =>
    (.dateTime (String.ofList (taken cs rest)), rest)

end AddressBook.Toml
