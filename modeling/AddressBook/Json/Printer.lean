import AddressBook.Json.Basic
import AddressBook.Number.Shortest
/-!
# JSON text

Two texts of a value: the compact one without any blank, and the indented one with two spaces a level,
one item or member a line, and empty arrays and objects as `[]` and `{}`.

In strings only the quote, the backslash and the control characters below the space are escaped. A
double has the fewest digits that read back, positional from `0.00001` up to sixteen whole digits.
-/

namespace AddressBook.Json

open Number (Binary64 Layout)

/-! ### Scalars -/

/-- The escape of a control character that has no letter of its own. -/
def unicodeEscape (c : Char) : List Char :=
  let digits := Nat.toDigits 16 c.toNat
  ['\\', 'u'] ++ List.replicate (4 - digits.length) '0' ++ digits

/-- A character as it stands in a string. -/
def escape (c : Char) : List Char :=
  if c = '"' then ['\\', '"']
  else if c = '\\' then ['\\', '\\']
  else if c = '\x08' then ['\\', 'b']
  else if c = '\x0c' then ['\\', 'f']
  else if c = '\n' then ['\\', 'n']
  else if c = '\r' then ['\\', 'r']
  else if c = '\t' then ['\\', 't']
  else if c.toNat < 0x20 then unicodeEscape c
  else [c]

def quoted (s : String) : List Char := '"' :: (s.toList.flatMap escape ++ ['"'])

/-- Doubles are positional from `0.00001` on and below `1e+16`, and exponents carry their sign. -/
def floatLayout : Layout := { least := -5, bound := 16, positiveSign := ['+'] }

def intText (n : Int) : List Char :=
  (if n < 0 then ['-'] else []) ++ Nat.toDigits 10 n.natAbs

/-! ### Compact text -/

mutual

def compactChars : Json → List Char
  | null => "null".toList
  | bool true => "true".toList
  | bool false => "false".toList
  | int n => intText n
  | float x => floatLayout.text x
  | str s => quoted s
  | arr items => '[' :: (compactItems items ++ [']'])
  | obj members => '{' :: (compactMembers members ++ ['}'])

def compactItems : List Json → List Char
  | [] => []
  | [item] => compactChars item
  | item :: rest => compactChars item ++ ',' :: compactItems rest

def compactMembers : List (String × Json) → List Char
  | [] => []
  | [(key, value)] => quoted key ++ ':' :: compactChars value
  | (key, value) :: rest => quoted key ++ ':' :: (compactChars value ++ ',' :: compactMembers rest)

end

def compact (value : Json) : String := String.ofList value.compactChars

/-! ### Indented text -/

def newLine (level : Nat) : List Char := '\n' :: List.replicate (2 * level) ' '

mutual

/-- The indented text of a value that stands at a level. -/
def prettyChars (level : Nat) : Json → List Char
  | null => "null".toList
  | bool true => "true".toList
  | bool false => "false".toList
  | int n => intText n
  | float x => floatLayout.text x
  | str s => quoted s
  | arr [] => ['[', ']']
  | arr (item :: rest) => '[' :: (prettyItems (level + 1) (item :: rest) ++ newLine level ++ [']'])
  | obj [] => ['{', '}']
  | obj (member :: rest) =>
      '{' :: (prettyMembers (level + 1) (member :: rest) ++ newLine level ++ ['}'])

/-- The items of an array, each on a line of its own. -/
def prettyItems (level : Nat) : List Json → List Char
  | [] => []
  | [item] => newLine level ++ prettyChars level item
  | item :: rest => newLine level ++ prettyChars level item ++ ',' :: prettyItems level rest

/-- The members of an object, each on a line of its own. -/
def prettyMembers (level : Nat) : List (String × Json) → List Char
  | [] => []
  | [(key, value)] => newLine level ++ quoted key ++ ':' :: ' ' :: prettyChars level value
  | (key, value) :: rest =>
      newLine level ++ quoted key ++ ':' :: ' ' :: (prettyChars level value ++
        ',' :: prettyMembers level rest)

end

def pretty (value : Json) : String := String.ofList (value.prettyChars 0)

end AddressBook.Json
