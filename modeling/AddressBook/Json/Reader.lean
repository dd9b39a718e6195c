import AddressBook.Json.Number
/-!
# Reading JSON text

A reader answers a value and the text after it, or nothing when the text does not start with a value.
Blanks are the space, the tab and the two line ends. Arrays and objects nest at most 127 deep: the
reader of each level is built from the reader of the level below, and the lowest one has no brackets.

`parse?` wants the whole text to be one value with blanks around it; `parseStart?` leaves what follows
the value unread.
-/

namespace AddressBook.Json

open Text (Reader hexValue?)

def isBlank (c : Char) : Bool := c == ' ' || c == '\t' || c == '\n' || c == '\r'

/-- The text without the blanks at its start. -/
def skipBlanks (cs : List Char) : List Char := cs.dropWhile isBlank

/-! ### Strings -/

def hexUnit? (a b c d : Char) : Option Nat := do
  let a ← hexValue? a
  let b ← hexValue? b
  let c ← hexValue? c
  let d ← hexValue? d
  pure (((a * 16 + b) * 16 + c) * 16 + d)

def isHighSurrogate (unit : Nat) : Bool := 0xD800 ≤ unit && unit < 0xDC00

def isLowSurrogate (unit : Nat) : Bool := 0xDC00 ≤ unit && unit < 0xE000

def ofSurrogates (high low : Nat) : Char :=
  Char.ofNat (0x10000 + (high - 0xD800) * 0x400 + (low - 0xDC00))

/-- The character that a letter after a backslash stands for. -/
def simpleEscape? : Char → Option Char
  | '"' => some '"'
  | '\\' => some '\\'
  | '/' => some '/'
  | 'b' => some '\x08'
  | 'f' => some '\x0c'
  | 'n' => some '\n'
  | 'r' => some '\r'
  | 't' => some '\t'
  | _ => none

/-- Reads the rest of a string whose opening quote has been read. -/
def readStringRest : Reader (List Char)
  | '"' :: cs => some ([], cs)
  | '\\' :: 'u' :: a :: b :: c :: d :: cs =>
      match hexUnit? a b c d with
      | none => none
      | some unit =>
          if isHighSurrogate unit then
            match cs with
            | '\\' :: 'u' :: e :: f :: g :: h :: cs =>
                match hexUnit? e f g h with
                | none => none
                | some low =>
                    if isLowSurrogate low then
                      (readStringRest cs).map fun (s, cs) => (ofSurrogates unit low :: s, cs)
                    else none
            | _ => none
          else if isLowSurrogate unit then none
          else (readStringRest cs).map fun (s, cs) => (Char.ofNat unit :: s, cs)
  | '\\' :: c :: cs =>
      match simpleEscape? c with
      | none => none
      | some c => (readStringRest cs).map fun (s, cs) => (c :: s, cs)
  | c :: cs =>
      if c = '\\' ∨ c.toNat < 0x20 then none
      else (readStringRest cs).map fun (s, cs) => (c :: s, cs)
  | [] => none

def readString : Reader String
  | '"' :: cs => (readStringRest cs).map fun (s, cs) => (String.ofList s, cs)
  | _ => none

/-! ### Values -/

/-- Reads a value that has no brackets. -/
def readScalar : Reader Json
  | 'n' :: 'u' :: 'l' :: 'l' :: cs => some (.null, cs)
  | 't' :: 'r' :: 'u' :: 'e' :: cs => some (.bool true, cs)
  | 'f' :: 'a' :: 'l' :: 's' :: 'e' :: cs => some (.bool false, cs)
  | '"' :: cs => (readString ('"' :: cs)).map fun (s, cs) => (.str s, cs)
  | cs => readNumber cs

/-- Reads the items of an array that is not empty, up to the closing bracket. -/
def readItems (item : Reader Json) : Nat → Reader (List Json)
  | 0, _ => none
  | fuel + 1, cs => do
      let (value, cs) ← item (skipBlanks cs)
      match skipBlanks cs with
      | ',' :: cs => (readItems item fuel cs).map fun (values, cs) => (value :: values, cs)
      | ']' :: cs => some ([value], cs)
      | _ => none

def readMember (item : Reader Json) : Reader (String × Json) := fun cs => do
  let (key, cs) ← readString (skipBlanks cs)
  match skipBlanks cs with
  | ':' :: cs => (item (skipBlanks cs)).map fun (value, cs) => ((key, value), cs)
  | _ => none

/-- Reads the members of an object that is not empty, up to the closing brace. -/
def readMembers (item : Reader Json) : Nat → Reader (List (String × Json))
  | 0, _ => none
  | fuel + 1, cs => do
      let (member, cs) ← readMember item cs
      match skipBlanks cs with
      | ',' :: cs => (readMembers item fuel cs).map fun (members, cs) => (member :: members, cs)
      | '}' :: cs => some ([member], cs)
      | _ => none

/-- Reads a value whose arrays and objects nest at most `depth` deep. -/
def readValue : Nat → Reader Json
  | 0 => readScalar
  | depth + 1 => fun cs =>
      match cs with
      | '[' :: cs =>
          match skipBlanks cs with
          | ']' :: cs => some (.arr [], cs)
          | cs => (readItems (readValue depth) cs.length cs).map fun (items, cs) => (.arr items, cs)
      | '{' :: cs =>
          match skipBlanks cs with
          | '}' :: cs => some (.obj [], cs)
          | cs => (readMembers (readValue depth) cs.length cs).map fun (entries, cs) =>
              (.obj (Assoc.ofList entries), cs)
      | cs => readScalar cs

/-- The deepest nesting that is read. -/
def depthLimit : Nat := 127

/-- The value at the start of a text. -/
def parseStart? (cs : List Char) : Option (Json × List Char) := readValue depthLimit (skipBlanks cs)

/-- The value that is the whole text. -/
def parse? (cs : List Char) : Option Json :=
  match parseStart? cs with
  | some (value, rest) => if (skipBlanks rest).isEmpty then some value else none
  | none => none

end AddressBook.Json
