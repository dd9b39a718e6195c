import AddressBook.Http.MediaType
import AddressBook.Text.Utf8
/-!
# Multipart forms

The body of a form is a sequence of parts with a boundary before each of them and after the last. A part
has headers, an empty line and its content, which ends at the next line break with the boundary. Text
before the first boundary and after the closing one is passed over.

A body that is damaged still has the parts before the damage; `read` answers them together with whether
the closing boundary was reached.
-/

namespace AddressBook.Http

open Text (Bytes)

/-- A part of a form. -/
structure Part where
  name : Option String
  fileName : Option String
  content : Bytes
deriving DecidableEq, Repr

namespace Multipart

/-! ### Bytes -/

/-- The bytes before and after the first place where a pattern stands. -/
def cutAt? (pattern : Bytes) : Bytes → Option (Bytes × Bytes)
  | [] => if pattern.isEmpty then some ([], []) else none
  | b :: rest =>
      if pattern.isPrefixOf (b :: rest) then some ([], (b :: rest).drop pattern.length)
      else (cutAt? pattern rest).map fun (before, after) => (b :: before, after)

def dashes : Bytes := [0x2D, 0x2D]

def lineBreak : Bytes := [0x0D, 0x0A]

def isPadding (b : UInt8) : Bool := b == 0x20 || b == 0x09

def isSpace (b : UInt8) : Bool := b == 0x20 || b == 0x09 || b == 0x0A || b == 0x0C || b == 0x0D

/-! ### Headers -/

/-- A header: its name in lower case and its value. -/
abbrev Header := String × Bytes

def isNameByte (b : UInt8) : Bool := b < 0x80 && isTokenChar (Char.ofNat b.toNat)

def isValueByte (b : UInt8) : Bool := (0x20 ≤ b && b != 0x7F) || b == 0x09

/-- The bytes after the end of a line. -/
def afterLine? : Bytes → Option Bytes
  | 0x0A :: rest => some rest
  | 0x0D :: 0x0A :: rest => some rest
  | _ => none

def asciiText (bytes : Bytes) : List Char := bytes.map fun b => Char.ofNat b.toNat

def readHeader (bytes : Bytes) : Option (Header × Bytes) :=
  match bytes.takeWhile isNameByte, bytes.dropWhile isNameByte with
  | [], _ => none
  | name, 0x3A :: rest =>
      let rest := rest.dropWhile isPadding
      let value := ((rest.takeWhile isValueByte).reverse.dropWhile isPadding).reverse
      (afterLine? (rest.dropWhile isValueByte)).map fun rest =>
        ((String.ofList (Text.lowerAscii (asciiText name)), value), rest)
  | _, _ => none

def headerLimit : Nat := 32

/-- Reads headers up to the empty line. -/
def readHeaders : Nat → Bytes → Option (List Header)
  | limit, bytes =>
      match afterLine? bytes with
      | some _ => some []
      | none =>
          match limit with
          | 0 => none
          | limit + 1 => do
              let (header, rest) ← readHeader bytes
              let others ← readHeaders limit rest
              pure (header :: others)

/-! ### Attributes of the disposition -/

/-- The bytes up to the closing quote; a backslash keeps a quote from closing. -/
def readQuoted : Bytes → Option Bytes
  | [] => none
  | 0x22 :: _ => some []
  | 0x5C :: 0x22 :: rest => (readQuoted rest).map (0x22 :: ·)
  | b :: rest => (readQuoted rest).map (b :: ·)

/-- The value after an equals sign: in quotes, or up to a semicolon or a space. -/
def attributeValue (bytes : Bytes) : Option Bytes :=
  match bytes with
  | 0x22 :: rest => readQuoted rest
  | _ => some (bytes.takeWhile fun b => b != 0x3B && b != 0x20)

/--
The value of an attribute. Its name stands at the start, or after a semicolon or white space; where it
stands after another character it is passed over, and what follows it counts as a start. The first place
where the name stands decides: without an equals sign there, the attribute has no value, whatever follows.
-/
def attribute? (name : Bytes) : Nat → Bytes → Option Bytes
  | 0, _ => none
  | fuel + 1, bytes =>
      match cutAt? name bytes with
      | none => none
      | some (before, after) =>
          if before.getLast?.all fun b => isSpace b || b == 0x3B then
            match after.dropWhile isSpace with
            | 0x3D :: value => attributeValue (value.dropWhile isSpace)
            | _ => none
          else attribute? name fuel after

/-- The text of an attribute of the disposition among headers; of equal headers the last one counts. -/
def dispositionText? (headers : List Header) (name : String) : Option String := do
  let disposition ← headers.reverse.lookup "content-disposition"
  let value ← attribute? (Text.Utf8.encodeString name) disposition.length disposition
  let text ← Text.Utf8.decode? value
  pure (String.ofList text)

def partOf (headers : List Header) (content : Bytes) : Part :=
  { name := dispositionText? headers "name", fileName := dispositionText? headers "filename", content }

/-! ### Parts -/

/-- The bytes of a part, from the end of the boundary line on. -/
def readPart (boundary : Bytes) (bytes : Bytes) : Option (Part × Bytes) := do
  let (head, rest) ← cutAt? (lineBreak ++ lineBreak) bytes
  let headers ← readHeaders headerLimit (head ++ lineBreak ++ lineBreak)
  let (content, rest) ← cutAt? (lineBreak ++ dashes ++ boundary) rest
  pure (partOf headers content, rest)

/-- The parts after a boundary, and whether the closing boundary was reached. -/
def readParts (boundary : Bytes) : Nat → Bytes → List Part × Bool
  | 0, _ => ([], false)
  | fuel + 1, bytes =>
      if dashes.isPrefixOf bytes then ([], true)
      else if bytes.length < 2 then ([], false)
      else
        match bytes.dropWhile isPadding with
        | 0x0D :: 0x0A :: rest =>
            match readPart boundary rest with
            | none => ([], false)
            | some (part, rest) =>
                let (parts, closed) := readParts boundary fuel rest
                (part :: parts, closed)
        | _ => ([], false)

/-- The parts of a body, and whether the closing boundary was reached. -/
def read (boundary : String) (body : Bytes) : List Part × Bool :=
  let boundary := Text.Utf8.encodeString boundary
  match cutAt? (dashes ++ boundary) body with
  | none => ([], false)
  | some (_, rest) => readParts boundary (body.length + 1) rest

end Multipart

end AddressBook.Http
