/-!
# UTF-8

Bytes are read as a list of pieces: a piece is a character, or a fault that covers the longest start of
a character that the next byte cannot continue. Text that must be sound is read with `decode?`, the
sound start of a text with `decodeStart`, and text that is only shown with `decodeLossy`, which puts one
replacement character for each fault.
-/

namespace AddressBook.Text

abbrev Bytes := List UInt8

namespace Utf8

def encode (cs : List Char) : Bytes := cs.flatMap String.utf8EncodeChar

def encodeString (s : String) : Bytes := encode s.toList

def isContinuation (b : UInt8) : Bool := 0x80 ≤ b && b < 0xC0

/-- Whether a byte may follow a leading byte: no overlong form, no surrogate, nothing above U+10FFFF. -/
def isSecond (lead b : UInt8) : Bool :=
  isContinuation b &&
    (if lead = 0xE0 then 0xA0 ≤ b
     else if lead = 0xED then b < 0xA0
     else if lead = 0xF0 then 0x90 ≤ b
     else if lead = 0xF4 then b < 0x90
     else true)

/-- The six bits of a continuation byte. -/
def low (b : UInt8) : Nat := b.toNat % 64

/-- The pieces that bytes are made of; `none` is a fault. -/
def pieces : Bytes → List (Option Char)
  | [] => []
  | a :: rest =>
      if a < 0x80 then some (Char.ofNat a.toNat) :: pieces rest
      else if 0xC2 ≤ a ∧ a < 0xE0 then
        match rest with
        | [] => [none]
        | b :: rest =>
            if isContinuation b then
              some (Char.ofNat ((a.toNat - 0xC0) * 64 + low b)) :: pieces rest
            else none :: pieces (b :: rest)
      else if 0xE0 ≤ a ∧ a < 0xF0 then
        match rest with
        | [] => [none]
        | b :: rest =>
            if isSecond a b then
              match rest with
              | [] => [none]
              | c :: rest =>
                  if isContinuation c then
                    some (Char.ofNat (((a.toNat - 0xE0) * 64 + low b) * 64 + low c)) :: pieces rest
                  else none :: pieces (c :: rest)
            else none :: pieces (b :: rest)
      else if 0xF0 ≤ a ∧ a < 0xF5 then
        match rest with
        | [] => [none]
        | b :: rest =>
            if isSecond a b then
              match rest with
              | [] => [none]
              | c :: rest =>
                  if isContinuation c then
                    match rest with
                    | [] => [none]
                    | d :: rest =>
                        if isContinuation d then
                          some (Char.ofNat ((((a.toNat - 0xF0) * 64 + low b) * 64 + low c) * 64 + low d))
                            :: pieces rest
                        else none :: pieces (d :: rest)
                  else none :: pieces (c :: rest)
            else none :: pieces (b :: rest)
      else none :: pieces rest

/-- The text of bytes that are sound throughout. -/
def decode? (bytes : Bytes) : Option (List Char) := (pieces bytes).mapM id

/-- The text before the first fault. -/
def decodeStart (bytes : Bytes) : List Char :=
  ((pieces bytes).takeWhile Option.isSome).filterMap id

/-- The text with a replacement character for each fault. -/
def decodeLossy (bytes : Bytes) : List Char := (pieces bytes).map (·.getD '\uFFFD')

end Utf8

end AddressBook.Text
