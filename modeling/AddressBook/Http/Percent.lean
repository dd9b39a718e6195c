import AddressBook.Text.Reader
import AddressBook.Text.Utf8
/-!
# Percent encoding

A percent sign and two hexadecimal digits stand for a byte. A percent sign that is not followed by two
digits stands for itself.
-/

namespace AddressBook.Http.Percent

open Text (Bytes hexValue?)

def hexByte? (b : UInt8) : Option Nat := if b < 0x80 then hexValue? (Char.ofNat b.toNat) else none

/-- The bytes that encoded bytes stand for. -/
def decodeBytes : Bytes → Bytes
  | 0x25 :: a :: b :: rest =>
      match hexByte? a, hexByte? b with
      | some high, some low => UInt8.ofNat (16 * high + low) :: decodeBytes rest
      | _, _ => 0x25 :: decodeBytes (a :: b :: rest)
  | b :: rest => b :: decodeBytes rest
  | [] => []

/-- The text that an encoded text stands for, if its bytes are sound. -/
def decode? (text : List Char) : Option (List Char) :=
  Text.Utf8.decode? (decodeBytes (Text.Utf8.encode text))

end AddressBook.Http.Percent
