import AddressBook.Text.HiddenTable
import AddressBook.Text.Lowercase
/-!
# Quoted text

A text in double quotes, for messages to people. Quotes and backslashes stand after a backslash, as do
the letters for the tab, the line ends and NUL; characters without a shape of their own are written with
their hexadecimal number.
-/

namespace AddressBook.Text

/-- A character as it stands between quotes. -/
def shownInQuotes (c : Char) : List Char :=
  if c = '"' then ['\\', '"']
  else if c = '\\' then ['\\', '\\']
  else if c = '\t' then ['\\', 't']
  else if c = '\r' then ['\\', 'r']
  else if c = '\n' then ['\\', 'n']
  else if c = '\x00' then ['\\', '0']
  else if inRanges hiddenRanges c then ['\\', 'u', '{'] ++ Nat.toDigits 16 c.toNat ++ ['}']
  else [c]

def quoted (text : List Char) : List Char := '"' :: (text.flatMap shownInQuotes ++ ['"'])

end AddressBook.Text
