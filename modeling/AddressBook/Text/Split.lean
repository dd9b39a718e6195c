/-!
# Cutting text at a separator

Text is cut at the first or the last separator, or at all of them. The pieces never hold the separator,
and joined with it they are the text again.
-/

namespace AddressBook.Text

/-- What stands before and after the first separator. -/
def cutFirst? (separator : Char) : List Char → Option (List Char × List Char)
  | [] => none
  | c :: rest =>
      if c = separator then some ([], rest)
      else (cutFirst? separator rest).map fun (before, after) => (c :: before, after)

/-- What stands before and after the last separator. -/
def cutLast? (separator : Char) : List Char → Option (List Char × List Char)
  | [] => none
  | c :: rest =>
      match cutLast? separator rest with
      | some (before, after) => some (c :: before, after)
      | none => if c = separator then some ([], rest) else none

/-- The pieces between the separators. -/
def split (separator : Char) : List Char → List (List Char)
  | [] => [[]]
  | c :: rest =>
      if c = separator then [] :: split separator rest
      else
        match split separator rest with
        | [] => [[c]]
        | piece :: pieces => (c :: piece) :: pieces


def lowerAscii (cs : List Char) : List Char := cs.map Char.toLower

end AddressBook.Text
