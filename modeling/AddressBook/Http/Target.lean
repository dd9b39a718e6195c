/-!
# Targets of requests

The target of a request is a path with an optional query. It is absolute if a scheme and an authority, with
`://` between them, stand before the path, which is then a slash if it is left out. Neither scheme nor
authority matters to what the request leads to. Every other target, an asterisk or an authority alone,
has no path.
-/

namespace AddressBook.Http.Target

def isSchemeChar (c : Char) : Bool := c.isAlphanum || c == '+' || c == '-' || c == '.'

def endsAuthority (c : Char) : Bool := c == '/' || c == '?' || c == '#'

/-- What follows the scheme and the authority of an absolute target. -/
def afterAuthority? (target : List Char) : Option (List Char) :=
  match target.dropWhile isSchemeChar with
  | ':' :: '/' :: '/' :: rest => some (rest.dropWhile (!endsAuthority ·))
  | _ => none

def cutQuery (text : List Char) : List Char := text.takeWhile fun c => c != '?' && c != '#'

/-- The path of a target; empty if it has none. -/
def path (target : String) : List Char :=
  match target.toList with
  | '/' :: rest => '/' :: cutQuery rest
  | cs =>
      match (afterAuthority? cs).map cutQuery with
      | none => []
      | some [] => ['/']
      | some path => path

end AddressBook.Http.Target
