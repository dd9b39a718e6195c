import AddressBook.Text.Reader
import AddressBook.Text.Split
/-!
# Media types

A media type is a type and a subtype, whose last plus sign sets off a suffix, and parameters. Names are
in lower case; a value stands as it is or in quotes.
-/

namespace AddressBook.Http

open Text (Reader cutLast? lowerAscii)

structure MediaType where
  type : String
  subtype : String
  suffix : Option String := none
  parameters : List (String × String) := []
deriving DecidableEq, Repr

/-- Whether a character may stand in a name of a header or of a media type. -/
def isTokenChar (c : Char) : Bool := c.isAlphanum || "!#$%&'*+-.^_`|~".toList.contains c

namespace MediaType

def isQuotedChar (c : Char) : Bool := 31 < c.toNat && c.toNat != 127

/-- The characters up to a closing quote, the first of which may be a quote itself, and what follows. -/
def readQuotedValue : Reader (List Char)
  | first :: cs =>
      if !isQuotedChar first then none
      else
        let value := cs.takeWhile fun c => c != '"' && isQuotedChar c
        match cs.dropWhile fun c => c != '"' && isQuotedChar c with
        | '"' :: rest => some (first :: value, rest)
        | _ => none
  | [] => none

/-- The text after the semicolon that may follow a value in quotes. -/
def afterQuoted? (cs : List Char) : Option (List Char) :=
  match cs.dropWhile (· == ' ') with
  | [] => some []
  | ';' :: rest => some rest
  | _ => none

/-- Reads the value of a parameter and the semicolon after it. -/
def readValue : Reader (List Char)
  | '"' :: cs => do
      let (value, cs) ← readQuotedValue cs
      let rest ← afterQuoted? cs
      pure (value, rest)
  | cs =>
      let value := cs.takeWhile isTokenChar
      match cs.dropWhile isTokenChar with
      | [] => some (value, [])
      | ';' :: rest => if value.isEmpty then none else some (value, rest)
      | _ => none

/-- The name of a parameter and the text after its equals sign. -/
def readName : Reader (List Char) := fun cs =>
  match cs.takeWhile isTokenChar, cs.dropWhile isTokenChar with
  | [], _ => none
  | name, '=' :: rest => some (lowerAscii name, rest)
  | _, _ => none

/-- The parameters after the first semicolon. -/
def parameters? : Nat → List Char → Option (List (String × String))
  | 0, _ => none
  | fuel + 1, cs =>
      match cs.dropWhile (· == ' ') with
      | [] => some []
      | cs => do
          let (name, cs) ← readName cs
          let (value, cs) ← readValue cs
          let others ← parameters? fuel cs
          pure ((String.ofList name, String.ofList value) :: others)

/-- A subtype cut into itself and its suffix. -/
def cutSuffix (subtype : List Char) : List Char × Option String :=
  match cutLast? '+' subtype with
  | some (c :: before, after) => (c :: before, some (String.ofList after))
  | _ => (subtype, none)

def ofParts (type subtype : List Char) (parameters : List (String × String)) : MediaType :=
  let (subtype, suffix) := cutSuffix (lowerAscii subtype)
  { type := String.ofList (lowerAscii type), subtype := String.ofList subtype, suffix, parameters }

def parse? (text : List Char) : Option MediaType :=
  match text.takeWhile isTokenChar, text.dropWhile isTokenChar with
  | [], _ => none
  | type, '/' :: cs =>
      let subtype := cs.takeWhile isTokenChar
      match cs.dropWhile isTokenChar with
      | [] => some (ofParts type subtype [])
      | ';' :: rest =>
          if subtype.isEmpty then none
          else (parameters? (rest.length + 1) rest).map (ofParts type subtype)
      | _ => none
  | _, _ => none

/-- Whether a character may stand in a header value that is read as text. -/
def isVisible (c : Char) : Bool := (32 ≤ c.toNat && c.toNat < 127) || c == '\t'

def ofHeader? (header : Option String) : Option MediaType :=
  match header with
  | none => none
  | some value => if value.toList.all isVisible then parse? value.toList else none

/-- Whether the content is JSON: by its subtype, or by the suffix of its subtype. -/
def isJson (mediaType : MediaType) : Bool :=
  mediaType.type == "application" &&
    (mediaType.subtype == "json" || mediaType.suffix == some "json")

/-- The boundary between the parts of a form. -/
def boundary? (mediaType : MediaType) : Option String :=
  if mediaType.type = "multipart" ∧ mediaType.subtype = "form-data" then
    mediaType.parameters.lookup "boundary"
  else none

end MediaType

end AddressBook.Http
