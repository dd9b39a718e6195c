import AddressBook.Text.Reader
/-!
# TOML texts

Strings stand in quotes, with escapes, or in apostrophes, without; tripled, they run over several lines.
A line end inside a string is one line feed. Keys are bare words or strings of one line.
-/

namespace AddressBook.Toml

open Text (Reader isHexDigit valueOf)

/-! ### Blanks, comments and line ends -/

def isBlank (c : Char) : Bool := c == ' ' || c == '\t'

def skipBlanks (cs : List Char) : List Char := cs.dropWhile isBlank

def isCommentChar (c : Char) : Bool :=
  c == '\t' || (0x20 ≤ c.toNat && c.toNat ≤ 0x7E) || 0x80 ≤ c.toNat

def skipComment : List Char → List Char
  | '#' :: cs => cs.dropWhile isCommentChar
  | cs => cs

/-- The text after a line feed, with or without a carriage return before it. -/
def newLine? : List Char → Option (List Char)
  | '\n' :: cs => some cs
  | '\r' :: '\n' :: cs => some cs
  | _ => none

/-- The text after the end of a line, with the blanks and the comment before it. -/
def lineEnd? (cs : List Char) : Option (List Char) :=
  match skipComment (skipBlanks cs) with
  | [] => some []
  | rest => newLine? rest

/-- The text without blanks, line ends and comments; a comment must have a line end. -/
def skipFiller : Nat → List Char → List Char
  | 0, cs => cs
  | fuel + 1, cs =>
      match newLine? (skipComment (skipBlanks cs)) with
      | some rest => skipFiller fuel rest
      | none => skipBlanks cs

/-! ### Characters of strings -/

/-- Whether a character other than a line end may stand in a string as it is. -/
def isTextChar (c : Char) : Bool := isCommentChar c

/-- The character of a hexadecimal escape of so many digits. -/
def readHexEscape (count : Nat) : Reader Char := fun cs =>
  let digits := cs.take count
  let code := valueOf 16 digits
  if digits.length = count ∧ digits.all isHexDigit ∧ code.isValidChar then
    some (Char.ofNat code, cs.drop count)
  else none

/-- Reads the rest of an escape whose backslash has been read. -/
def readEscape : Reader Char
  | 'b' :: cs => some ('\x08', cs)
  | 'f' :: cs => some ('\x0c', cs)
  | 'n' :: cs => some ('\n', cs)
  | 'r' :: cs => some ('\r', cs)
  | 't' :: cs => some ('\t', cs)
  | '"' :: cs => some ('"', cs)
  | '\\' :: cs => some ('\\', cs)
  | 'u' :: cs => readHexEscape 4 cs
  | 'U' :: cs => readHexEscape 8 cs
  | _ => none

/-- The text without blanks and line ends. -/
def skipLines : Nat → List Char → List Char
  | 0, cs => cs
  | fuel + 1, cs =>
      match newLine? (skipBlanks cs) with
      | some rest => skipLines fuel rest
      | none => skipBlanks cs

/-- The text after a line end that a backslash takes out of a string, with the blanks around it. -/
def joinedLine? (cs : List Char) : Option (List Char) :=
  (newLine? (skipBlanks cs)).map fun rest => skipLines rest.length rest

/-! ### Strings of one line -/

/-- Reads a quoted string whose opening quote has been read. -/
def readQuoted : Nat → Reader (List Char)
  | 0, _ => none
  | fuel + 1, cs =>
      match cs with
      | '"' :: cs => some ([], cs)
      | '\\' :: cs => do
          let (c, cs) ← readEscape cs
          let (s, cs) ← readQuoted fuel cs
          pure (c :: s, cs)
      | c :: cs =>
          if isTextChar c then (readQuoted fuel cs).map fun (s, cs) => (c :: s, cs) else none
      | [] => none

/-- Reads a literal string whose opening apostrophe has been read. -/
def readLiteral : Reader (List Char)
  | '\'' :: cs => some ([], cs)
  | c :: cs => if isTextChar c then (readLiteral cs).map fun (s, cs) => (c :: s, cs) else none
  | [] => none

/-! ### Strings of several lines -/

/-- The text without a line end at its start. -/
def skipFirstLine (cs : List Char) : List Char := (newLine? cs).getD cs

/-- The end of a string of several lines: three quotes, after one or two that belong to it. -/
def closing? (quote : Char) : Reader (List Char)
  | a :: b :: c :: cs =>
      if a = quote ∧ b = quote ∧ c = quote then
        match cs with
        | d :: e :: rest =>
            if d = quote ∧ e = quote then some ([quote, quote], rest)
            else if d = quote then some ([quote], e :: rest)
            else some ([], cs)
        | [d] => if d = quote then some ([quote], []) else some ([], cs)
        | [] => some ([], [])
      else none
  | _ => none

/-- Reads a string in tripled quotes whose opening has been read. -/
def readLongQuoted : Nat → Reader (List Char)
  | 0, _ => none
  | fuel + 1, cs =>
      match closing? '"' cs with
      | some end_ => some end_
      | none =>
          match cs with
          | '\\' :: cs =>
              match joinedLine? cs with
              | some cs => readLongQuoted fuel cs
              | none => do
                  let (c, cs) ← readEscape cs
                  let (s, cs) ← readLongQuoted fuel cs
                  pure (c :: s, cs)
          | c :: rest =>
              match newLine? cs with
              | some cs => (readLongQuoted fuel cs).map fun (s, cs) => ('\n' :: s, cs)
              | none =>
                  if isTextChar c then (readLongQuoted fuel rest).map fun (s, cs) => (c :: s, cs)
                  else none
          | [] => none

/-- Reads a string in tripled apostrophes whose opening has been read. -/
def readLongLiteral : Nat → Reader (List Char)
  | 0, _ => none
  | fuel + 1, cs =>
      match closing? '\'' cs with
      | some end_ => some end_
      | none =>
          match newLine? cs with
          | some cs => (readLongLiteral fuel cs).map fun (s, cs) => ('\n' :: s, cs)
          | none =>
              match cs with
              | c :: cs =>
                  if isTextChar c then (readLongLiteral fuel cs).map fun (s, cs) => (c :: s, cs)
                  else none
              | [] => none

def readString : Reader String := fun cs =>
  let found := match cs with
    | '"' :: '"' :: '"' :: cs => readLongQuoted (cs.length + 1) (skipFirstLine cs)
    | '\'' :: '\'' :: '\'' :: cs => readLongLiteral (cs.length + 1) (skipFirstLine cs)
    | '"' :: cs => readQuoted (cs.length + 1) cs
    | '\'' :: cs => readLiteral cs
    | _ => none
  found.map fun (s, cs) => (String.ofList s, cs)

/-! ### Keys -/

def isBareKeyChar (c : Char) : Bool := c.isAlphanum || c == '_' || c == '-'

def readKeyPart : Reader String
  | '"' :: cs => (readQuoted (cs.length + 1) cs).map fun (s, cs) => (String.ofList s, cs)
  | '\'' :: cs => (readLiteral cs).map fun (s, cs) => (String.ofList s, cs)
  | cs =>
      match cs.takeWhile isBareKeyChar with
      | [] => none
      | key => some (String.ofList key, cs.dropWhile isBareKeyChar)

/-- Reads the parts of a key, with blanks around each. -/
def readKeyParts : Nat → Reader (List String)
  | 0, _ => none
  | fuel + 1, cs => do
      let (part, cs) ← readKeyPart (skipBlanks cs)
      match skipBlanks cs with
      | '.' :: cs => (readKeyParts fuel cs).map fun (parts, cs) => (part :: parts, cs)
      | cs => pure ([part], cs)

/-- The first number of parts, and the first depth of values, that is too many. -/
def depthBound : Nat := 80

def readKey : Reader (List String) := fun cs =>
  (readKeyParts (cs.length + 1) cs).filter fun (parts, _) => parts.length < depthBound

end AddressBook.Toml
