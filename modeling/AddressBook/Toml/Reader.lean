import AddressBook.Toml.Number
import AddressBook.Toml.Text
/-!
# Reading TOML documents

A document is a sequence of lines: blank ones and comments, headers that open a table, and lines that set
a key of the table opened last. Values in brackets and braces nest less than eighty deep.
-/

namespace AddressBook.Toml

open Text (Reader)

/-! ### Values -/

/-- Reads the items of an array, up to the closing bracket; a comma may stand before it. -/
def readItems (value : Reader Item) : Nat → Reader (List Item)
  | 0, _ => none
  | fuel + 1, cs =>
      match skipFiller cs.length cs with
      | ']' :: cs => some ([], cs)
      | cs => do
          let (item, cs) ← value cs
          match skipFiller cs.length cs with
          | ',' :: cs => (readItems value fuel cs).map fun (items, cs) => (item :: items, cs)
          | ']' :: cs => pure ([item], cs)
          | _ => none

def readAssignment (value : Reader Item) : Reader (List String × Item) := fun cs => do
  let (keys, cs) ← readKey cs
  match cs with
  | '=' :: cs => (value (skipBlanks cs)).map fun (item, cs) => ((keys, item), cs)
  | _ => none

/-- Reads the assignments of a table in braces, up to the closing brace. -/
def readInline (value : Reader Item) : Nat → Entries → Reader Entries
  | 0, _, _ => none
  | fuel + 1, entries, cs => do
      let ((keys, item), cs) ← readAssignment value cs
      let entries ← setKey keys item .inlined entries
      match skipBlanks cs with
      | ',' :: cs => readInline value fuel entries cs
      | '}' :: cs => pure (entries, cs)
      | _ => none

/-- Reads a value without brackets and braces. -/
def readScalar : Reader Item := fun cs =>
  match cs with
  | '"' :: _ | '\'' :: _ => (readString cs).map fun (s, cs) => (.string s, cs)
  | 't' :: 'r' :: 'u' :: 'e' :: cs => some (.boolean true, cs)
  | 'f' :: 'a' :: 'l' :: 's' :: 'e' :: cs => some (.boolean false, cs)
  | _ => readDateTime cs <|> readNumber cs

/-- Reads a value whose brackets and braces nest at most `depth` deep. -/
def readValue : Nat → Reader Item
  | 0 => readScalar
  | depth + 1 => fun cs =>
      match cs with
      | '[' :: cs => (readItems (readValue depth) (cs.length + 1) cs).map fun (items, cs) =>
          (.array items, cs)
      | '{' :: cs =>
          match skipBlanks cs with
          | '}' :: cs => some (.table .inlined [], cs)
          | cs => (readInline (readValue depth) (cs.length + 1) [] cs).map fun (entries, cs) =>
              (.table .inlined entries, cs)
      | cs => readScalar cs

/-! ### Lines -/

/-- Reads a header: its key, and whether it opens an element of an array of tables. -/
def readHeader : Reader (Bool × List String)
  | '[' :: '[' :: cs => do
      let (keys, cs) ← readKey cs
      match cs with
      | ']' :: ']' :: cs => pure ((true, keys), cs)
      | _ => none
  | '[' :: cs => do
      let (keys, cs) ← readKey cs
      match cs with
      | ']' :: cs => pure ((false, keys), cs)
      | _ => none
  | _ => none

/-- Reads one line into a draft. -/
def readLine (draft : Draft) (cs : List Char) : Option (Draft × List Char) :=
  match cs with
  | '#' :: _ | '\n' :: _ | '\r' :: _ => (lineEnd? cs).map fun rest => (draft, rest)
  | '[' :: _ => do
      let ((repeated, keys), cs) ← readHeader cs
      let draft ← if repeated then draft.openElement keys else draft.openTable keys
      let rest ← lineEnd? cs
      pure (draft, rest)
  | _ => do
      let ((keys, item), cs) ← readAssignment (readValue (depthBound - 1)) cs
      let draft ← draft.set keys item
      let rest ← lineEnd? cs
      pure (draft, rest)

def readLines : Nat → Draft → List Char → Option Draft
  | 0, _, _ => none
  | fuel + 1, draft, cs =>
      match skipBlanks cs with
      | [] => some draft
      | cs => (readLine draft cs).bind fun (draft, cs) => readLines fuel draft cs

/-- The text without a byte order mark at its start. -/
def dropMark : List Char → List Char
  | '\uFEFF' :: cs => cs
  | cs => cs

def parse? (text : List Char) : Option Entries :=
  let cs := dropMark text
  (readLines (cs.length + 1) {} cs).bind Draft.finish

end AddressBook.Toml
