import AddressBook.Text.Utf8
import AddressBook.Yaml.Scalar
/-!
# YAML tokens

The tokens of a text, with the starts and ends of blocks made explicit from the indentation.

A key of one line is not announced: it is found out at its colon. So the lexer remembers, for each level
of brackets, the token where a key could have started, and puts a key token, and the start of a mapping
if the column calls for one, before that token when the colon comes. A key may take one line and at most
1024 bytes.

A byte order mark is passed over where a line starts with one. It takes up a column there, so that the
line is no mark of a document and stands further in than others. Elsewhere it is a character like others.
-/

namespace AddressBook.Yaml

inductive Token where
  | version (major minor : Nat)
  | tagDirective (handle tagStart : String)
  | documentStart
  | documentEnd
  | blockSequenceStart
  | blockMappingStart
  | blockEnd
  | flowSequenceStart
  | flowSequenceEnd
  | flowMappingStart
  | flowMappingEnd
  | blockEntry
  | flowEntry
  | key
  | value
  | alias (name : String)
  | anchor (name : String)
  | tag (handle suffix : String)
  | scalar (isPlain : Bool) (text : String)
deriving DecidableEq, Repr, Inhabited

/-- A place where a key may have started. -/
structure KeyStart where
  /-- The number of tokens before it. -/
  tokenNumber : Nat
  cursor : Cursor
  /-- Whether nothing but a key may start there. -/
  required : Bool

/-- The state of the lexer between two tokens. -/
structure Lexer where
  cursor : Cursor
  tokens : Array Token := #[]
  /-- Whether a key may start at the cursor. -/
  keyAllowed : Bool := true
  /-- The possible key of each level of brackets, the innermost first. -/
  keys : List (Option KeyStart) := [none]
  /-- The column of the innermost block collection; −1 outside of all. -/
  indent : Int := -1
  /-- The columns of the block collections around it. -/
  outerIndents : List Int := []

namespace Lexer

def depth (lexer : Lexer) : Nat := lexer.keys.length - 1

def inFlow (lexer : Lexer) : Bool := 0 < lexer.depth

def emit (lexer : Lexer) (token : Token) : Lexer := { lexer with tokens := lexer.tokens.push token }

def emitMark (lexer : Lexer) (token : Token) (width : Nat) : Lexer :=
  { lexer.emit token with cursor := lexer.cursor.skip width }

/-- Inserts a token before the one with a number. -/
def insert (lexer : Lexer) (number : Nat) (token : Token) : Lexer :=
  { lexer with
    tokens := (lexer.tokens.extract 0 number).push token ++
      lexer.tokens.extract number lexer.tokens.size }

/-! ### Possible keys -/

def longestKey : Nat := 1024

def possibleKey? (lexer : Lexer) : Option KeyStart := lexer.keys.head?.join

def setKey (lexer : Lexer) (key : Option KeyStart) : Lexer :=
  { lexer with keys := key :: lexer.keys.drop 1 }

/-- Gives up the possible key; nothing if a key is required there. -/
def dropKey (lexer : Lexer) : Option Lexer :=
  if lexer.possibleKey?.any (·.required) then none else some (lexer.setKey none)

def isStale (lexer : Lexer) (key : KeyStart) : Bool :=
  key.cursor.line < lexer.cursor.line || key.cursor.offset + longestKey < lexer.cursor.offset

/-- Gives up the possible keys that have become too long. -/
def dropStaleKeys (lexer : Lexer) : Option Lexer :=
  if lexer.keys.any fun key => key.any fun key => key.required && lexer.isStale key then none
  else some { lexer with keys := lexer.keys.map fun key => key.filter (!lexer.isStale ·) }

/-- Notes the cursor as the start of a possible key. -/
def noteKey (lexer : Lexer) : Option Lexer :=
  if lexer.keyAllowed then
    lexer.dropKey.map fun lexer =>
      lexer.setKey (some
        { tokenNumber := lexer.tokens.size, cursor := lexer.cursor
          required := !lexer.inFlow && lexer.indent == (lexer.cursor.column : Int) })
  else some lexer

/-! ### Indentation -/

/-- Opens a block collection at a column, if the column is further in, before a token or at the end. -/
def openBlock (lexer : Lexer) (column : Nat) (start : Token) (before : Option Nat) : Lexer :=
  if lexer.inFlow || (column : Int) ≤ lexer.indent then lexer
  else
    let lexer :=
      { lexer with indent := column, outerIndents := lexer.indent :: lexer.outerIndents }
    match before with
    | none => lexer.emit start
    | some number => lexer.insert number start

/-- Closes the block collections that are further in than a column. -/
def closeBlocks (column : Int) : List Int → Lexer → Lexer
  | [], lexer => lexer
  | outer :: others, lexer =>
      if lexer.indent ≤ column then lexer
      else closeBlocks column others
        { lexer.emit .blockEnd with indent := outer, outerIndents := others }

/-- Closes the block collections that are further in than a column, outside of brackets. -/
def closeTo (lexer : Lexer) (column : Int) : Lexer :=
  if lexer.inFlow then lexer else closeBlocks column lexer.outerIndents lexer

/-! ### Names, tags and directives -/

def mayFollowName (cursor : Cursor) : Bool :=
  cursor.isGapAt 0 || (cursor.ahead? 0).any "?:,]\x7d%@`".toList.contains

/-- Reads the name of an anchor or an alias after its mark. -/
def readName (cursor : Cursor) : Option (String × Cursor) :=
  let (name, cursor) := (cursor.skip 1).takeWhile isWordChar
  if name.isEmpty || !mayFollowName cursor then none else some (String.ofList name, cursor)

def isTagChar (c : Char) : Bool := isWordChar c || ";/?:@&=+$.!~*'()%".toList.contains c

def isUriChar (c : Char) : Bool := isTagChar c || c == ',' || c == '[' || c == ']'

/-- The bytes of a tag, percent escapes replaced. -/
def tagBytes : List Char → Option Text.Bytes
  | '%' :: a :: b :: cs => do
      let high ← Text.hexValue? a
      let low ← Text.hexValue? b
      let rest ← tagBytes cs
      pure (UInt8.ofNat (16 * high + low) :: rest)
  | '%' :: _ => none
  | c :: cs => (tagBytes cs).map (String.utf8EncodeChar c ++ ·)
  | [] => some []

/-- The text of a tag, percent escapes replaced. -/
def tagText (cs : List Char) : Option String :=
  ((tagBytes cs).bind Text.Utf8.decode?).map String.ofList

/-- Reads a handle: an exclamation mark, then a word and another mark, or the first mark alone. -/
def readHandle (cursor : Cursor) : Option (List Char × Cursor) :=
  if !cursor.isAt 0 '!' then none
  else
    let (word, cursor) := (cursor.skip 1).takeWhile isWordChar
    if cursor.isAt 0 '!' then some ('!' :: (word ++ ['!']), cursor.skip 1)
    else some ('!' :: word, cursor)

/-- Reads a tag given in full between angle brackets. -/
def readFullTag (cursor : Cursor) : Option (Token × Cursor) := do
  let (uri, cursor) := (cursor.skip 2).takeWhile isUriChar
  if uri.isEmpty || !cursor.isAt 0 '>' then none
  else
    let suffix ← tagText uri
    pure (.tag "" suffix, cursor.skip 1)

def readShortTag (cursor : Cursor) : Option (Token × Cursor) := do
  let (handle, cursor) ← readHandle cursor
  let (suffix, cursor) := cursor.takeWhile isTagChar
  if 1 < handle.length ∧ handle.getLast? = some '!' then
    if suffix.isEmpty then none
    else
      let suffix ← tagText suffix
      pure (.tag (String.ofList handle) suffix, cursor)
  else
    let suffix ← tagText (handle.drop 1 ++ suffix)
    if suffix.isEmpty then pure (.tag "" "!", cursor) else pure (.tag "!" suffix, cursor)

/-- Reads a tag; a gap follows it, or a comma inside of brackets. -/
def readTag (inFlow : Bool) (cursor : Cursor) : Option (Token × Cursor) := do
  let (token, cursor) ← if cursor.isAt 1 '<' then readFullTag cursor else readShortTag cursor
  if (inFlow && cursor.isAt 0 ',') || cursor.isGapAt 0 then pure (token, cursor) else none

def readVersionNumber (cursor : Cursor) : Option (Nat × Cursor) :=
  let (digits, cursor) := cursor.takeWhile Char.isDigit
  if digits.isEmpty || 9 < digits.length then none else some (Text.valueOf 10 digits, cursor)

/-- Reads what follows the name of a directive. -/
def readDirectiveValue (name : List Char) (cursor : Cursor) : Option (Token × Cursor) :=
  if name = "YAML".toList then do
    let (major, cursor) ← readVersionNumber cursor.skipBlanks
    if !cursor.isAt 0 '.' then none
    else
      let (minor, cursor) ← readVersionNumber (cursor.skip 1)
      pure (.version major minor, cursor)
  else if name = "TAG".toList then do
    let (handle, cursor) ← readHandle cursor.skipBlanks
    if handle.getLast? ≠ some '!' ∨ !(cursor.ahead? 0).any isBlank then none
    else
      let (uri, cursor) := cursor.skipBlanks.takeWhile isUriChar
      if uri.isEmpty || !cursor.isGapAt 0 then none
      else
        let start ← tagText uri
        pure (.tagDirective (String.ofList handle) start, cursor)
  else none

def readDirective (cursor : Cursor) : Option (Token × Cursor) := do
  let (name, cursor) := (cursor.skip 1).takeWhile isWordChar
  if name.isEmpty || !cursor.isGapAt 0 then none
  else
    let (token, cursor) ← readDirectiveValue name cursor
    let cursor := cursor.skipBlanks.skipComment
    if cursor.isEndAt 0 then pure (token, cursor.takeBreak.2) else none

/-! ### Tokens -/

/--
Skips byte order marks at the starts of lines, blanks, comments and line ends; outside of brackets a key
may start on a new line.
-/
def skipGap : Nat → Lexer → Lexer
  | 0, lexer => lexer
  | fuel + 1, lexer =>
      let tabs := lexer.inFlow || !lexer.keyAllowed
      let (_, cursor) :=
        lexer.cursor.skipByteOrderMark.takeWhile fun c => c == ' ' || (tabs && c == '\t')
      let cursor := cursor.skipComment
      if (cursor.ahead? 0).any isBreak then
        skipGap fuel
          { lexer with
            cursor := cursor.takeBreak.2, keyAllowed := lexer.keyAllowed || !lexer.inFlow }
      else { lexer with cursor }

/-- Reads a directive or the mark of a document, which stand outside of all collections. -/
def atTop (lexer : Lexer) : Option Lexer :=
  (lexer.closeTo (-1)).dropKey.map fun lexer => { lexer with keyAllowed := false }

def openFlow (lexer : Lexer) (token : Token) : Option Lexer :=
  lexer.noteKey.map fun lexer =>
    { lexer.emitMark token 1 with keys := none :: lexer.keys, keyAllowed := true }

def closeFlow (lexer : Lexer) (token : Token) : Option Lexer :=
  lexer.dropKey.map fun lexer =>
    { lexer.emitMark token 1 with
      keys := if lexer.inFlow then lexer.keys.drop 1 else lexer.keys, keyAllowed := false }

/-- Reads the comma in a collection in brackets. -/
def flowEntry (lexer : Lexer) : Option Lexer :=
  lexer.dropKey.map fun lexer => { lexer.emitMark .flowEntry 1 with keyAllowed := true }

/-- Opens a block collection at the cursor, where it must be possible. -/
def openHere (lexer : Lexer) (start : Token) : Option Lexer :=
  if lexer.inFlow then some lexer
  else if lexer.keyAllowed then some (lexer.openBlock lexer.cursor.column start none)
  else none

/-- Reads the hyphen of an entry of a block sequence. -/
def blockEntry (lexer : Lexer) : Option Lexer := do
  let lexer ← lexer.openHere .blockSequenceStart
  let lexer ← lexer.dropKey
  pure { lexer.emitMark .blockEntry 1 with keyAllowed := true }

def explicitKey (lexer : Lexer) : Option Lexer := do
  let lexer ← lexer.openHere .blockMappingStart
  let lexer ← lexer.dropKey
  pure { lexer.emitMark .key 1 with keyAllowed := !lexer.inFlow }

/-- Reads the colon before a value; it tells whether the possible key was one. -/
def value (lexer : Lexer) : Option Lexer :=
  match lexer.possibleKey? with
  | some key =>
      let lexer := lexer.insert key.tokenNumber .key
      let lexer := lexer.openBlock key.cursor.column .blockMappingStart (some key.tokenNumber)
      some { (lexer.setKey none).emitMark .value 1 with keyAllowed := false }
  | none =>
      (lexer.openHere .blockMappingStart).map fun lexer =>
        { lexer.emitMark .value 1 with keyAllowed := !lexer.inFlow }

/-- Adds a token that may be, or belong to, a key. -/
def content (lexer : Lexer) (read : Lexer → Option (Token × Cursor)) : Option Lexer := do
  let lexer ← lexer.noteKey
  let (token, cursor) ← read lexer
  pure { lexer.emit token with cursor, keyAllowed := false }

def quotedScalar (quote : Char) (lexer : Lexer) : Option (Token × Cursor) :=
  (Scalar.readQuoted quote lexer.cursor).map fun (text, cursor) =>
    (.scalar false (String.ofList text), cursor)

/-- Reads a plain scalar; after the end of a line a key may start again. -/
def plainScalar (lexer : Lexer) : Option Lexer := do
  let lexer ← lexer.noteKey
  let (text, broken, cursor) ← Scalar.readPlain lexer.inFlow (lexer.indent + 1) lexer.cursor
  pure { lexer.emit (.scalar true (String.ofList text)) with cursor, keyAllowed := broken }

def blockScalar (lexer : Lexer) (folded : Bool) : Option Lexer := do
  let lexer ← lexer.dropKey
  let (text, cursor) ← Scalar.readBlock folded lexer.indent lexer.cursor
  pure { lexer.emit (.scalar false (String.ofList text)) with cursor, keyAllowed := true }

/-- Whether a plain scalar may start at the cursor. -/
def startsPlain (lexer : Lexer) : Bool :=
  let cursor := lexer.cursor
  match cursor.ahead? 0 with
  | none => false
  | some c =>
      !(isBlank c || isBreak c || "-?:,[]\x7b\x7d#&*!|>'\"%@`".toList.contains c) ||
        (c == '-' && !(cursor.ahead? 1).any isBlank) ||
        (!lexer.inFlow && (c == '?' || c == ':') && !cursor.isGapAt 1)

def next (lexer : Lexer) : Option Lexer :=
  let cursor := lexer.cursor
  let at_ (c : Char) : Bool := cursor.isAt 0 c
  if cursor.column = 0 ∧ at_ '%' then do
    let lexer ← lexer.atTop
    let (token, cursor) ← readDirective cursor
    pure { lexer.emit token with cursor }
  else if cursor.isMarker '-' then lexer.atTop.map (·.emitMark .documentStart 3)
  else if cursor.isMarker '.' then lexer.atTop.map (·.emitMark .documentEnd 3)
  else if at_ '[' then lexer.openFlow .flowSequenceStart
  else if at_ '{' then lexer.openFlow .flowMappingStart
  else if at_ ']' then lexer.closeFlow .flowSequenceEnd
  else if at_ '}' then lexer.closeFlow .flowMappingEnd
  else if at_ ',' then lexer.flowEntry
  else if at_ '-' && cursor.isGapAt 1 then lexer.blockEntry
  else if at_ '?' && (lexer.inFlow || cursor.isGapAt 1) then lexer.explicitKey
  else if at_ ':' && (lexer.inFlow || cursor.isGapAt 1) then lexer.value
  else if at_ '*' then
    lexer.content fun lexer => (readName lexer.cursor).map fun (n, cursor) => (.alias n, cursor)
  else if at_ '&' then
    lexer.content fun lexer => (readName lexer.cursor).map fun (n, cursor) => (.anchor n, cursor)
  else if at_ '!' then lexer.content fun lexer => readTag lexer.inFlow lexer.cursor
  else if at_ '|' && !lexer.inFlow then lexer.blockScalar false
  else if at_ '>' && !lexer.inFlow then lexer.blockScalar true
  else if at_ '\'' then lexer.content (quotedScalar '\'')
  else if at_ '"' then lexer.content (quotedScalar '"')
  else if lexer.startsPlain then lexer.plainScalar
  else none

/-- Reads tokens up to the end of the text. -/
def run : Nat → Lexer → Option (List Token)
  | 0, _ => none
  | fuel + 1, lexer => do
      let lexer ← (skipGap (lexer.cursor.rest.length + 1) lexer).dropStaleKeys
      let lexer := lexer.closeTo lexer.cursor.column
      if lexer.cursor.rest.isEmpty then
        let lexer ← (lexer.closeTo (-1)).dropKey
        pure lexer.tokens.toList
      else
        let lexer ← lexer.next
        run fuel lexer

end Lexer

def tokens? (text : List Char) : Option (List Token) :=
  if text.all isAllowed then Lexer.run (text.length + 2) { cursor := { rest := text } } else none

end AddressBook.Yaml
