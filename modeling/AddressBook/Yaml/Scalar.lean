import AddressBook.Text.Reader
import AddressBook.Yaml.Cursor
/-!
# YAML scalars

The text of a scalar: in apostrophes, in quotes with escapes, plain, or as a block of lines. In all but
literal blocks a single line end is folded to a space.
-/

namespace AddressBook.Yaml.Scalar

open Text (isHexDigit valueOf)

/-! ### Scalars in quotes -/

def simpleEscape? : Char → Option Char
  | '0' => some '\x00'
  | 'a' => some '\x07'
  | 'b' => some '\x08'
  | 't' | '\t' => some '\t'
  | 'n' => some '\n'
  | 'v' => some '\x0b'
  | 'f' => some '\x0c'
  | 'r' => some '\r'
  | 'e' => some '\x1b'
  | ' ' => some ' '
  | '"' => some '"'
  | '/' => some '/'
  | '\\' => some '\\'
  | 'N' => some '\u0085'
  | '_' => some '\u00a0'
  | 'L' => some '\u2028'
  | 'P' => some '\u2029'
  | _ => none

def hexLength? : Char → Option Nat
  | 'x' => some 2
  | 'u' => some 4
  | 'U' => some 8
  | _ => none

/-- Reads an escape at its backslash. -/
def readEscape (cursor : Cursor) : Option (Char × Cursor) := do
  let letter ← cursor.ahead? 1
  match hexLength? letter with
  | none => (simpleEscape? letter).map fun c => (c, cursor.skip 2)
  | some count =>
      let digits := (cursor.rest.drop 2).take count
      let code := valueOf 16 digits
      if digits.length = count ∧ digits.all isHexDigit ∧ code.isValidChar then
        pure (Char.ofNat code, cursor.skip (2 + count))
      else none

/--
Reads the characters up to a gap or the closing quote. Answers also whether an escaped line end stands
there, which has been read.
-/
def readWord (quote : Char) : Nat → Cursor → Option (List Char × Bool × Cursor)
  | 0, _ => none
  | fuel + 1, cursor =>
      if cursor.isGapAt 0 then some ([], false, cursor)
      else if quote = '\'' ∧ cursor.isAt 0 '\'' ∧ cursor.isAt 1 '\'' then
        (readWord quote fuel (cursor.skip 2)).map fun (cs, rest) => ('\'' :: cs, rest)
      else if cursor.isAt 0 quote then some ([], false, cursor)
      else if quote = '"' ∧ cursor.isAt 0 '\\' then
        if (cursor.ahead? 1).any isBreak then some ([], true, (cursor.skip 1).takeBreak.2)
        else do
          let (c, cursor) ← readEscape cursor
          let (cs, rest) ← readWord quote fuel cursor
          pure (c :: cs, rest)
      else
        match cursor.rest with
        | [] => none
        | c :: _ => (readWord quote fuel (cursor.skip 1)).map fun (cs, rest) => (c :: cs, rest)

/-- Reads the rest of a scalar in quotes, up to and with the closing quote. -/
def readQuotedRest (quote : Char) : Nat → Cursor → Option (List Char × Cursor)
  | 0, _ => none
  | fuel + 1, cursor =>
      if cursor.isDocumentMarker || cursor.rest.isEmpty then none
      else do
        let (word, escapedBreak, cursor) ← readWord quote (cursor.rest.length + 1) cursor
        if !escapedBreak && cursor.isAt 0 quote then pure (word, cursor.skip 1)
        else
          let (gap, cursor) ← Gap.read 0 cursor.rest.length { broken := escapedBreak } cursor
          if cursor.rest.isEmpty then none
          else
            let (others, cursor) ← readQuotedRest quote fuel cursor
            pure (word ++ gap.fold ++ others, cursor)

def readQuoted (quote : Char) (cursor : Cursor) : Option (List Char × Cursor) :=
  readQuotedRest quote (cursor.rest.length + 1) (cursor.skip 1)

/-! ### Plain scalars -/

/-- Whether a character sets off the parts of a collection in brackets. -/
def isFlowMark (c : Char) : Bool := c == ',' || c == '[' || c == ']' || c == '{' || c == '}'

/-- Whether a plain scalar ends here although no gap follows. -/
def endsPlain (inFlow : Bool) (cursor : Cursor) : Bool :=
  (cursor.isAt 0 ':' && cursor.isGapAt 1) || (inFlow && (cursor.ahead? 0).any isFlowMark)

/-- Whether a colon stands here that a collection in brackets does not admit. -/
def hasStrayColon (inFlow : Bool) (cursor : Cursor) : Bool :=
  inFlow && cursor.isAt 0 ':' && (cursor.ahead? 1).any fun c => isFlowMark c || c == '?'

/-- Reads the characters up to a gap or the end of the scalar. -/
def readPlainWord (inFlow : Bool) : Nat → Cursor → Option (List Char × Cursor)
  | 0, _ => none
  | fuel + 1, cursor =>
      if cursor.isGapAt 0 then some ([], cursor)
      else if hasStrayColon inFlow cursor then none
      else if endsPlain inFlow cursor then some ([], cursor)
      else
        match cursor.rest with
        | [] => none
        | c :: _ => (readPlainWord inFlow fuel (cursor.skip 1)).map fun (cs, rest) => (c :: cs, rest)

/--
Reads the words of a plain scalar after a gap. Answers whether the scalar ends after the end of a line;
outside brackets it ends before a line that is indented by less than `indent`.
-/
def readPlainRest (inFlow : Bool) (indent : Int) :
    Nat → Gap → Cursor → Option (List Char × Bool × Cursor)
  | 0, _, _ => none
  | fuel + 1, gap, cursor =>
      if cursor.isDocumentMarker || cursor.isAt 0 '#' then some ([], gap.broken, cursor)
      else do
        let (word, cursor) ← readPlainWord inFlow (cursor.rest.length + 1) cursor
        let text := if word.isEmpty then [] else gap.fold ++ word
        let broken := word.isEmpty && gap.broken
        if cursor.rest.isEmpty || !cursor.isGapAt 0 then pure (text, broken, cursor)
        else
          let (next, cursor) ← Gap.read indent cursor.rest.length {} cursor
          if !inFlow && (cursor.column : Int) < indent then pure (text, next.broken, cursor)
          else
            let (others, broken, cursor) ← readPlainRest inFlow indent fuel next cursor
            pure (text ++ others, broken, cursor)

/-- Reads a plain scalar; answers whether it ends after the end of a line. -/
def readPlain (inFlow : Bool) (indent : Int) (cursor : Cursor) :
    Option (List Char × Bool × Cursor) :=
  readPlainRest inFlow indent (cursor.rest.length + 2) {} cursor

/-! ### Blocks -/

/-- What becomes of the line ends at the end of a block. -/
inductive Chomping where
  | strip | clip | keep
deriving DecidableEq

def readChomping? (cursor : Cursor) : Option (Chomping × Cursor) :=
  if cursor.isAt 0 '+' then some (.keep, cursor.skip 1)
  else if cursor.isAt 0 '-' then some (.strip, cursor.skip 1)
  else none

/-- Reads the indicator of the indentation, zero if there is none; zero itself is refused. -/
def readIncrement (cursor : Cursor) : Option (Nat × Cursor) :=
  match cursor.ahead? 0 with
  | some c =>
      if c = '0' then none
      else if c.isDigit then some (Text.digitValue c, cursor.skip 1)
      else some (0, cursor)
  | none => some (0, cursor)

/-- Reads the indicators of a block, in either order. -/
def readIndicators (cursor : Cursor) : Option (Chomping × Nat × Cursor) :=
  match readChomping? cursor with
  | some (chomping, cursor) => (readIncrement cursor).map fun (n, cursor) => (chomping, n, cursor)
  | none => do
      let (n, cursor) ← readIncrement cursor
      if n = 0 then pure (.clip, 0, cursor)
      else
        match readChomping? cursor with
        | some (chomping, cursor) => pure (chomping, n, cursor)
        | none => pure (.clip, n, cursor)

/--
Reads empty lines and the indentation of the next line. While the indentation of the block is not known
(`none`), every space counts; the widest line is answered.
-/
def readEmptyLines (indent : Option Nat) : Nat → Nat → Cursor → Option (List Char × Nat × Cursor)
  | 0, widest, cursor => some ([], widest, cursor)
  | fuel + 1, widest, cursor =>
      let spaces := (cursor.rest.takeWhile (· == ' ')).length
      let cursor := cursor.skip
        (match indent with
          | none => spaces
          | some n => min spaces (n - cursor.column))
      let widest := max widest cursor.column
      if indent.all (cursor.column < ·) && cursor.isAt 0 '\t' then none
      else if (cursor.ahead? 0).any isBreak then
        let (lineEnd, cursor) := cursor.takeBreak
        (readEmptyLines indent fuel widest cursor).map fun (ends, rest) => (lineEnd ++ ends, rest)
      else some ([], widest, cursor)

/-- What has been read of a block: its text, and the line ends that are still to be placed. -/
structure BlockDraft where
  text : List Char := []
  /-- The end of the line read last. -/
  lineEnd : List Char := []
  /-- The ends of the empty lines after it. -/
  emptyLines : List Char := []
  /-- Whether the line read last starts with a blank. -/
  blankStart : Bool := false

/-- The line ends before a line, folded if the block is. -/
def BlockDraft.joint (draft : BlockDraft) (folded startsBlank : Bool) : List Char :=
  if folded ∧ draft.lineEnd.head? = some '\n' ∧ !draft.blankStart ∧ !startsBlank then
    (if draft.emptyLines.isEmpty then [' '] else []) ++ draft.emptyLines
  else draft.lineEnd ++ draft.emptyLines

/-- Reads the lines of a block that are indented by `indent`. -/
def readBlockLines (folded : Bool) (indent : Nat) :
    Nat → BlockDraft → Cursor → Option (BlockDraft × Cursor)
  | 0, draft, cursor => some (draft, cursor)
  | fuel + 1, draft, cursor =>
      if cursor.column ≠ indent ∨ cursor.rest.isEmpty then some (draft, cursor)
      else do
        let startsBlank := (cursor.ahead? 0).any isBlank
        let (line, cursor) := cursor.takeWhile (!isBreak ·)
        let (lineEnd, cursor) := cursor.takeBreak
        let (emptyLines, _, cursor) ← readEmptyLines (some indent) (cursor.rest.length + 1) 0 cursor
        readBlockLines folded indent fuel
          { text := draft.text ++ draft.joint folded startsBlank ++ line
            lineEnd, emptyLines, blankStart := startsBlank } cursor

/-- Reads a block at its indicator, below a collection that is indented by `parent`. -/
def readBlock (folded : Bool) (parent : Int) (cursor : Cursor) : Option (List Char × Cursor) := do
  let (chomping, increment, cursor) ← readIndicators (cursor.skip 1)
  let cursor := cursor.skipBlanks.skipComment
  if !cursor.isEndAt 0 then none
  else
    let cursor := cursor.takeBreak.2
    let known : Option Nat :=
      if increment = 0 then none
      else some (if 0 ≤ parent then parent.toNat + increment else increment)
    let (emptyLines, widest, cursor) ← readEmptyLines known (cursor.rest.length + 1) 0 cursor
    let indent := known.getD (max (max widest (parent + 1).toNat) 1)
    let (draft, cursor) ←
      readBlockLines folded indent (cursor.rest.length + 1) { emptyLines } cursor
    let ending := match chomping with
      | .strip => []
      | .clip => draft.lineEnd
      | .keep => draft.lineEnd ++ draft.emptyLines
    pure (draft.text ++ ending, cursor)

end AddressBook.Yaml.Scalar
