/-!
# Places in a YAML text

A cursor is the rest of a text and the place where it starts: the number of bytes before it, its line
and its column. Columns count characters. Line ends are the carriage return and the line feed, alone or together, the next
line character and the two Unicode separators; all but the separators are kept as a line feed.
-/

namespace AddressBook.Yaml

/-- The rest of a text and where it starts. -/
structure Cursor where
  rest : List Char
  offset : Nat := 0
  line : Nat := 0
  column : Nat := 0

def isBreak (c : Char) : Bool :=
  c == '\r' || c == '\n' || c == '\u0085' || c == '\u2028' || c == '\u2029'

def isBlank (c : Char) : Bool := c == ' ' || c == '\t'

/-- Whether a character may stand in names of anchors, directives and tag handles. -/
def isWordChar (c : Char) : Bool := c.isAlphanum || c == '_' || c == '-'

/-- Whether a text may hold a character. -/
def isAllowed (c : Char) : Bool :=
  let n := c.toNat
  n == 0x09 || n == 0x0A || n == 0x0D || (0x20 ≤ n && n ≤ 0x7E) || n == 0x85 ||
    (0xA0 ≤ n && n ≤ 0xD7FF) || (0xE000 ≤ n && n ≤ 0xFFFD) || 0x10000 ≤ n

namespace Cursor

def ahead? (cursor : Cursor) (n : Nat) : Option Char := cursor.rest[n]?

def isAt (cursor : Cursor) (n : Nat) (c : Char) : Bool := cursor.ahead? n == some c

/-- Whether a line or the text ends so many places ahead. -/
def isEndAt (cursor : Cursor) (n : Nat) : Bool := (cursor.ahead? n).all isBreak

/-- Whether a blank stands so many places ahead, or the end of a line or of the text. -/
def isGapAt (cursor : Cursor) (n : Nat) : Bool :=
  (cursor.ahead? n).all fun c => isBlank c || isBreak c

def byteLength (cs : List Char) : Nat := cs.foldl (fun n c => n + c.utf8Size) 0

/-- The cursor so many characters on, within the line. -/
def skip (cursor : Cursor) (n : Nat) : Cursor :=
  { cursor with
    rest := cursor.rest.drop n
    offset := cursor.offset + byteLength (cursor.rest.take n)
    column := cursor.column + n }

/-- What a line end is kept as, and the cursor after it. -/
def takeBreak (cursor : Cursor) : List Char × Cursor :=
  let next (n : Nat) : Cursor := { cursor.skip n with line := cursor.line + 1, column := 0 }
  match cursor.rest with
  | '\r' :: '\n' :: _ => (['\n'], next 2)
  | '\u2028' :: _ => (['\u2028'], next 1)
  | '\u2029' :: _ => (['\u2029'], next 1)
  | c :: _ => if isBreak c then (['\n'], next 1) else ([], cursor)
  | [] => ([], cursor)

/-- The characters at the start of the rest that satisfy a test, and the cursor after them. -/
def takeWhile (cursor : Cursor) (test : Char → Bool) : List Char × Cursor :=
  let run := cursor.rest.takeWhile test
  (run, cursor.skip run.length)

def skipBlanks (cursor : Cursor) : Cursor := (cursor.takeWhile isBlank).2

/-- The cursor after a byte order mark at the start of a line; the mark takes up a column. -/
def skipByteOrderMark (cursor : Cursor) : Cursor :=
  if cursor.column == 0 && cursor.isAt 0 '\uFEFF' then cursor.skip 1 else cursor

def skipComment (cursor : Cursor) : Cursor :=
  if cursor.isAt 0 '#' then (cursor.takeWhile (!isBreak ·)).2 else cursor

/-- Whether a line starts here with three characters and a gap. -/
def isMarker (cursor : Cursor) (c : Char) : Bool :=
  cursor.column == 0 && cursor.isAt 0 c && cursor.isAt 1 c && cursor.isAt 2 c && cursor.isGapAt 3

def isDocumentMarker (cursor : Cursor) : Bool := cursor.isMarker '-' || cursor.isMarker '.'

end Cursor

/-! ### Gaps between words -/

/-- The blanks and line ends between two words of a scalar. -/
structure Gap where
  /-- The blanks, if no line ends. -/
  blanks : List Char := []
  /-- Whether a line ends. -/
  broken : Bool := false
  /-- The first line end. -/
  first : List Char := []
  /-- The further line ends. -/
  others : List Char := []

namespace Gap

/-- What a gap is in the text: the blanks, or a space for one line end, or the line ends but the first. -/
def fold (gap : Gap) : List Char :=
  if !gap.broken then gap.blanks
  else if gap.first.head? = some '\n' then if gap.others.isEmpty then [' '] else gap.others
  else gap.first ++ gap.others

/-- Reads a gap; `tabColumn` is the column before which no tab may indent a line. -/
def read (tabColumn : Int) : Nat → Gap → Cursor → Option (Gap × Cursor)
  | 0, gap, cursor => some (gap, cursor)
  | fuel + 1, gap, cursor =>
      match cursor.rest with
      | [] => some (gap, cursor)
      | c :: _ =>
          if isBlank c then
            if gap.broken then
              if c = '\t' ∧ (cursor.column : Int) < tabColumn then none
              else read tabColumn fuel gap (cursor.skip 1)
            else read tabColumn fuel { gap with blanks := gap.blanks ++ [c] } (cursor.skip 1)
          else if isBreak c then
            let (lineEnd, next) := cursor.takeBreak
            if gap.broken then read tabColumn fuel { gap with others := gap.others ++ lineEnd } next
            else read tabColumn fuel { gap with broken := true, first := lineEnd } next
          else some (gap, cursor)

end Gap

end AddressBook.Yaml
