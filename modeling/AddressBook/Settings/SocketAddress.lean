import AddressBook.Text.Reader
/-!
# Socket addresses

An address of four octets, or of eight groups of sixteen bits in brackets, and a port. Host names are not
looked up. In the text of eight groups the longest run of zero groups is left out, the first one of
equals, if it is longer than one; a group address that stands for four octets ends with those.
-/

namespace AddressBook

open Text (Reader isHexDigit valueOf spanDigits)

/-- An address that can be listened on. -/
inductive SocketAddress where
  | v4 (octets : List Nat) (port : Nat)
  | v6 (groups : List Nat) (scope : Nat) (port : Nat)
deriving DecidableEq, Repr

namespace SocketAddress

/-! ### Reading -/

/-- The text after a character that must come next. -/
def expect? (c : Char) : List Char → Option (List Char)
  | d :: cs => if d = c then some cs else none
  | [] => none

/-- The text after a colon, which the first of several parts does not need. -/
def separator? (separator : Char) (isFirst : Bool) (cs : List Char) : Option (List Char) :=
  if isFirst then some cs else expect? separator cs

/-- Reads an octet: at most three digits, without a needless leading zero. -/
def readOctet : Reader Nat := fun cs =>
  match spanDigits cs with
  | ([], _) => none
  | ('0' :: _ :: _, _) => none
  | (digits, rest) =>
      if digits.length ≤ 3 ∧ valueOf 10 digits < 256 then some (valueOf 10 digits, rest) else none

/-- Reads four octets with points between them. -/
def readOctets : Reader (List Nat) := fun cs => do
  let (a, cs) ← readOctet cs
  let (b, cs) ← readOctet (← expect? '.' cs)
  let (c, cs) ← readOctet (← expect? '.' cs)
  let (d, cs) ← readOctet (← expect? '.' cs)
  pure ([a, b, c, d], cs)

/-- Reads a group: at most four hexadecimal digits. -/
def readGroup : Reader Nat := fun cs =>
  match cs.takeWhile isHexDigit with
  | [] => none
  | digits =>
      if digits.length ≤ 4 then some (valueOf 16 digits, cs.dropWhile isHexDigit) else none

/-- Two groups for four octets. -/
def groupsOfOctets : List Nat → List Nat
  | [a, b, c, d] => [256 * a + b, 256 * c + d]
  | _ => []

/-- Reads groups, at most so many; four octets may stand for the last two. Answers whether they do. -/
def readGroups (isFirst : Bool) : Nat → List Char → (List Nat × Bool) × List Char
  | 0, cs => (([], false), cs)
  | limit + 1, cs =>
      let octets := if 0 < limit then (separator? ':' isFirst cs).bind readOctets else none
      match octets with
      | some (octets, cs) => ((groupsOfOctets octets, true), cs)
      | none =>
          match (separator? ':' isFirst cs).bind readGroup with
          | some (group, cs) =>
              let ((groups, octets), cs) := readGroups false limit cs
              ((group :: groups, octets), cs)
          | none => (([], false), cs)

/-- Reads eight groups, of which a run of zeros may be left out between two colons. -/
def readEightGroups : Reader (List Nat) := fun cs => do
  let ((front, octets), cs) := readGroups true 8 cs
  if front.length = 8 then pure (front, cs)
  else if octets then none
  else
    let cs ← expect? ':' cs
    let cs ← expect? ':' cs
    let ((back, _), cs) := readGroups true (7 - front.length) cs
    pure (front ++ List.replicate (8 - front.length - back.length) 0 ++ back, cs)

def readBelow (bound : Nat) : Reader Nat := fun cs =>
  match spanDigits cs with
  | ([], _) => none
  | (digits, rest) => if valueOf 10 digits < bound then some (valueOf 10 digits, rest) else none

/-- Reads the scope of a group address, zero if there is none. -/
def readScope (cs : List Char) : Nat × List Char :=
  match (expect? '%' cs).bind (readBelow (Nat.pow 2 32)) with
  | some (scope, rest) => (scope, rest)
  | none => (0, cs)

def readPort : Reader Nat := fun cs => (expect? ':' cs).bind (readBelow (Nat.pow 2 16))

def read : Reader SocketAddress := fun cs =>
  match cs with
  | '[' :: cs => do
      let (groups, cs) ← readEightGroups cs
      let (scope, cs) := readScope cs
      let (port, cs) ← readPort (← expect? ']' cs)
      pure (.v6 groups scope port, cs)
  | _ => do
      let (octets, cs) ← readOctets cs
      let (port, cs) ← readPort cs
      pure (.v4 octets port, cs)

def parse? (text : String) : Option SocketAddress :=
  match read text.toList with
  | some (address, []) => some address
  | _ => none

/-! ### Printing -/

def octetsText (octets : List Nat) : String := ".".intercalate (octets.map toString)

/-- A group in lower-case hexadecimal digits. -/
def groupText (group : Nat) : String := String.ofList (Nat.toDigits 16 group)

def plainText (groups : List Nat) : String := ":".intercalate (groups.map groupText)

def zerosAtStart (groups : List Nat) : Nat := (groups.takeWhile (· = 0)).length

/-- Where the first of the longest runs of zero groups starts, and its length. -/
def longestZeros (groups : List Nat) : Nat × Nat :=
  (List.range groups.length).foldl (fun best start =>
    let length := zerosAtStart (groups.drop start)
    if best.2 < length then (start, length) else best) (0, 0)

/-- The text of eight groups. -/
def groupsText (groups : List Nat) : String :=
  match groups with
  | [0, 0, 0, 0, 0, 0xFFFF, g, h] =>
      "::ffff:" ++ octetsText [g / 256, g % 256, h / 256, h % 256]
  | _ =>
      let (start, length) := longestZeros groups
      if 1 < length then
        plainText (groups.take start) ++ "::" ++ plainText (groups.drop (start + length))
      else plainText groups

def text : SocketAddress → String
  | v4 octets port => octetsText octets ++ ":" ++ toString port
  | v6 groups scope port =>
      "[" ++ groupsText groups ++ (if scope = 0 then "" else "%" ++ toString scope) ++ "]:" ++
        toString port

end SocketAddress

end AddressBook
