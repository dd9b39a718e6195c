import AddressBook.Json.Basic
import AddressBook.Text.Reader
import AddressBook.Yaml.Node
/-!
# YAML as JSON values

What a YAML document means as a JSON value. A plain scalar is null, a boolean, a number or a string by
its spelling; a tag of the standard can demand one of these. Keys are the texts of scalars, and a
repeated key keeps its first place and its last value. Tags of other kinds have no meaning.

Collections nest at most 128 deep, and aliases are followed at most a hundred times as often as the
document has events.
-/

namespace AddressBook.Yaml

open Number (Binary64)
open Text (hexValue? isHexDigit valueOf spanDigits)

/-! ### Spellings -/

def isNull (text : String) : Bool := text ∈ ["null", "Null", "NULL", "~"]

def boolean? (text : String) : Option Bool :=
  if text ∈ ["true", "True", "TRUE"] then some true
  else if text ∈ ["false", "False", "FALSE"] then some false
  else none

def dropSign : List Char → List Char
  | '+' :: cs | '-' :: cs => cs
  | cs => cs

/-- Whether a text is made of digits and has a needless leading zero. -/
def hasLeadingZero (cs : List Char) : Bool :=
  match dropSign cs with
  | '0' :: c :: rest => (c :: rest).all Char.isDigit
  | _ => false

/-- The number that digits of a base spell, at least one. -/
def digitsIn? (base : Nat) (cs : List Char) : Option Nat :=
  if cs ≠ [] ∧ cs.all fun c => (hexValue? c).any (· < base) then some (valueOf base cs) else none

/-- The number that a text with the mark of a base spells. -/
def marked? : List Char → Option Nat
  | '0' :: 'x' :: cs => digitsIn? 16 cs
  | '0' :: 'o' :: cs => digitsIn? 8 cs
  | '0' :: 'b' :: cs => digitsIn? 2 cs
  | _ => none

/-- The whole number that a text spells; one in base ten has no needless leading zero. -/
def whole? (cs : List Char) : Option Int :=
  let plain (cs : List Char) : Option Nat :=
    (marked? cs) <|> (if hasLeadingZero cs then none else digitsIn? 10 cs)
  match cs with
  | '+' :: cs => (plain cs).map fun n => (n : Int)
  | '-' :: cs => (plain cs).map fun n => -(n : Int)
  | cs => (plain cs).map fun n => (n : Int)

/-- What becomes of a whole number. -/
inductive WholeNumber where
  /-- It is a value. -/
  | fits
  /-- It is no value, and nothing else either. -/
  | refused
  /-- It is beyond every whole number. -/
  | beyond

/-- Numbers of 64 bits are values, those of 128 bits are refused. -/
def wholeNumber (n : Int) : WholeNumber :=
  if Json.leastSigned ≤ n ∧ n < Nat.pow 2 64 then .fits
  else if -Nat.pow 2 127 ≤ n ∧ n < Nat.pow 2 128 then .refused
  else .beyond

/-- Digits, a point and more digits, of which one is enough. -/
def readPointed (cs : List Char) : Option (List Char × List Char × List Char) :=
  let (whole, cs) := spanDigits cs
  let (fraction, cs) := match cs with
    | '.' :: cs => spanDigits cs
    | cs => ([], cs)
  if whole.isEmpty && fraction.isEmpty then none else some (whole, fraction, cs)

/-- The exponent that is the rest of a text. -/
def exponent? : List Char → Option Int
  | [] => some 0
  | 'e' :: cs | 'E' :: cs =>
      let magnitude := (digitsIn? 10 (dropSign cs)).map fun n => (n : Int)
      if cs.head? = some '-' then magnitude.map fun n => -n else magnitude
  | _ => none

/-- The finite double that a text with or without a minus sign spells. -/
def finiteFloat? (cs : List Char) : Option Binary64 := do
  let negative := cs.head? == some '-'
  let (whole, fraction, rest) ← readPointed (dropSign cs)
  let exponent ← exponent? rest
  Binary64.ofDecimal? negative (valueOf 10 (whole ++ fraction)) (exponent - fraction.length)

/-- The number that a text spells; infinite ones and what is no number are null. -/
def float? (text : String) : Option Json :=
  if text ∈ [".inf", ".Inf", ".INF", "+.inf", "+.Inf", "+.INF", "-.inf", "-.Inf", "-.INF",
      ".nan", ".NaN", ".NAN"] then some .null
  else
    match text.toList with
    | '+' :: '+' :: _ | '+' :: '-' :: _ => none
    | cs => (finiteFloat? cs).map .float

/-! ### Scalars -/

def plainValue? (text : String) : Option Json :=
  if text = "" ∨ isNull text then some .null
  else
    match boolean? text with
    | some b => some (.bool b)
    | none =>
        let other := if hasLeadingZero text.toList then none else float? text
        match whole? text.toList with
        | none => some (other.getD (.str text))
        | some n =>
            match wholeNumber n with
            | .fits => some (.int n)
            | .refused => none
            | .beyond => some (other.getD (.str text))

/-- The whole number that a tag demands. -/
def taggedWhole? (text : String) : Option Json :=
  (whole? text.toList).bind fun n =>
    match wholeNumber n with
    | .fits => some (.int n)
    | _ => none

/-- Whether a tag is of a kind that has no meaning. -/
def isLocalTag (tag : Option String) : Bool := tag.any (·.toList.head? == some '!')

def scalarValue? (tag : Option String) (isPlain : Bool) (text : String) : Option Json :=
  match tag with
  | none => if isPlain then plainValue? text else some (.str text)
  | some "tag:yaml.org,2002:bool" => (boolean? text).map .bool
  | some "tag:yaml.org,2002:int" => taggedWhole? text
  | some "tag:yaml.org,2002:float" => float? text
  | some "tag:yaml.org,2002:null" => if isNull text then some .null else none
  | some tag => if isLocalTag (some tag) then none else some (.str text)

/-! ### Nodes -/

namespace Document

/-- The node that an alias stands for; every other node stands for itself. -/
def target? (document : Document) : Node → Option Node
  | .alias number => (document.targets.get? number).bind document.anchored.get?
  | node => some node

/-- Follows an alias, if the node is one, and counts that down. -/
def follow? (document : Document) (node : Node) (jumps : Nat) : Option (Node × Nat) :=
  match node, jumps with
  | .alias _, 0 => none
  | .alias number, jumps + 1 => (document.target? (.alias number)).map fun node => (node, jumps)
  | node, jumps => some (node, jumps)

/-- The key that a node is, which must be a scalar. -/
def key? (document : Document) (node : Node) (jumps : Nat) : Option (String × Nat) := do
  match ← document.follow? node jumps with
  | (.scalar _ _ text, jumps) => pure (text, jumps)
  | _ => none

/-- Reads values one after another, with the aliases that may still be followed. -/
def items? (value : Node → Nat → Option (Json × Nat)) : List Node → Nat → Option (List Json × Nat)
  | [], jumps => some ([], jumps)
  | node :: rest, jumps => do
      let (first, jumps) ← value node jumps
      let (others, jumps) ← items? value rest jumps
      pure (first :: others, jumps)

/-- Reads keys and values one after another. -/
def members? (document : Document) (value : Node → Nat → Option (Json × Nat)) :
    List (Node × Node) → Nat → Option (List (String × Json) × Nat)
  | [], jumps => some ([], jumps)
  | (key, node) :: rest, jumps => do
      let (key, jumps) ← document.key? key jumps
      let (first, jumps) ← value node jumps
      let (others, jumps) ← members? document value rest jumps
      pure ((key, first) :: others, jumps)

/-- The value of a node whose collections nest at most `depth` deep. -/
def value? (document : Document) : Nat → Node → Nat → Option (Json × Nat)
  | depth, node, jumps => do
      let (node, jumps) ← document.follow? node jumps
      match node, depth with
      | .scalar tag isPlain text, _ =>
          let value ← scalarValue? tag isPlain text
          pure (value, jumps)
      | .sequence tag nodes, depth + 1 =>
          if isLocalTag tag then none
          else
            let (items, jumps) ← items? (document.value? depth) nodes jumps
            pure (.arr items, jumps)
      | .mapping tag pairs, depth + 1 =>
          if isLocalTag tag then none
          else
            let (entries, jumps) ← document.members? (document.value? depth) pairs jumps
            pure (.obj (Assoc.ofList entries), jumps)
      | _, _ => none

end Document

def depthLimit : Nat := 128

def parse? (text : List Char) : Option Json := do
  let tokens ← tokens? text
  let document ← Document.ofTokens? tokens
  let (value, _) ← document.value? depthLimit document.root (100 * document.events)
  pure value

end AddressBook.Yaml
