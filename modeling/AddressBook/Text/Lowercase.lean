import AddressBook.Text.CaseTable
/-!
# Lower case

The full lower-case form of a text: every letter goes to its lower-case letter, the dotted capital I to
two characters, and a capital sigma to the final sigma when it ends a word, that is when the nearest
character before it that is not passed over has a case and the nearest one after it has none.
-/

namespace AddressBook.Text

def inRanges (ranges : List (Nat × Nat)) (c : Char) : Bool :=
  ranges.any fun (first, last) => first ≤ c.toNat && c.toNat ≤ last

/-- The lower-case letter of a letter in a run. -/
def CaseRun.lower? (run : CaseRun) (c : Char) : Option Char :=
  if run.first ≤ c.toNat ∧ c.toNat ≤ run.last ∧ (c.toNat - run.first) % run.step = 0 then
    some (Char.ofNat (c.toNat + run.shift).toNat)
  else none

/-- A character in lower case, away from any word. -/
def lowerChar (c : Char) : Char :=
  if c.toNat < 0x80 then c.toLower else (lowercaseRuns.findSome? (·.lower? c)).getD c

/-- Whether the first character that is not passed over has a case. -/
def startsCased (cs : List Char) : Bool :=
  match cs.dropWhile (inRanges caseIgnorableRanges) with
  | [] => false
  | c :: _ => inRanges casedRanges c

/-- The lower-case form of a text whose preceding characters are `before`, the nearest one first. -/
def lowerAfter (before : List Char) : List Char → List Char
  | [] => []
  | c :: rest =>
      (if c = 'Σ' then [if startsCased before && !startsCased rest then 'ς' else 'σ']
        else if c = 'İ' then ['i', '\u0307']
        else [lowerChar c]) ++ lowerAfter (c :: before) rest

def lowercase (s : String) : String := String.ofList (lowerAfter [] s.toList)

end AddressBook.Text
