import AddressBook.Assoc
import AddressBook.Yaml.Token
/-!
# YAML nodes

The node that the tokens of a text describe. A document is the tree of its nodes together with what its
aliases stand for. An anchor gets as its number the count of anchor names before it; an anchor that is
defined again may so share its number with a later one, and an alias means the last node of its number.
-/

namespace AddressBook.Yaml

inductive Node where
  | scalar (tag : Option String) (isPlain : Bool) (text : String)
  | sequence (tag : Option String) (items : List Node)
  | mapping (tag : Option String) (pairs : List (Node × Node))
  | alias (number : Nat)
deriving Inhabited

/-- The node of a value that is left out. -/
def Node.absent : Node := .scalar none true ""

/-- A document: its node, what its aliases stand for, and the number of its events. -/
structure Document where
  root : Node
  /-- The nodes with anchors, by the number of events before them. -/
  anchored : Assoc Nat Node
  /-- The events before the node of each anchor number. -/
  targets : Assoc Nat Nat
  /-- Scalars and aliases count once, collections at their start and their end. -/
  events : Nat

/-- The state of a composition. -/
structure Composer where
  tokens : List Token
  /-- The handles of tags and what they stand for. -/
  handles : Assoc String String
  events : Nat := 0
  /-- The numbers of the anchor names. -/
  anchors : Assoc String Nat := []
  anchored : Assoc Nat Node := []
  targets : Assoc Nat Nat := []

abbrev Compose := StateT Composer Option

namespace Compose

/-- The next token; none at the end. -/
def peek : Compose (Option Token) := return (← get).tokens.head?

def skip : Compose Unit := modify fun c => { c with tokens := c.tokens.drop 1 }

def countEvent : Compose Unit := modify fun c => { c with events := c.events + 1 }

/-- Counts the event of a node that is left out, and answers it. -/
def absent : Compose Node := do
  countEvent
  pure .absent

/-- Whether the next token is one of some tokens, or the text ends. -/
def stopsAt (stops : List Token) : Compose Bool := return (← peek).all stops.contains

/-- The node unless one of some tokens comes next, in which case it is left out. -/
def orAbsent (stops : List Token) (node : Compose Node) : Compose Node := do
  if ← stopsAt stops then absent else node

/-! ### Properties -/

/-- The properties before a node. -/
structure Properties where
  anchor : Option String := none
  tag : Option String := none

def resolveTag (handle suffix : String) : Compose String := do
  if handle = "" then pure suffix
  else
    match (← get).handles.get? handle with
    | some start => pure (start ++ suffix)
    | none => failure

/-- Reads an anchor and a tag, in either order. -/
def readProperties : Nat → Properties → Compose Properties
  | 0, properties => pure properties
  | fuel + 1, properties => do
      match ← peek, properties.anchor, properties.tag with
      | some (.anchor name), none, _ =>
          skip
          readProperties fuel { properties with anchor := some name }
      | some (.tag handle suffix), _, none =>
          skip
          readProperties fuel { properties with tag := some (← resolveTag handle suffix) }
      | _, _, _ => pure properties

/-- Gives an anchor its number and notes the event that its node starts with. -/
def noteAnchor : Option String → Compose Unit
  | none => pure ()
  | some name => modify fun c =>
      let number := c.anchors.length
      { c with
        anchors := c.anchors.insert name number, targets := c.targets.insert number c.events }

/-- Notes the node that starts with an event, if it has an anchor. -/
def noteNode (anchor : Option String) (event : Nat) (node : Node) : Compose Node := do
  if anchor.isSome then modify fun c => { c with anchored := c.anchored.insert event node }
  pure node

/-! ### Nodes -/

/-- The tokens that end an item of a sequence in brackets. -/
def flowItemStops : List Token := [.flowEntry, .flowSequenceEnd]

/-- The tokens that end a member of a mapping in brackets. -/
def flowMemberStops : List Token := [.flowEntry, .flowMappingEnd]

/-- The tokens that end a key or a value of a block mapping. -/
def blockStops : List Token := [.key, .value, .blockEnd]

mutual

/-- Reads a node; blocks, and sequences without an indentation of their own, as far as admitted. -/
def node (inBlock indentless : Bool) : Nat → Compose Node
  | 0 => failure
  | fuel + 1 => do
      match ← peek with
      | some (.alias name) =>
          skip
          countEvent
          match (← get).anchors.get? name with
          | some number => pure (.alias number)
          | none => failure
      | _ =>
          let properties ← readProperties 2 {}
          let event := (← get).events
          let ⟨anchor, tag⟩ := properties
          match ← peek with
          | some (.scalar isPlain text) =>
              skip
              noteAnchor anchor
              countEvent
              noteNode anchor event (.scalar tag isPlain text)
          | token =>
              let items : Option (Compose Node) := match token with
                | some .blockEntry =>
                    if indentless then some (.sequence tag <$> indentlessItems fuel) else none
                | some .flowSequenceStart =>
                    some (do skip; .sequence tag <$> flowItems true fuel)
                | some .flowMappingStart =>
                    some (do skip; .mapping tag <$> flowMembers true fuel)
                | some .blockSequenceStart =>
                    if inBlock then some (do skip; .sequence tag <$> blockItems fuel) else none
                | some .blockMappingStart =>
                    if inBlock then some (do skip; .mapping tag <$> blockMembers fuel) else none
                | _ => none
              match items with
              | some items =>
                  noteAnchor anchor
                  countEvent
                  let node ← items
                  countEvent
                  noteNode anchor event node
              | none =>
                  if anchor.isSome || tag.isSome then
                    noteAnchor anchor
                    countEvent
                    noteNode anchor event (.scalar tag true "")
                  else failure

/-- Reads the items of a block sequence, up to its end. -/
def blockItems : Nat → Compose (List Node)
  | 0 => failure
  | fuel + 1 => do
      match ← peek with
      | some .blockEntry =>
          skip
          let item ← orAbsent [.blockEntry, .blockEnd] (node true false fuel)
          let others ← blockItems fuel
          pure (item :: others)
      | some .blockEnd =>
          skip
          pure []
      | _ => failure

/-- Reads the items of a sequence that is indented like the mapping around it. -/
def indentlessItems : Nat → Compose (List Node)
  | 0 => failure
  | fuel + 1 => do
      match ← peek with
      | some .blockEntry =>
          skip
          let item ← orAbsent (.blockEntry :: blockStops) (node true false fuel)
          let others ← indentlessItems fuel
          pure (item :: others)
      | _ => pure []

/-- Reads the members of a block mapping, up to its end. -/
def blockMembers : Nat → Compose (List (Node × Node))
  | 0 => failure
  | fuel + 1 => do
      match ← peek with
      | some .key =>
          skip
          let key ← orAbsent blockStops (node true true fuel)
          let value ← blockValue fuel
          let others ← blockMembers fuel
          pure ((key, value) :: others)
      | some .blockEnd =>
          skip
          pure []
      | _ => failure

def blockValue : Nat → Compose Node
  | 0 => failure
  | fuel + 1 => do
      match ← peek with
      | some .value =>
          skip
          orAbsent blockStops (node true true fuel)
      | _ => absent

/-- Reads the items of a sequence in brackets, up to its end. -/
def flowItems (isFirst : Bool) : Nat → Compose (List Node)
  | 0 => failure
  | fuel + 1 => do
      if (← peek) = some .flowSequenceEnd then
        skip
        pure []
      else
        if !isFirst then
          if (← peek) ≠ some .flowEntry then failure
          skip
        match ← peek with
        | some .flowSequenceEnd =>
            skip
            pure []
        | some .key =>
            skip
            let pair ← flowPair fuel
            let others ← flowItems false fuel
            pure (pair :: others)
        | _ =>
            let item ← node false false fuel
            let others ← flowItems false fuel
            pure (item :: others)

/-- Reads a mapping of one member that is an item of a sequence in brackets, after its key mark. -/
def flowPair : Nat → Compose Node
  | 0 => failure
  | fuel + 1 => do
      countEvent
      let key ← do
        if ← stopsAt (.value :: flowItemStops) then
          skip
          absent
        else node false false fuel
      let value ← do
        if (← peek) = some .value then
          skip
          orAbsent flowItemStops (node false false fuel)
        else absent
      countEvent
      pure (.mapping none [(key, value)])

/-- Reads the members of a mapping in brackets, up to its end. -/
def flowMembers (isFirst : Bool) : Nat → Compose (List (Node × Node))
  | 0 => failure
  | fuel + 1 => do
      if (← peek) = some .flowMappingEnd then
        skip
        pure []
      else
        if !isFirst then
          if (← peek) ≠ some .flowEntry then failure
          skip
        match ← peek with
        | some .flowMappingEnd =>
            skip
            pure []
        | some .key =>
            skip
            let key ← orAbsent (.value :: flowMemberStops) (node false false fuel)
            let value ← flowValue fuel
            let others ← flowMembers false fuel
            pure ((key, value) :: others)
        | _ =>
            let key ← node false false fuel
            let value ← absent
            let others ← flowMembers false fuel
            pure ((key, value) :: others)

def flowValue : Nat → Compose Node
  | 0 => failure
  | fuel + 1 => do
      match ← peek with
      | some .value =>
          skip
          orAbsent flowMemberStops (node false false fuel)
      | _ => absent

end

/-! ### Documents -/

def standardHandles : Assoc String String := [("!", "!"), ("!!", "tag:yaml.org,2002:")]

/-- Reads directives; a version and a handle may be given once, and the version must be known. -/
def readDirectives : Nat → Bool → Assoc String String → Compose (Bool × Assoc String String)
  | 0, _, _ => failure
  | fuel + 1, versioned, handles => do
      match ← peek with
      | some (.version major minor) =>
          if versioned || major != 1 || !(minor == 1 || minor == 2) then failure
          else
            skip
            readDirectives fuel true handles
      | some (.tagDirective handle start) =>
          if (handles.get? handle).isSome then failure
          else
            skip
            readDirectives fuel versioned (handles ++ [(handle, start)])
      | _ => pure (versioned, handles)

/-- The handles of a document: those of its directives, and the standard ones as far as not given. -/
def allHandles (given : Assoc String String) : Assoc String String := given ++ standardHandles

/-- Reads the start of a document; without directives its mark may be left out. -/
def documentStart (fuel : Nat) : Compose Bool := do
  let (versioned, handles) ← readDirectives fuel false []
  modify fun c => { c with handles := allHandles handles }
  if (← peek) = some .documentStart then
    skip
    pure true
  else if versioned || !handles.isEmpty then failure
  else pure false

/-- Reads the root of a document, which may be left out after the mark of its start. -/
def documentRoot (fuel : Nat) : Compose Node := do
  let marked ← documentStart fuel
  let isBare : Bool := match ← peek with
    | none | some (.version _ _) | some (.tagDirective _ _) | some .documentStart
    | some .documentEnd => true
    | _ => false
  if marked && isBare then absent else node true false fuel

def skipEnds : Nat → Compose Unit
  | 0 => pure ()
  | fuel + 1 => do
      if (← peek) = some .documentEnd then
        skip
        skipEnds fuel

def document (fuel : Nat) : Compose Document := do
  let root ← documentRoot fuel
  skipEnds fuel
  let composer ← get
  if composer.tokens.isEmpty then
    pure { root, anchored := composer.anchored, targets := composer.targets, events := composer.events }
  else failure

end Compose

/-- The document that tokens describe; without tokens it is a value that is left out. -/
def Document.ofTokens? (tokens : List Token) : Option Document :=
  if tokens.isEmpty then some { root := .absent, anchored := [], targets := [], events := 1 }
  else
    ((Compose.document (4 * tokens.length + 8)).run
      { tokens, handles := Compose.standardHandles }).map (·.1)

end AddressBook.Yaml
