import AddressBook.Schema.Fault
/-!
# Validation of schema documents

A schema document maps field names to parameters. It is validated before it is trusted, rule by rule in
a fixed order, and the first rule that is broken is the fault:

1. the document is an object of objects, and no field name is empty;
2. exactly one field is the primary key, and it is required;
3. field by field, in the order of the document: the kind is named, the optional parameters have their
   types, the kind is registered, and lists, selects, images and toggles have usable constraints;
4. display names and help texts are strings;
5. no two fields share a sort key, then no two share a main attribute.

A parameter that is `null` reads as absent.
-/

namespace AddressBook.Document

/-- A member of a schema document: a field's name and its parameters. -/
structure Entry where
  name : String
  params : Members
deriving DecidableEq

/-- The value of a parameter that is there and is not `null`. -/
def param? (params : Members) (key : String) : Option Json :=
  (params.get? key).filter (!·.isNull)

/-- Whether a parameter is exactly `true`. -/
def isTrue (params : Members) (key : String) : Bool :=
  match params.get? key with
  | some (.bool true) => true
  | _ => false

/-! ### The shape of the document -/

def entry (name : String) (params : Json) : Except DocumentFault Entry :=
  if name = "" then .error .emptyName
  else
    match params with
    | .obj params => .ok { name, params }
    | _ => .error (.parametersNotObject name)

/-- The entries of the members, up to the first that has none. -/
def entriesOf : Members → Except DocumentFault (List Entry)
  | [] => .ok []
  | (name, params) :: rest => do
      let first ← entry name params
      let others ← entriesOf rest
      pure (first :: others)

def entries : Json → Except DocumentFault (List Entry)
  | .obj members => entriesOf members
  | _ => .error .notMapping

/-! ### The primary key -/

def primaryKeys (entries : List Entry) : List Entry :=
  entries.filter fun entry => isTrue entry.params Parameter.primaryKey

/-- Exactly one entry is the primary key, and it is required. -/
def primaryKeyRule (entries : List Entry) : Except DocumentFault Unit :=
  match primaryKeys entries with
  | [] => .error .noPrimaryKey
  | [key] =>
      if isTrue key.params Parameter.required then .ok ()
      else .error (.primaryKeyNotRequired key.name)
  | keys => .error (.manyPrimaryKeys (keys.map Entry.name))

/-! ### Constraints of a kind -/

def neededConstraints (name : String) (kind : Kind) :
    Option Members → Except DocumentFault Members
  | some constraints => .ok constraints
  | none => .error (.constraintsMissing name kind)

/-- A list names the kind of its items, which are no lists. -/
def listRule (name : String) (constraints : Option Members) : Except DocumentFault Unit := do
  let constraints ← neededConstraints name .list constraints
  match param? constraints Constraint.innerType with
  | none => .error (.innerTypeMissing name)
  | some (.str inner) =>
      match Kind.ofName? inner with
      | none => .error (.innerTypeUnknown name inner)
      | some .list => .error (.listOfLists name)
      | some _ => .ok ()
  | some other => .error (.innerTypeNotString name other)

/-- A select lists its choices, which are strings. -/
def selectRule (name : String) (constraints : Option Members) : Except DocumentFault Unit := do
  let constraints ← neededConstraints name .select constraints
  match (param? constraints Constraint.allowedValues).bind Json.asArray? with
  | none => .error (.allowedValuesMissing name)
  | some values =>
      if values.all Json.isString then .ok () else .error (.allowedValuesNotStrings name)

/-- An image with constraints lists its extensions, at least one, which are strings. -/
def imageRule (name : String) (constraints : Members) : Except DocumentFault Unit :=
  match (param? constraints Constraint.acceptedTypes).bind Json.asArray? with
  | none => .error (.acceptedTypesUnusable name)
  | some types =>
      if !types.isEmpty && types.all Json.isString then .ok ()
      else .error (.acceptedTypesUnusable name)

/-- The text of a toggle, if it is there, is a string. -/
def toggleTextRule (name key : String) : Option Json → Except DocumentFault Unit
  | none => .ok ()
  | some value =>
      if value.isString then .ok () else .error (.toggleValueNotString name key value)

/-- A toggle with constraints has a text for one state at least, and both are empty or neither is. -/
def toggleRule (name : String) (constraints : Members) : Except DocumentFault Unit := do
  let on := param? constraints Constraint.valueTrue
  let off := param? constraints Constraint.valueFalse
  if on.isNone && off.isNone then .error (.toggleUndefined name)
  toggleTextRule name Constraint.valueTrue on
  toggleTextRule name Constraint.valueFalse off
  if (on == some (.str "")) != (off == some (.str "")) then .error (.toggleHalfEmpty name)

/-- The constraints fit the kind. -/
def kindRule (name : String) (constraints : Option Members) :
    Kind → Except DocumentFault Unit
  | .list => listRule name constraints
  | .select => selectRule name constraints
  | .image =>
      match constraints with
      | none => .ok ()
      | some constraints => imageRule name constraints
  | .toggle =>
      match constraints with
      | none => .ok ()
      | some constraints => toggleRule name constraints
  | _ => .ok ()

/-! ### One field -/

/-- The optional parameters and their types, in the order of their checks. -/
def optionalParameters : List (String × ParameterType) :=
  [(Parameter.displayName, .string), (Parameter.formHelpText, .string),
   (Parameter.required, .boolean), (Parameter.primaryKey, .boolean),
   (Parameter.mainAttribute, .integer), (Parameter.sortKey, .integer),
   (Parameter.constraints, .object)]

/-- The name of the kind, which must be a string. -/
def kindName (entry : Entry) : Except DocumentFault String :=
  match param? entry.params Parameter.kind with
  | none => .error (.kindMissing entry.name)
  | some (.str kind) => .ok kind
  | some other => .error (.kindNotString entry.name other)

/-- The parameters that are there have their types. -/
def typeRules (entry : Entry) : List (String × ParameterType) → Except DocumentFault Unit
  | [] => .ok ()
  | (key, expected) :: rest =>
      match param? entry.params key with
      | none => typeRules entry rest
      | some value =>
          if expected.admits value then typeRules entry rest
          else .error (.wrongParameterType entry.name key expected value)

def registeredKind (entry : Entry) (kindName : String) : Except DocumentFault Kind :=
  match Kind.ofName? kindName with
  | none => .error (.kindUnknown entry.name kindName)
  | some kind => .ok kind

def fieldRules (entry : Entry) : Except DocumentFault Unit := do
  let kindName ← kindName entry
  typeRules entry optionalParameters
  let kind ← registeredKind entry kindName
  kindRule entry.name ((param? entry.params Parameter.constraints).bind Json.asObject?) kind

/-! ### Rules across fields -/

/-- Applies a rule to each entry, up to the first that breaks it. -/
def forEach (rule : Entry → Except DocumentFault Unit) : List Entry → Except DocumentFault Unit
  | [] => .ok ()
  | entry :: rest => do
      rule entry
      forEach rule rest

/-- A text, if it is there, is a string. -/
def textRule (entry : Entry) (key : String) : Except DocumentFault Unit :=
  match param? entry.params key with
  | none => .ok ()
  | some value => if value.isString then .ok () else .error (.textNotString entry.name key value)

def textRules (entries : List Entry) : Except DocumentFault Unit :=
  forEach (fun entry => do
    textRule entry Parameter.displayName
    textRule entry Parameter.formHelpText) entries

/-- A value and the names of the fields that have it. -/
structure Group where
  value : Json
  names : List String
deriving DecidableEq

/-- Adds a name to the group of its value, which may be a new group. -/
def addToGroup (value : Json) (name : String) : List Group → List Group
  | [] => [{ value, names := [name] }]
  | group :: rest =>
      if group.value = value then { group with names := group.names ++ [name] } :: rest
      else group :: addToGroup value name rest

/-- The values of a parameter in the order of their first fields, each with all its fields. -/
def groups (key : String) (entries : List Entry) : List Group :=
  entries.foldl (fun groups entry =>
    match param? entry.params key with
    | none => groups
    | some value => addToGroup value entry.name groups) []

/-- No two fields share a value of the parameter. -/
def distinctRule (key : String) (entries : List Entry) : Except DocumentFault Unit :=
  match (groups key entries).find? (1 < ·.names.length) with
  | none => .ok ()
  | some group => .error (.sharedValue group.names key group.value)

/-! ### The document -/

/-- Validates a schema document. -/
def validate (document : Json) : Except DocumentFault Unit := do
  let entries ← entries document
  primaryKeyRule entries
  forEach fieldRules entries
  textRules entries
  distinctRule Parameter.sortKey entries
  distinctRule Parameter.mainAttribute entries

end AddressBook.Document
