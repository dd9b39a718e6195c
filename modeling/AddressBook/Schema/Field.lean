import AddressBook.Schema.Fault
/-!
# Fields

A field is a named place of a record with a kind, built from one member of a schema document. Only the
kind is demanded there: any other parameter of an unexpected type reads as absent, because refusing it is
the part of validation. A field is written back under the parameter names of the document.

A field can be built without a document too: from its name and its kind, setting one property after another.
-/

namespace AddressBook

/-- A named place of a record. -/
structure Field where
  name : String
  displayName : Option String := none
  formHelpText : Option String := none
  kind : Kind
  required : Bool := false
  primaryKey : Bool := false
  mainAttribute : Option Int64 := none
  sortKey : Option Int64 := none
  constraints : Members := []
deriving DecidableEq

namespace Field

/-! ### Reading and writing -/

/-- A whole number of 64 signed bits. -/
def int64? (value : Json) : Option Int64 := value.asSigned?.map Int64.ofInt

/-- The field with a name and the members that describe it. -/
def ofMembers (name : String) (params : Members) : Except DocumentFault Field :=
  match (params.get? Parameter.kind).bind Json.asString? with
  | none => .error (.kindUnreadable name)
  | some kindName =>
      match Kind.ofName? kindName with
      | none => .error (.kindUnknown name kindName)
      | some kind =>
          .ok {
            name
            displayName := (params.get? Parameter.displayName).bind Json.asString?
            formHelpText := (params.get? Parameter.formHelpText).bind Json.asString?
            kind
            required := ((params.get? Parameter.required).bind Json.asBool?).getD false
            primaryKey := ((params.get? Parameter.primaryKey).bind Json.asBool?).getD false
            mainAttribute := (params.get? Parameter.mainAttribute).bind int64?
            sortKey := (params.get? Parameter.sortKey).bind int64?
            constraints := ((params.get? Parameter.constraints).bind Json.asObject?).getD [] }

/-- The field that a member of a schema document describes. -/
def ofParameters (name : String) : Json → Except DocumentFault Field
  | .obj params => ofMembers name params
  | _ => .error (.parametersNotObject name)

/-- The field as an object under the parameter names of a document; absent texts and keys are left out. -/
def toJson (field : Field) : Json :=
  .obj (
    [("name", .str field.name)] ++
    (field.displayName.map fun s => (Parameter.displayName, Json.str s)).toList ++
    (field.formHelpText.map fun s => (Parameter.formHelpText, Json.str s)).toList ++
    [(Parameter.kind, .str field.kind.name), (Parameter.required, .bool field.required),
      (Parameter.primaryKey, .bool field.primaryKey)] ++
    (field.mainAttribute.map fun n => (Parameter.mainAttribute, Json.int n.toInt)).toList ++
    (field.sortKey.map fun n => (Parameter.sortKey, Json.int n.toInt)).toList ++
    [(Parameter.constraints, .obj field.constraints)])

/-! ### Building -/

/-- A property that is set when a field is built; there is none for the help text. -/
inductive Setting where
  | required (value : Bool)
  | primaryKey (value : Bool)
  | displayName (text : String)
  | sortKey (key : Int64)
  | mainAttribute (key : Int64)
  | constraints (members : Members)

def set (field : Field) : Setting → Field
  | .required value => { field with required := value }
  | .primaryKey value => { field with primaryKey := value }
  | .displayName text => { field with displayName := some text }
  | .sortKey key => { field with sortKey := some key }
  | .mainAttribute key => { field with mainAttribute := some key }
  | .constraints members => { field with constraints := members }

/-- An optional field with the properties that are set, in their order. -/
def build (name : String) (kind : Kind) (settings : List Setting) : Field :=
  settings.foldl set { name, kind }

/-! ### Properties -/

/-- The name shown to people: the display name, or else the name itself. -/
def label (field : Field) : String := field.displayName.getD field.name

def innerKind? (field : Field) : Option Kind :=
  if field.kind = .list then
    ((field.constraints.get? Constraint.innerType).bind Json.asString?).bind Kind.ofName?
  else none

/-! ### Checking -/

/-- Checks the value of a record at this field; no value, or an empty one, only fails a required field. -/
def check (field : Field) (policy : UntypedLists) (value : Option Json) :
    Except Violation Unit :=
  match value.filter (!·.isEmpty) with
  | none => if field.required then .error (.missingRequiredValue field.name) else .ok ()
  | some value =>
      match field.kind.check field.constraints policy value with
      | .ok () => .ok ()
      | .error mismatch => .error (mismatch.forField field.name)

def referredFiles (field : Field) (value : Json) : List String :=
  if field.kind.holdsFile then value.asString?.toList
  else if field.innerKind?.any Kind.holdsFile then
    (value.asArray?.getD []).filterMap Json.asString?
  else []

end Field

end AddressBook
