import AddressBook.Json.Printer
import AddressBook.Schema.Kind
/-!
# Violations and rejections

A record fails a schema with a `Violation`: a required field without a value, or a value of the wrong
kind. A schema document is refused for a `DocumentFault`, the rule it breaks; what a client is shown of
it is a `Rejection`, which names the fields and the parameters involved and explains the rule.
-/

namespace AddressBook

/-! ### Names -/

/-- One name, or a list of names. -/
inductive Names where
  | one (name : String)
  | many (names : List String)
deriving DecidableEq, Repr

namespace Names

def toList : Names → List String
  | one name => [name]
  | many names => names

def contains (names : Names) (name : String) : Bool := names.toList.contains name

/-- The names with commas between them. -/
def text (names : Names) : String := ", ".intercalate names.toList

/-- A string for one name, an array for a list. -/
def toJson : Names → Json
  | one name => .str name
  | many names => .arr (names.map .str)

end Names

/-! ### Violations -/

/-- Why a record fails a schema. -/
inductive Violation where
  | missingRequiredValue (field : String)
  | wrongType (field : String) (expected : Kind)
deriving DecidableEq, Repr

/-- The violation of the field whose value is of the wrong kind. -/
def KindMismatch.forField (mismatch : KindMismatch) (field : String) : Violation :=
  .wrongType field mismatch.expected

def KindMismatch.message (mismatch : KindMismatch) : String :=
  s!"value is not a valid {mismatch.expected.displayName}"

namespace Violation

/-- The field that failed. -/
def field : Violation → String
  | missingRequiredValue field => field
  | wrongType field _ => field

def code : Violation → String
  | missingRequiredValue _ => "missing_required_value"
  | wrongType _ _ => "wrong_type"

def message : Violation → String
  | missingRequiredValue field => s!"Missing value for required field '{field}'"
  | wrongType field expected => s!"Wrong type for field '{field}', expected {expected.displayName}"

/-- The violation as it is sent. -/
def toJson (violation : Violation) : Json :=
  match violation with
  | missingRequiredValue field => .obj [("code", .str violation.code), ("field", .str field)]
  | wrongType field expected =>
      .obj [("code", .str violation.code), ("field", .str field),
        ("expected_type", .str expected.displayName)]

end Violation

/-! ### Names of the parameters of a field -/

namespace Parameter

def kind : String := "type"

def displayName : String := "display_name"

def formHelpText : String := "form_help_text"

def required : String := "required"

def primaryKey : String := "primary_key"

def mainAttribute : String := "main_attribute"

def sortKey : String := "sort_key"

def constraints : String := "additional_type_parameters"

end Parameter

/-! ### Faults of schema documents -/

/-- The type of value that a parameter takes. -/
inductive ParameterType where
  | string | boolean | integer | object
deriving DecidableEq, Repr

namespace ParameterType

def name : ParameterType → String
  | string => "string"
  | boolean => "boolean"
  | integer => "integer"
  | object => "object"

def admits : ParameterType → Json → Bool
  | string, value => value.isString
  | boolean, value => value.isBool
  | integer, value => value.isInteger
  | object, value => value.isObject

end ParameterType

/-- A rejected schema document: the fields and parameters at fault, and the rule they break. -/
structure Rejection where
  field : Names
  param : Names
  message : String
deriving DecidableEq, Repr

namespace Rejection

def code : String := "invalid_schema"

/-- The rejection in a report. -/
def toJson (invalid : Rejection) : Json :=
  .obj [("field", invalid.field.toJson), ("param", invalid.param.toJson),
    ("message", .str invalid.message)]

end Rejection

/-- The rule that a schema document breaks. -/
inductive DocumentFault where
  /-- The document to be validated is no object. -/
  | notMapping
  /-- The document to be loaded is no object. -/
  | notObject
  | emptyName
  | parametersNotObject (field : String)
  | noPrimaryKey
  | manyPrimaryKeys (fields : List String)
  | primaryKeyNotRequired (field : String)
  | kindMissing (field : String)
  | kindNotString (field : String) (value : Json)
  /-- The document to be loaded names no kind. -/
  | kindUnreadable (field : String)
  | kindUnknown (field : String) (kind : String)
  | wrongParameterType (field : String) (param : String) (expected : ParameterType) (value : Json)
  | constraintsMissing (field : String) (kind : Kind)
  | innerTypeMissing (field : String)
  | innerTypeNotString (field : String) (value : Json)
  | innerTypeUnknown (field : String) (kind : String)
  | listOfLists (field : String)
  | allowedValuesMissing (field : String)
  | allowedValuesNotStrings (field : String)
  | acceptedTypesUnusable (field : String)
  | toggleUndefined (field : String)
  | toggleValueNotString (field : String) (param : String) (value : Json)
  | toggleHalfEmpty (field : String)
  | textNotString (field : String) (param : String) (value : Json)
  | sharedValue (fields : List String) (param : String) (value : Json)
deriving DecidableEq

namespace DocumentFault

/-- The fields at fault; the empty name stands for the document. -/
def field : DocumentFault → Names
  | notMapping | notObject | emptyName | noPrimaryKey => .one ""
  | manyPrimaryKeys fields | sharedValue fields _ _ => .many fields
  | parametersNotObject field | primaryKeyNotRequired field | kindMissing field
  | kindNotString field _ | kindUnreadable field | kindUnknown field _
  | wrongParameterType field _ _ _ | constraintsMissing field _ | innerTypeMissing field
  | innerTypeNotString field _ | innerTypeUnknown field _ | listOfLists field
  | allowedValuesMissing field | allowedValuesNotStrings field | acceptedTypesUnusable field
  | toggleUndefined field | toggleValueNotString field _ _ | toggleHalfEmpty field
  | textNotString field _ _ => .one field

/-- The parameters at fault. -/
def param : DocumentFault → Names
  | notMapping | notObject => .one ""
  | emptyName => .one "name"
  | parametersNotObject _ | kindMissing _ | kindNotString _ _ | kindUnreadable _
  | kindUnknown _ _ => .one Parameter.kind
  | noPrimaryKey | manyPrimaryKeys _ => .one Parameter.primaryKey
  | primaryKeyNotRequired _ => .many [Parameter.primaryKey, Parameter.required]
  | constraintsMissing _ _ => .one Parameter.constraints
  | innerTypeMissing _ | innerTypeNotString _ _ | innerTypeUnknown _ _ | listOfLists _ =>
      .one Constraint.innerType
  | allowedValuesMissing _ | allowedValuesNotStrings _ => .one Constraint.allowedValues
  | acceptedTypesUnusable _ => .one Constraint.acceptedTypes
  | toggleUndefined _ | toggleHalfEmpty _ => .many [Constraint.valueTrue, Constraint.valueFalse]
  | wrongParameterType _ param _ _ | toggleValueNotString _ param _ | textNotString _ param _
  | sharedValue _ param _ => .one param

def message : DocumentFault → String
  | notMapping => "Schema document must be a JSON object mapping field names to their parameters"
  | notObject => "Schema document must be a JSON object"
  | emptyName => "Field names must not be empty"
  | parametersNotObject field => s!"Parameters of field '{field}' must be an object"
  | noPrimaryKey => "Exactly one field must be marked as primary key, none found"
  | manyPrimaryKeys fields =>
      s!"Only one field can be marked as primary key, found {fields.length}: " ++
        ", ".intercalate fields
  | primaryKeyNotRequired field => s!"Primary key field '{field}' must also be required"
  | kindMissing field => s!"Missing parameter 'type' for field '{field}'"
  | kindNotString field value =>
      s!"Parameter 'type' of field '{field}' must be a string, got {value.compact}"
  | kindUnreadable field => s!"Field '{field}' has no valid 'type'"
  | kindUnknown field kind => s!"Unknown type '{kind}' for field '{field}'"
  | wrongParameterType field param expected value =>
      s!"Parameter '{param}' of field '{field}' must be a {expected.name}, got {value.compact}"
  | constraintsMissing field kind =>
      s!"Field '{field}' of type '{kind.name}' requires '{Parameter.constraints}'"
  | innerTypeMissing field => s!"Field '{field}' of type 'list' must declare an 'inner_type'"
  | innerTypeNotString field value =>
      s!"'inner_type' of field '{field}' must be a type name, got {value.compact}"
  | innerTypeUnknown field kind => s!"Unknown inner type '{kind}' for field '{field}'"
  | listOfLists field => s!"Field '{field}' cannot be a list of lists"
  | allowedValuesMissing field =>
      s!"Field '{field}' of type 'select' requires a list of 'allowed_values'"
  | allowedValuesNotStrings field =>
      s!"'allowed_values' of field '{field}' must only contain strings"
  | acceptedTypesUnusable field =>
      s!"'accepted_types' of field '{field}' must be a non-empty list of extensions"
  | toggleUndefined field =>
      s!"Field '{field}' of type 'toggle' must define 'value_true' or 'value_false'"
  | toggleValueNotString field param value | textNotString field param value =>
      s!"'{param}' of field '{field}' must be a string, got {value.compact}"
  | toggleHalfEmpty field =>
      s!"'value_true' and 'value_false' of field '{field}' must both be empty or both be set"
  | sharedValue fields param value =>
      "Fields " ++ ", ".intercalate fields ++ s!" share the same '{param}' value {value.compact}"

/-- What a client is shown of the fault. -/
def report (fault : DocumentFault) : Rejection :=
  { field := fault.field, param := fault.param, message := fault.message }

end DocumentFault

end AddressBook
