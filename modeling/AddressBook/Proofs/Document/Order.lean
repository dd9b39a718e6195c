import AddressBook.Proofs.Document.Groups
import AddressBook.Proofs.Document.Sound
/-!
# The order of the rules

The rules for schema documents stand in a fixed order: the document is looked at as a whole, then member by member, then
its primary key, then field by field, and at last the keys that no two fields share. A document may break many of them at
once. Each rule says on its own when a document breaks it and where the report then points, so that the first broken rule
can be told without running the validation.
-/

namespace AddressBook.Document

/-! ### Rules for one field -/

/-- A parameter that a field may go without. -/
inductive OptionalParameter where
  | displayName | formHelpText | required | primaryKey | mainAttribute | sortKey | constraints
deriving DecidableEq

namespace OptionalParameter

def key : OptionalParameter → String
  | displayName => Parameter.displayName
  | formHelpText => Parameter.formHelpText
  | required => Parameter.required
  | primaryKey => Parameter.primaryKey
  | mainAttribute => Parameter.mainAttribute
  | sortKey => Parameter.sortKey
  | constraints => Parameter.constraints

def type : OptionalParameter → ParameterType
  | displayName | formHelpText => .string
  | required | primaryKey => .boolean
  | mainAttribute | sortKey => .integer
  | constraints => .object

def rank : OptionalParameter → Nat
  | displayName => 0
  | formHelpText => 1
  | required => 2
  | primaryKey => 3
  | mainAttribute => 4
  | sortKey => 5
  | constraints => 6

end OptionalParameter

inductive FieldRule where
  /-- The kind is named, by a string. -/
  | kind
  /-- An optional parameter has its type. -/
  | typed (parameter : OptionalParameter)
  /-- The name of the kind is registered. -/
  | registered
  /-- The constraints fit the kind. -/
  | fits
deriving DecidableEq

/-- The place of a rule among the rules for one field. -/
def FieldRule.rank : FieldRule → List Nat
  | kind => [0]
  | typed parameter => [1, parameter.rank]
  | registered => [2]
  | fits => [3]

/-- A parameter that is there is a string. -/
def IsText (params : Members) (key : String) : Prop := ∀ value, Has params key value → ∃ s, value = .str s

namespace Entry

variable (entry : Entry)

/-- A report that points at the field. -/
def rejection (param : Names) (fault : DocumentFault) : Rejection :=
  { field := .one entry.name, param, message := fault.message }

/-- The constraints of the field do not fit a kind. -/
inductive Unfit (constraints : Members) : Kind → Rejection → Prop
  | innerTypeMissing (hmissing : ∀ value, ¬ Has constraints Constraint.innerType value) :
      Unfit constraints .list (entry.rejection (.one Constraint.innerType) (.innerTypeMissing entry.name))
  | innerTypeNotString {value : Json} (hvalue : Has constraints Constraint.innerType value)
      (hother : ∀ s, value ≠ .str s) :
      Unfit constraints .list (entry.rejection (.one Constraint.innerType) (.innerTypeNotString entry.name value))
  | innerTypeUnknown {name : String} (hname : Has constraints Constraint.innerType (.str name))
      (hunknown : ∀ kind, ¬ Kind.Registered name kind) :
      Unfit constraints .list (entry.rejection (.one Constraint.innerType) (.innerTypeUnknown entry.name name))
  | listOfLists {name : String} (hname : Has constraints Constraint.innerType (.str name))
      (hlist : Kind.Registered name .list) :
      Unfit constraints .list (entry.rejection (.one Constraint.innerType) (.listOfLists entry.name))
  | allowedValuesMissing (hmissing : ∀ values, ¬ Has constraints Constraint.allowedValues (.arr values)) :
      Unfit constraints .select (entry.rejection (.one Constraint.allowedValues) (.allowedValuesMissing entry.name))
  | allowedValuesNotStrings {values : List Json} (hvalues : Has constraints Constraint.allowedValues (.arr values))
      {value : Json} (hmem : value ∈ values) (hother : ∀ s, value ≠ .str s) :
      Unfit constraints .select (entry.rejection (.one Constraint.allowedValues) (.allowedValuesNotStrings entry.name))
  | acceptedTypes (himage : ¬ ImageConstraints constraints) :
      Unfit constraints .image (entry.rejection (.one Constraint.acceptedTypes) (.acceptedTypesUnusable entry.name))
  | toggleUndefined (hon : ∀ value, ¬ Has constraints Constraint.valueTrue value)
      (hoff : ∀ value, ¬ Has constraints Constraint.valueFalse value) :
      Unfit constraints .toggle
        (entry.rejection (.many [Constraint.valueTrue, Constraint.valueFalse]) (.toggleUndefined entry.name))
  | valueTrue {value : Json} (hvalue : Has constraints Constraint.valueTrue value) (hother : ∀ s, value ≠ .str s) :
      Unfit constraints .toggle (entry.rejection (.one Constraint.valueTrue)
        (.toggleValueNotString entry.name Constraint.valueTrue value))
  | valueFalse (hon : IsText constraints Constraint.valueTrue) {value : Json}
      (hvalue : Has constraints Constraint.valueFalse value) (hother : ∀ s, value ≠ .str s) :
      Unfit constraints .toggle (entry.rejection (.one Constraint.valueFalse)
        (.toggleValueNotString entry.name Constraint.valueFalse value))
  | toggleHalfEmpty (hon : IsText constraints Constraint.valueTrue) (hoff : IsText constraints Constraint.valueFalse)
      (hhalf : ¬ (Has constraints Constraint.valueTrue (.str "") ↔ Has constraints Constraint.valueFalse (.str ""))) :
      Unfit constraints .toggle
        (entry.rejection (.many [Constraint.valueTrue, Constraint.valueFalse]) (.toggleHalfEmpty entry.name))

/-- The field breaks a rule, and the report points there. -/
inductive Breaks : FieldRule → Rejection → Prop
  | kindMissing (hmissing : ∀ value, ¬ Has entry.params Parameter.kind value) :
      Breaks .kind (entry.rejection (.one Parameter.kind) (.kindMissing entry.name))
  | kindNotString {value : Json} (hvalue : Has entry.params Parameter.kind value) (hother : ∀ s, value ≠ .str s) :
      Breaks .kind (entry.rejection (.one Parameter.kind) (.kindNotString entry.name value))
  | typed {parameter : OptionalParameter} {value : Json} (hvalue : Has entry.params parameter.key value)
      (htype : ¬ parameter.type.Holds value) :
      Breaks (.typed parameter) (entry.rejection (.one parameter.key)
        (.wrongParameterType entry.name parameter.key parameter.type value))
  | kindUnknown {name : String} (hname : Has entry.params Parameter.kind (.str name))
      (hunknown : ∀ kind, ¬ Kind.Registered name kind) :
      Breaks .registered (entry.rejection (.one Parameter.kind) (.kindUnknown entry.name name))
  | noConstraints {name : String} {kind : Kind} (hname : Has entry.params Parameter.kind (.str name))
      (hkind : Kind.Registered name kind) (hneeds : kind = .list ∨ kind = .select)
      (hnone : ∀ constraints, ¬ Has entry.params Parameter.constraints (.obj constraints)) :
      Breaks .fits (entry.rejection (.one Parameter.constraints) (.constraintsMissing entry.name kind))
  | unfit {name : String} {kind : Kind} {constraints : Members} {rejection : Rejection}
      (hname : Has entry.params Parameter.kind (.str name)) (hkind : Kind.Registered name kind)
      (hconstraints : Has entry.params Parameter.constraints (.obj constraints))
      (hunfit : entry.Unfit constraints kind rejection) : Breaks .fits rejection

end Entry

/-! ### Rules for the document -/

inductive Rule where
  /-- The document is an object. -/
  | mapping
  /-- A member of the document has a name, and its parameters are an object. -/
  | member (index : Nat)
  /-- One field is the primary key. -/
  | keyCount
  /-- The primary key is required. -/
  | keyRequired
  | field (index : Nat) (rule : FieldRule)
  /-- No two fields share a sort key. -/
  | sortKeys
  /-- No two fields share a main attribute. -/
  | mainAttributes
deriving DecidableEq

namespace Rule

def stage : Rule → Nat
  | mapping => 0
  | member _ => 1
  | keyCount => 2
  | keyRequired => 3
  | field _ _ => 4
  | sortKeys => 5
  | mainAttributes => 6

/-- The place of a rule within its stage: members and fields come in the order of the document. -/
def placeInStage : Rule → List Nat
  | member index => [index]
  | field index rule => index :: rule.rank
  | mapping | keyCount | keyRequired | sortKeys | mainAttributes => []

/-- Rules are ordered by their ranks, number by number. -/
def rank (rule : Rule) : List Nat := rule.stage :: rule.placeInStage

end Rule

/-- Of the values that fields share at a parameter, this one comes first in the document. -/
structure SharedFirst (key : String) (entries : List Entry) (value : Json) : Prop where
  shared : 1 < (holders key value entries).length
  first : ∃ before entry after, entries = before ++ entry :: after ∧ Has entry.params key value ∧
    ∀ other ∈ before, ∀ own, Has other.params key own → (holders key own entries).length ≤ 1

/-- The document breaks a rule, and the report points there. -/
inductive Breaks (document : Json) : Rule → Rejection → Prop
  | notMapping (hdocument : ∀ members, document ≠ .obj members) :
      Breaks document .mapping
        { field := .one "", param := .one "", message := DocumentFault.notMapping.message }
  | emptyName {members : Members} {index : Nat} {params : Json} (hdocument : document = .obj members)
      (hmember : members[index]? = some ("", params)) :
      Breaks document (.member index)
        { field := .one "", param := .one "name", message := DocumentFault.emptyName.message }
  | notObject {members : Members} {index : Nat} {name : String} {params : Json} (hdocument : document = .obj members)
      (hmember : members[index]? = some (name, params)) (hname : name ≠ "") (hparams : ∀ own, params ≠ .obj own) :
      Breaks document (.member index)
        { field := .one name, param := .one Parameter.kind, message := (DocumentFault.parametersNotObject name).message }
  | noKey {entries : List Entry} (hentries : document = .obj (entries.map Entry.member))
      (hkeys : holders Parameter.primaryKey (.bool true) entries = []) :
      Breaks document .keyCount
        { field := .one "", param := .one Parameter.primaryKey, message := DocumentFault.noPrimaryKey.message }
  | manyKeys {entries keys : List Entry} (hentries : document = .obj (entries.map Entry.member))
      (hkeys : holders Parameter.primaryKey (.bool true) entries = keys) (hmany : 1 < keys.length) :
      Breaks document .keyCount
        { field := .many (keys.map Entry.name), param := .one Parameter.primaryKey
          message := (DocumentFault.manyPrimaryKeys (keys.map Entry.name)).message }
  | keyNotRequired {entries : List Entry} {key : Entry} (hentries : document = .obj (entries.map Entry.member))
      (hkey : holders Parameter.primaryKey (.bool true) entries = [key]) (hrequired : ¬ key.IsRequired) :
      Breaks document .keyRequired
        (key.rejection (.many [Parameter.primaryKey, Parameter.required]) (.primaryKeyNotRequired key.name))
  | field {entries : List Entry} {index : Nat} {entry : Entry} {rule : FieldRule} {rejection : Rejection}
      (hentries : document = .obj (entries.map Entry.member)) (hentry : entries[index]? = some entry)
      (hbreaks : entry.Breaks rule rejection) : Breaks document (.field index rule) rejection
  | sortKeys {entries : List Entry} {value : Json} (hentries : document = .obj (entries.map Entry.member))
      (hshared : SharedFirst Parameter.sortKey entries value) :
      Breaks document .sortKeys
        { field := .many ((holders Parameter.sortKey value entries).map Entry.name), param := .one Parameter.sortKey
          message := (DocumentFault.sharedValue ((holders Parameter.sortKey value entries).map Entry.name)
            Parameter.sortKey value).message }
  | mainAttributes {entries : List Entry} {value : Json} (hentries : document = .obj (entries.map Entry.member))
      (hshared : SharedFirst Parameter.mainAttribute entries value) :
      Breaks document .mainAttributes
        { field := .many ((holders Parameter.mainAttribute value entries).map Entry.name)
          param := .one Parameter.mainAttribute
          message := (DocumentFault.sharedValue ((holders Parameter.mainAttribute value entries).map Entry.name)
            Parameter.mainAttribute value).message }

/-- The document does not break a rule. -/
def Follows (document : Json) (rule : Rule) : Prop := ∀ rejection, ¬ Breaks document rule rejection

end AddressBook.Document
