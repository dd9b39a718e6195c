import AddressBook.Schema.Document
/-!
# Sound schema documents

What a schema document has to be, said without the order in which the rules are tried and without their
faults: the shape of the document, its one primary key, the parameters of each field and the keys that no
two fields share. Nothing here is computed. `Document.Has` is the only way that these rules look at a
parameter, so a parameter that is `null` is absent for all of them.
-/

namespace AddressBook

/-- A value is of the type. -/
inductive ParameterType.Holds : ParameterType → Json → Prop
  | string (s : String) : Holds .string (.str s)
  | boolean (b : Bool) : Holds .boolean (.bool b)
  | integer (n : Int) : Holds .integer (.int n)
  | object (members : Members) : Holds .object (.obj members)

/-- A kind goes by a name in the registry. -/
def Kind.Registered (name : String) (kind : Kind) : Prop := (name, kind) ∈ Kind.registry

namespace Document

/-- A parameter has a value: it is there and it is not `null`. -/
def Has (params : Members) (key : String) (value : Json) : Prop :=
  params.get? key = some value ∧ value ≠ .null

/-! ### Constraints -/

/-- A list names the kind of its items, which are no lists. -/
def ListConstraints (constraints : Members) : Prop :=
  ∃ name kind, Has constraints Constraint.innerType (.str name) ∧ Kind.Registered name kind ∧ kind ≠ .list

/-- A select lists its choices, all of them strings. -/
def SelectConstraints (constraints : Members) : Prop :=
  ∃ values : List String, Has constraints Constraint.allowedValues (.arr (values.map .str))

/-- An image lists its extensions, all of them strings, and at least one. -/
def ImageConstraints (constraints : Members) : Prop :=
  ∃ types : List String, types ≠ [] ∧ Has constraints Constraint.acceptedTypes (.arr (types.map .str))

/-- A toggle has a text for one state at least, texts are strings, and the empty one stands for both or neither. -/
structure ToggleConstraints (constraints : Members) : Prop where
  defined : ∃ value, Has constraints Constraint.valueTrue value ∨ Has constraints Constraint.valueFalse value
  valueTrue : ∀ value, Has constraints Constraint.valueTrue value → ∃ s, value = .str s
  valueFalse : ∀ value, Has constraints Constraint.valueFalse value → ∃ s, value = .str s
  empty : Has constraints Constraint.valueTrue (.str "") ↔ Has constraints Constraint.valueFalse (.str "")

/-! ### Fields -/

namespace Entry

def member (entry : Entry) : String × Json := (entry.name, .obj entry.params)

def IsPrimaryKey (entry : Entry) : Prop := Has entry.params Parameter.primaryKey (.bool true)

def IsRequired (entry : Entry) : Prop := Has entry.params Parameter.required (.bool true)

/-- A parameter that the field has is of the type. -/
def Typed (entry : Entry) (key : String) (type : ParameterType) : Prop :=
  ∀ value, Has entry.params key value → type.Holds value

/-- The field has constraints, and they are as demanded. -/
def Needs (entry : Entry) (demand : Members → Prop) : Prop :=
  ∃ constraints, Has entry.params Parameter.constraints (.obj constraints) ∧ demand constraints

/-- If the field has constraints, they are as demanded. -/
def Allows (entry : Entry) (demand : Members → Prop) : Prop :=
  ∀ constraints, Has entry.params Parameter.constraints (.obj constraints) → demand constraints

/-- The constraints of the field fit a kind. -/
def Fits (entry : Entry) : Kind → Prop
  | .list => entry.Needs ListConstraints
  | .select => entry.Needs SelectConstraints
  | .image => entry.Allows ImageConstraints
  | .toggle => entry.Allows ToggleConstraints
  | .integer | .str | .longStr | .url | .email => True

/-- The parameters of a field are sound. -/
structure Sound (entry : Entry) : Prop where
  kind : ∃ name kind, Has entry.params Parameter.kind (.str name) ∧ Kind.Registered name kind ∧ entry.Fits kind
  displayName : entry.Typed Parameter.displayName .string
  formHelpText : entry.Typed Parameter.formHelpText .string
  required : entry.Typed Parameter.required .boolean
  primaryKey : entry.Typed Parameter.primaryKey .boolean
  mainAttribute : entry.Typed Parameter.mainAttribute .integer
  sortKey : entry.Typed Parameter.sortKey .integer
  constraints : entry.Typed Parameter.constraints .object

/-- Two fields do not have the same number at a parameter. -/
def DifferAt (key : String) (entry other : Entry) : Prop :=
  ∀ m n : Int, Has entry.params key (.int m) → Has other.params key (.int n) → m ≠ n

end Entry

/-! ### Documents -/

/-- One field is marked as primary key, it is marked as required, and no other field is a primary key. -/
def HasPrimaryKey (entries : List Entry) : Prop :=
  ∃ before key after, entries = before ++ key :: after ∧ key.IsPrimaryKey ∧ key.IsRequired ∧
    ∀ other ∈ before ++ after, ¬ other.IsPrimaryKey

structure SoundEntries (entries : List Entry) : Prop where
  named : ∀ entry ∈ entries, entry.name ≠ ""
  primaryKey : HasPrimaryKey entries
  fields : ∀ entry ∈ entries, entry.Sound
  sortKeys : entries.Pairwise (Entry.DifferAt Parameter.sortKey)
  mainAttributes : entries.Pairwise (Entry.DifferAt Parameter.mainAttribute)

/-- A document is sound: an object of objects whose entries are sound. -/
def Sound (document : Json) : Prop :=
  ∃ entries : List Entry, document = .obj (entries.map Entry.member) ∧ SoundEntries entries

end Document

end AddressBook
