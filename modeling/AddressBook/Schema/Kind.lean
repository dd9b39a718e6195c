import AddressBook.Json.Basic
import AddressBook.Text.Lowercase
import AddressBook.Text.Split
/-!
# Kinds of fields

A kind says which values a field may hold. A schema document names a kind by one of its registered names;
two kinds have a second name. The checker of a kind looks at a value, at the constraints of the field and
at the policy for lists without an item kind, and answers with the kind that the value fails.

A list hands its own constraints to the checks of its items, so a list of images restricts the extensions
of every item.
-/

namespace AddressBook

/-- What a field may hold. -/
inductive Kind where
  | integer | str | longStr | url | email | select | list | image | toggle
deriving DecidableEq, Repr, Inhabited

/-- What a list without an item kind means when a record is checked. -/
inductive UntypedLists where
  | reject | accept
deriving DecidableEq, Repr, Inhabited

/-- A value is not of the kind expected. -/
structure KindMismatch where
  expected : Kind
deriving DecidableEq, Repr

/-! ### Names of the parameters inside constraints -/

namespace Constraint

def innerType : String := "inner_type"

def allowedValues : String := "allowed_values"

def acceptedTypes : String := "accepted_types"

def valueTrue : String := "value_true"

def valueFalse : String := "value_false"

end Constraint

namespace UntypedLists

/-- The name of the policy in settings. -/
def name : UntypedLists → String
  | reject => "reject"
  | accept => "accept"

def ofName? : String → Option UntypedLists
  | "reject" => some reject
  | "accept" => some accept
  | _ => none

end UntypedLists

namespace Kind

/-! ### The registry -/

def all : List Kind := [integer, str, longStr, url, email, select, list, image, toggle]

/-- The registered names and their kinds. -/
def registry : List (String × Kind) :=
  [("integer", integer), ("str", str), ("string", str), ("long_str", longStr), ("url", url),
   ("email", email), ("select", select), ("list", list), ("image", image), ("toggle", toggle),
   ("boolean", toggle)]

def ofName? (name : String) : Option Kind := registry.lookup name

/-- The first name of a kind. -/
def name : Kind → String
  | integer => "integer"
  | str => "str"
  | longStr => "long_str"
  | url => "url"
  | email => "email"
  | select => "select"
  | list => "list"
  | image => "image"
  | toggle => "toggle"

/-- The name of a kind in the report of a violation. -/
def displayName : Kind → String
  | toggle => "boolean"
  | kind => kind.name

/-- Whether the values of a kind name uploaded files. -/
def holdsFile : Kind → Bool
  | image => true
  | _ => false

/-! ### Checking values -/

/-- The text after the last point, if there is a point. -/
def extension? (path : String) : Option String :=
  (Text.cutLast? '.' path.toList).map fun (_, after) => String.ofList after

/-- The extensions that an image is restricted to, if it is. -/
def acceptedExtensions? (constraints : Members) : Option (List Json) :=
  match constraints.get? Constraint.acceptedTypes with
  | some (.arr (first :: rest)) => some (first :: rest)
  | _ => none

/-- Whether an extension is one of those accepted, letter case apart. -/
def acceptsExtension (accepted : List Json) (extension : String) : Bool :=
  (accepted.filterMap Json.asString?).any fun entry =>
    Text.lowercase entry == Text.lowercase extension

/-- Whether a text names an image that the constraints admit. -/
def isImagePath (constraints : Members) (path : String) : Bool :=
  match extension? path with
  | none => false
  | some extension =>
      match acceptedExtensions? constraints with
      | none => true
      | some accepted => acceptsExtension accepted extension

/-- What a list demands of its items. -/
inductive ItemRule where
  /-- No kind is named. -/
  | untyped
  /-- The name is no registered one. -/
  | unknown
  /-- Items are of this kind. -/
  | each (kind : Kind)
deriving DecidableEq, Repr

/-- The demand that constraints make of the items of a list. -/
def itemRule (constraints : Members) : ItemRule :=
  match (constraints.get? Constraint.innerType).bind Json.asString? with
  | none => .untyped
  | some name =>
      match ofName? name with
      | none => .unknown
      | some kind => .each kind

/-- Whether a value that is not made of other values is of a kind. -/
def admits (kind : Kind) (constraints : Members) (value : Json) : Bool :=
  match kind with
  | integer => value.isInteger
  | str | longStr | url | email | select => value.isString
  | toggle => value.isBool
  | image =>
      match value with
      | .str path => isImagePath constraints path
      | _ => false
  | list => false

mutual

/-- Checks a value that is not empty against a kind. -/
def check (constraints : Members) (policy : UntypedLists) (kind : Kind) :
    Json → Except KindMismatch Unit
  | .arr items =>
      if kind = list then
        match itemRule constraints with
        | .each inner => checkItems constraints policy inner items
        | .unknown => .error ⟨list⟩
        | .untyped =>
            match policy with
            | .accept => .ok ()
            | .reject => .error ⟨list⟩
      else .error ⟨kind⟩
  | value => if kind.admits constraints value then .ok () else .error ⟨kind⟩

/-- Checks the items of a list, up to the first that fails. -/
def checkItems (constraints : Members) (policy : UntypedLists) (kind : Kind) :
    List Json → Except KindMismatch Unit
  | [] => .ok ()
  | item :: rest =>
      match check constraints policy kind item with
      | .error mismatch => .error mismatch
      | .ok () => checkItems constraints policy kind rest

end

end Kind

end AddressBook
