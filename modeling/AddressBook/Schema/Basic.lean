import AddressBook.Schema.Document
import AddressBook.Schema.Field
/-!
# Schemas

A schema is the ordered list of fields that a schema document describes, with the policy for the checks
of records. The document stays the source of truth: a schema is rebuilt from it whenever it is needed.

A record is checked field by field in the order of the document, and the first violation is the answer.
Fields that the system assigns can be skipped.
-/

namespace AddressBook

/-- The field whose value the record store assigns. -/
def idField : String := "id"

/-- The fields of a record, in order. -/
structure Schema where
  fields : List Field
  /-- What a list without an item kind means to the checks. -/
  policy : UntypedLists := .reject
deriving DecidableEq

namespace Schema

/-- The fields of the members of a document, up to the first that describes none. -/
def fieldsOf : Members → Except DocumentFault (List Field)
  | [] => .ok []
  | (name, params) :: rest => do
      let first ← Field.ofParameters name params
      let others ← fieldsOf rest
      pure (first :: others)

/-- The schema of a document that has been validated before. -/
def ofDocument : Json → Except DocumentFault Schema
  | .obj members => (fieldsOf members).map fun fields => { fields }
  | _ => .error .notObject

/-- The schema of a document that has yet to be validated. -/
def ofNewDocument (document : Json) : Except DocumentFault Schema := do
  Document.validate document
  ofDocument document

def field? (schema : Schema) (name : String) : Option Field :=
  schema.fields.find? (·.name == name)

/-- The first field marked as primary key. -/
def primaryKey? (schema : Schema) : Option Field := schema.fields.find? (·.primaryKey)

/-! ### Checking records -/

/-- Checks fields in order, up to the first violation. -/
def checkFields (policy : UntypedLists) (record : Members) :
    List Field → Except Violation Unit
  | [] => .ok ()
  | field :: rest => do
      field.check policy (record.get? field.name)
      checkFields policy record rest

/-- Checks a record, leaving out the fields to skip. -/
def check (schema : Schema) (record : Members) (skip : List String) : Except Violation Unit :=
  checkFields schema.policy record (schema.fields.filter (!skip.contains ·.name))

def referredFiles (schema : Schema) (record : Members) : List String :=
  schema.fields.flatMap fun field =>
    ((record.get? field.name).map field.referredFiles).getD []

end Schema

end AddressBook
