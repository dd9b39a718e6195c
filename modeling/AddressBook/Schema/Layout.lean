import AddressBook.Schema.Basic
/-!
# The layout of a schema

The layout lists names of fields for display: all attributes, those with a sort key first and in its
order, and the main attributes in the order of their own key. Both sorts are stable, so ties and the
attributes without a sort key keep the order of the document.
-/

namespace AddressBook

namespace Schema

/-- The names of the fields as they are displayed. -/
structure Layout where
  primaryKey : Option String
  attributes : List String
  mainAttributes : List String
deriving DecidableEq, Repr

/-- Whether a key may stand before another one; every key may stand before none. -/
def Layout.keyLE : Option Int64 → Option Int64 → Bool
  | some a, some b => a ≤ b
  | some _, none => true
  | none, some _ => false
  | none, none => true

def layout (schema : Schema) : Layout :=
  { primaryKey := schema.primaryKey?.map Field.name
    attributes := (schema.fields.mergeSort (Layout.keyLE ·.sortKey ·.sortKey)).map Field.name
    mainAttributes :=
      ((schema.fields.filter (·.mainAttribute.isSome)).mergeSort
        (Layout.keyLE ·.mainAttribute ·.mainAttribute)).map Field.name }

def Layout.toJson (layout : Layout) : Json :=
  .obj [
    ("primary_key", (layout.primaryKey.map Json.str).getD .null),
    ("attributes", .arr (layout.attributes.map .str)),
    ("main_attributes", .arr (layout.mainAttributes.map .str))]

end Schema

end AddressBook
