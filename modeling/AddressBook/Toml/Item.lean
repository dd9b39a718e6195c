import AddressBook.Assoc
/-!
# TOML items

An item is a value, a table or an array of tables. A table remembers how it came about, because that
decides what may still be added to it: a table that was only passed through on the way to a header may
get a header of its own later, a table made by dotted keys may only grow by dotted keys, and a table
with a header or in braces is never opened again.
-/

namespace AddressBook.Toml

/-- How a table came about. -/
inductive TableKind where
  /-- It has a header of its own, or is the document. -/
  | header
  /-- It stands on the way to the header of another table. -/
  | implicit
  /-- It stands on the way of a dotted key. -/
  | dotted
  /-- It is written in braces. -/
  | inlined
deriving DecidableEq, Repr

/-- What a key stands for; numbers with a point and dates are kept as they were written. -/
inductive Item where
  | string (value : String)
  | integer (value : Int)
  | float (literal : String)
  | boolean (value : Bool)
  | dateTime (literal : String)
  | array (items : List Item)
  | table (kind : TableKind) (entries : List (String × Item))
  | tables (elements : List (List (String × Item)))
deriving Inhabited

abbrev Entries := Assoc String Item

/-! ### Reaching into tables -/

/--
Changes the table that a path leads to from a table of the given kind, making the tables that are
missing on the way. A path of a dotted key passes no table that has a header.
-/
def reach {α : Type} (dotted : Bool) (change : TableKind → Entries → Option (α × Entries)) :
    List String → TableKind → Entries → Option (α × Entries)
  | [], kind, entries => change kind entries
  | key :: path, _, entries =>
      match entries.get? key with
      | none =>
          let kind := if dotted then .dotted else .implicit
          (reach dotted change path kind []).map fun (a, inner) =>
            (a, entries.insert key (.table kind inner))
      | some (.table kind inner) =>
          if kind = .inlined ∨ (dotted ∧ kind = .header) then none
          else
            (reach dotted change path kind inner).map fun (a, inner) =>
              (a, entries.insert key (.table kind inner))
      | some (.tables elements) =>
          match elements.getLast? with
          | none => none
          | some last =>
              (reach dotted change path .header last).map fun (a, last) =>
                (a, entries.insert key (.tables (elements.dropLast ++ [last])))
      | some _ => none

/-- Adds a key that is not there yet; a table of dotted keys takes the last part of dotted keys only. -/
def assign (isDotted : Bool) (key : String) (value : Item) (kind : TableKind) (entries : Entries) :
    Option (Unit × Entries) :=
  if (kind == .dotted) != isDotted then none
  else
    match entries.get? key with
    | some _ => none
    | none => some ((), entries.insert key value)

/-- Sets the value of a key with dots in a table of the given kind. -/
def setKey (keys : List String) (value : Item) (kind : TableKind) (entries : Entries) :
    Option Entries :=
  match keys.getLast? with
  | none => none
  | some key =>
      let path := keys.dropLast
      (reach true (assign (!path.isEmpty) key value) path kind entries).map Prod.snd

/-! ### Headers -/

/-- The tables that are finished, and the one whose lines are being read. -/
structure Draft where
  /-- The finished tables; empty while the lines before the first header are read. -/
  root : Entries := []
  /-- Where the table goes; empty before the first header. -/
  path : List String := []
  /-- Whether the table is an element of an array of tables. -/
  repeated : Bool := false
  entries : Entries := []
deriving Inhabited

namespace Draft

/-- Adds a finished table under its key. -/
def place (key : String) (repeated : Bool) (table : Entries) (entries : Entries) :
    Option (Unit × Entries) :=
  match repeated, entries.get? key with
  | true, none => some ((), entries.insert key (.tables [table]))
  | true, some (.tables elements) => some ((), entries.insert key (.tables (elements ++ [table])))
  | false, none => some ((), entries.insert key (.table .header table))
  | _, some _ => none

/-- The document with the table that is being read in its place. -/
def finish (draft : Draft) : Option Entries :=
  match draft.path.getLast? with
  | none => some draft.entries
  | some key =>
      (reach false (fun _ entries => place key draft.repeated draft.entries entries)
        draft.path.dropLast .header draft.root).map Prod.snd

/-- Takes out the table that a header opens: a new one, or one that was only passed through. -/
def takeTable (key : String) (entries : Entries) : Option (Entries × Entries) :=
  match entries.get? key with
  | none => some ([], entries)
  | some (.table .implicit inner) => some (inner, entries.erase key)
  | some _ => none

/-- Opens the table of a header. -/
def openTable (draft : Draft) (path : List String) : Option Draft := do
  let root ← draft.finish
  let key ← path.getLast?
  let (entries, root) ← reach false (fun _ entries => takeTable key entries) path.dropLast .header root
  pure { root, path, repeated := false, entries }

/-- Finds or makes the array of tables that gets another element. -/
def takeTables (key : String) (entries : Entries) : Option (Unit × Entries) :=
  match entries.get? key with
  | none => some ((), entries.insert key (.tables []))
  | some (.tables _) => some ((), entries)
  | some _ => none

/-- Opens an element of the array of tables of a header. -/
def openElement (draft : Draft) (path : List String) : Option Draft := do
  let root ← draft.finish
  let key ← path.getLast?
  let (_, root) ← reach false (fun _ entries => takeTables key entries) path.dropLast .header root
  pure { root, path, repeated := true, entries := [] }

def set (draft : Draft) (keys : List String) (value : Item) : Option Draft :=
  (setKey keys value .header draft.entries).map fun entries => { draft with entries }

end Draft

end AddressBook.Toml
