import AddressBook.Settings.Basic
/-!
# Commands

The program either serves the contacts, or checks files without a service: a schema document, or a record
against a schema document.
-/

namespace AddressBook

/-- What the program is asked to do. -/
inductive Command where
  /-- Answer requests. -/
  | serve (overrides : Overrides)
  /-- Validate the schema document in a file. -/
  | checkSchema (file : String)
  /-- Check the record in a file against the schema document in another, but for the skipped fields. -/
  | checkRecord (schema record : String) (skip : List String)
deriving DecidableEq, Repr

/-- A command, with what can be given beside every command. -/
structure Invocation where
  /-- The file of the settings. -/
  config : Option String := none
  jsonLogs : Bool := false
  command : Command
deriving DecidableEq, Repr

end AddressBook
