import AddressBook.Command.Failure
import AddressBook.Schema.Kind
import AddressBook.Settings.SocketAddress
import AddressBook.Toml.Reader
/-!
# Settings of the service

Every setting has a default. A TOML document sets some of them, keys that it does not know are passed
over, and single settings are overridden afterwards.
-/

namespace AddressBook

/-- The settings of the service. -/
structure Settings where
  host : String := "127.0.0.1"
  port : UInt16 := 5000
  /-- The file of the schema document. -/
  schemaPath : String := "config.json"
  /-- The folder of uploaded files. -/
  uploadDir : String := "uploads"
  /-- The folder of the records. -/
  databasePath : String := "contacts.db"
  /-- What a list without an item kind means when a record is checked. -/
  untypedLists : UntypedLists := .reject
  /-- The most bytes that the body of a request has. -/
  maxUploadBytes : Nat := 16 * 1024 * 1024
deriving DecidableEq, Repr

/-- Settings given on the command line. -/
structure Overrides where
  port : Option UInt16 := none
  host : Option String := none
  schema : Option String := none
  uploadDir : Option String := none
  database : Option String := none
deriving DecidableEq, Repr

/-- The settings with those of the command line in place. -/
def Overrides.apply (overrides : Overrides) (settings : Settings) : Settings :=
  { settings with
    port := overrides.port.getD settings.port
    host := overrides.host.getD settings.host
    schemaPath := overrides.schema.getD settings.schemaPath
    uploadDir := overrides.uploadDir.getD settings.uploadDir
    databasePath := overrides.database.getD settings.databasePath }

namespace Settings

/-! ### Reading TOML -/

def string? : Toml.Item → Option String
  | .string s => some s
  | _ => none

/-- A whole number from zero up to below a bound. -/
def natBelow? (bound : Nat) : Toml.Item → Option Nat
  | .integer n => if 0 ≤ n ∧ n < bound then some n.toNat else none
  | _ => none

def isHollow : Toml.Item → Bool
  | .array items => items.isEmpty
  | .table _ entries => entries.isEmpty
  | _ => false

/-- A policy: its name, or a table whose one key is the name and holds nothing. -/
def policy? : Toml.Item → Option UntypedLists
  | .string name => UntypedLists.ofName? name
  | .table _ [(name, content)] =>
      if isHollow content then UntypedLists.ofName? name else none
  | _ => none

/-- The setting at a key, read as it must be, or its default if the key is not there. -/
def setting? {α : Type} (entries : Toml.Entries) (key : String) (read : Toml.Item → Option α)
    (default : α) : Option α :=
  match entries.get? key with
  | none => some default
  | some item => read item

def ofEntries? (entries : Toml.Entries) : Option Settings := do
  let defaults : Settings := {}
  let host ← setting? entries "host" string? defaults.host
  let port ← setting? entries "port" (natBelow? (Nat.pow 2 16)) defaults.port.toNat
  let schemaPath ← setting? entries "schema_path" string? defaults.schemaPath
  let uploadDir ← setting? entries "upload_dir" string? defaults.uploadDir
  let databasePath ← setting? entries "database_path" string? defaults.databasePath
  let untypedLists ← setting? entries "untyped_lists" policy? defaults.untypedLists
  let maxUploadBytes ←
    setting? entries "max_upload_bytes" (natBelow? (Nat.pow 2 64)) defaults.maxUploadBytes
  pure { host, port := UInt16.ofNat port, schemaPath, uploadDir, databasePath, untypedLists,
         maxUploadBytes }

def parse (text : List Char) : Except CommandFailure Settings :=
  match (Toml.parse? text).bind ofEntries? with
  | some settings => .ok settings
  | none => .error .toml

/-! ### What follows from settings -/

def addressText (settings : Settings) : String := settings.host ++ ":" ++ toString settings.port.toNat

def address (settings : Settings) : Except CommandFailure SocketAddress :=
  match SocketAddress.parse? settings.addressText with
  | some address => .ok address
  | none => .error (.invalidAddress settings.addressText)

end Settings

end AddressBook
