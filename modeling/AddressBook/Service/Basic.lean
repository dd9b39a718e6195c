import AddressBook.Schema.Layout
import AddressBook.Service.Refusal
import AddressBook.Settings.Basic
import AddressBook.Store.Documents
import AddressBook.Store.RecordFolder
import AddressBook.Store.Records
import AddressBook.Store.Uploads
/-!
# The service

A service has its settings, the files it keeps the schema document and the uploads in, and the records.
What it can not know by itself, the time and a fresh name for an upload, comes with every request as an
`Occasion`.

The schema is rebuilt from the stored document whenever it is needed, so a new document counts from the
next request on.
-/

namespace AddressBook

/-- What the world supplies to one request. -/
structure Occasion where
  now : String
  uptimeSeconds : Nat
  freshName : String
deriving DecidableEq, Repr

/-- A service between two requests. -/
structure Service where
  settings : Settings
  files : FileTree
  records : RecordStore := {}
deriving DecidableEq

namespace Service

def documents (service : Service) : DocumentStore := { path := service.settings.schemaPath }

def uploads (service : Service) : UploadStore := { root := service.settings.uploadDir }

/-- Prepares the stores that the settings name, and starts without records. -/
def prepare (settings : Settings) (files : FileTree) : Except StoreFault Service := do
  let documents : DocumentStore := { path := settings.schemaPath }
  let uploads : UploadStore := { root := settings.uploadDir }
  let recordFolder : RecordFolder := { path := settings.databasePath }
  let (files, created) := documents.prepare files
  created
  let (files, created) := uploads.prepare files
  created
  let (files, created) := recordFolder.prepare files
  created
  pure { settings, files }

def currentDocument (service : Service) : Except Refusal Json :=
  (service.documents.load service.files).mapError Refusal.ofStore

/-- The schema that a stored document describes, with the policy of the settings. -/
def schemaOf (settings : Settings) (document : Json) : Except Refusal Schema :=
  match Schema.ofDocument document with
  | .ok schema => .ok { schema with policy := settings.untypedLists }
  | .error fault => .error (.internal s!"Stored schema is invalid: {fault.message}")

def currentSchema (service : Service) : Except Refusal Schema := do
  let document ← service.currentDocument
  schemaOf service.settings document

end Service

end AddressBook
