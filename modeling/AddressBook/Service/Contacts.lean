import AddressBook.Service.Basic
import AddressBook.Service.Input
/-!
# Requests about contacts

A new contact is checked against the schema. An update is merged into the stored infos, and the merged
infos are checked, so a change to a valid contact must only be valid in what it touches. A deleted
contact takes the uploaded files along that it refers to.
-/

namespace AddressBook.Service

open Http (Request)

/-- Every contact, in the order of the ids. -/
def contacts (service : Service) : Except Refusal Json :=
  match service.records.list with
  | .ok records => .ok (.arr (records.map Record.contact))
  | .error fault => .error (Refusal.ofStore fault)

/-- Checks infos against a schema, the id apart. -/
def checkInfos (schema : Schema) (infos : Members) : Except Refusal Unit :=
  match schema.check infos [idField] with
  | .ok () => .ok ()
  | .error violation => .error (.record violation)

/-! ### Creating -/

/-- The infos in a body, if they fit the schema. -/
def newInfos (service : Service) (request : Request) : Except Refusal Members := do
  let infos ← Input.infos service.settings.maxUploadBytes request
  let schema ← service.currentSchema
  checkInfos schema infos
  pure infos

/-- Stores a new contact and answers it. -/
def addContact (service : Service) (occasion : Occasion) (request : Request) :
    Service × Except Refusal Json :=
  match service.newInfos request with
  | .error error => (service, .error error)
  | .ok infos =>
      let (records, record) := service.records.create infos occasion.now
      ({ service with records }, .ok record.contact)

/-! ### Updating -/

def getContact (service : Service) (id : Nat) : Except Refusal Record :=
  match service.records.get id with
  | .ok (some record) => .ok record
  | .ok none => .error (Refusal.contactNotFound id)
  | .error fault => .error (Refusal.ofStore fault)

/-- The infos of a stored contact with the changes in a body, if they fit the schema. -/
def changedInfos (service : Service) (record : Record) (request : Request) :
    Except Refusal Members := do
  let changes ← Input.infos service.settings.maxUploadBytes request
  let infos := record.infos.extend changes
  let schema ← service.currentSchema
  checkInfos schema infos
  pure infos

/-- The id in a path and the infos that its contact is to have. -/
def requestedUpdate (service : Service) (segment : List Char) (request : Request) :
    Except Refusal (Nat × Members) := do
  let id ← Input.contactId segment
  let record ← service.getContact id
  let infos ← service.changedInfos record request
  pure (id, infos)

/-- Replaces the infos of a stored contact and answers it. -/
def storeUpdate (service : Service) (id : Nat) (infos : Members) : Service × Except Refusal Json :=
  let (records, updated) := service.records.update id infos
  ({ service with records },
    match updated with
    | .ok record => .ok record.contact
    | .error fault => .error (Refusal.ofStore fault))

/-- Merges a body into a stored contact and answers it. -/
def changeContact (service : Service) (segment : List Char) (request : Request) :
    Service × Except Refusal Json :=
  match service.requestedUpdate segment request with
  | .error error => (service, .error error)
  | .ok (id, infos) => service.storeUpdate id infos

/-! ### Deleting -/

/-- Removes files, passing over those that can not be removed. -/
def removeFiles (uploads : UploadStore) (files : FileTree) (names : List String) : FileTree :=
  names.foldl (fun files name => (uploads.remove files name).1) files

/-- Removes the files that a record refers to; without a usable schema there are none. -/
def removeReferredFiles (service : Service) (record : Record) : Service :=
  match service.currentSchema with
  | .error _ => service
  | .ok schema =>
      { service with
        files := removeFiles service.uploads service.files (schema.referredFiles record.infos) }

/-- Removes a contact and the files that it refers to. -/
def removeContact (service : Service) (segment : List Char) : Service × Except Refusal Unit :=
  match Input.contactId segment with
  | .error error => (service, .error error)
  | .ok id =>
      let (records, deleted) := service.records.delete id
      let service := { service with records }
      match deleted with
      | .error fault => (service, .error (Refusal.ofStore fault))
      | .ok none => (service, .error (Refusal.contactNotFound id))
      | .ok (some record) => (service.removeReferredFiles record, .ok ())

end AddressBook.Service
