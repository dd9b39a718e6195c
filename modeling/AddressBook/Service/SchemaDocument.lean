import AddressBook.Service.Basic
import AddressBook.Service.Input
/-!
# Requests about the schema

The schema document can be read and replaced; a new one is validated first. The layout and the health of
the service follow from the stored document.
-/

namespace AddressBook.Service

open Http (Request)

def version : String := "0.3.0"

/-- The health of the service: whether its stored document describes a schema. -/
def health (service : Service) (occasion : Occasion) : Json :=
  let loaded := service.currentSchema.toBool
  .obj [("status", .str (if loaded then "healthy" else "degraded")), ("schema_loaded", .bool loaded),
    ("uptime_seconds", .int occasion.uptimeSeconds), ("timestamp", .str occasion.now),
    ("version", .str version)]

def layout (service : Service) : Except Refusal Json :=
  (service.currentSchema).map fun schema => schema.layout.toJson

/-- The document in a body, if it is valid. -/
def validDocument (service : Service) (request : Request) : Except Refusal Json := do
  let document ← Input.json service.settings.maxUploadBytes request
  match Document.validate document with
  | .ok () => .ok document
  | .error fault => .error (.schema fault.report)

/-- Replaces the schema document and answers the new one. -/
def putDocument (service : Service) (request : Request) : Service × Except Refusal Json :=
  match service.validDocument request with
  | .error error => (service, .error error)
  | .ok document =>
      let (files, saved) := service.documents.save service.files document
      ({ service with files },
        match saved with
        | .ok () => .ok document
        | .error fault => .error (Refusal.ofStore fault))

end AddressBook.Service
