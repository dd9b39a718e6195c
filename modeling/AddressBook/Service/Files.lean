import AddressBook.Http.Multipart
import AddressBook.Service.Basic
import AddressBook.Service.Input
/-!
# Requests about files

An upload is a form whose first part named `file` is stored. Stored files are served under their names:
the path below the folder is decoded and its components followed, none of which may lead upwards.
-/

namespace AddressBook.Service

open Http (Body MediaType Part Request Response)

/-! ### Uploading -/

def filePart : String := "file"

def formUnreadable : String := "Error parsing `multipart/form-data` request"

/-- The first part that carries a file, which must not be empty. -/
def uploadedPart (limit : Nat) (boundary : String) (request : Request) : Except Refusal Part :=
  if limit < request.body.length then .error (.badRequest formUnreadable)
  else
    let (parts, closed) := Http.Multipart.read boundary request.body
    match parts.find? (·.name == some filePart) with
    | some part =>
        if part.content.isEmpty then .error (.badRequest "Uploaded file is empty") else .ok part
    | none =>
        if closed then .error (.badRequest s!"Missing multipart part '{filePart}'")
        else .error (.badRequest formUnreadable)

/-- Stores the file of a form with a boundary and answers the name that it is stored under. -/
def storeUpload (service : Service) (occasion : Occasion) (boundary : String) (request : Request) :
    Service × Except Refusal Json :=
  match uploadedPart service.settings.maxUploadBytes boundary request with
  | .error error => (service, .error error)
  | .ok part =>
      let (files, saved) :=
        service.uploads.save service.files occasion.freshName (part.fileName.getD "") part.content
      ({ service with files },
        match saved with
        | .ok name => .ok (.obj [("filename", .str name)])
        | .error fault => .error (Refusal.ofStore fault))

/-! ### Serving -/

/-- The components below the upload folder that a path leads to; none may lead upwards. -/
def servedComponents? (path : List Char) : Option (List String) := do
  let decoded ← Http.Percent.decode? (path.dropWhile (· == '/'))
  let text := String.ofList decoded
  if decoded.head? = some '/' ∨ ".." ∈ Path.pieces text then none else some (Path.components text)

def isFolder (files : FileTree) (path : String) : Bool :=
  match files.locate path with
  | .ok place => files.node? place == some .folder
  | .error _ => false

def fileResponse (files : FileTree) (path : String) : Response :=
  match files.read path with
  | .ok content => { status := 200, body := .file content }
  | .error .notFound | .error .notFolder | .error .denied => { status := 404 }
  | .error _ => { status := 500 }

/-- The answer to a request for a path below the upload folder; the path starts with a slash. -/
def serveFile (service : Service) (path : List Char) : Response :=
  match servedComponents? path with
  | none => { status := 404 }
  | some components =>
      let target := components.foldl Path.join service.settings.uploadDir
      if !isFolder service.files target then fileResponse service.files target
      else if path.getLast? = some '/' then
        fileResponse service.files (Path.join target "index.html")
      else { status := 307 }

end AddressBook.Service
