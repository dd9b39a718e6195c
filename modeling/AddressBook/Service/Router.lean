import AddressBook.Http.Target
import AddressBook.Service.Contacts
import AddressBook.Service.Files
import AddressBook.Service.SchemaDocument
/-!
# Routes

A request is answered by the route of its path and by its method. A path without a route is answered
with 404 and a method that the route does not support with 405, both with an empty body. `HEAD` is
answered like `GET`, without the body, and `OPTIONS` always succeeds.
-/

namespace AddressBook

open Http (Body MediaType Method Request Response)

/-- What a path leads to. -/
inductive Route where
  | health
  | config
  | layout
  | contacts
  /-- A contact, by the text in the place of its id. -/
  | contact (segment : List Char)
  | upload
  /-- A file below the upload folder, by the path from there. -/
  | file (path : List Char)
deriving DecidableEq, Repr

namespace Route

/-- The text after the start that it begins with. -/
def after? : List Char → List Char → Option (List Char)
  | [], cs => some cs
  | p :: ps, c :: cs => if p = c then after? ps cs else none
  | _ :: _, [] => none

def belowContacts? (segment : List Char) : Option Route :=
  if segment = [] ∨ '/' ∈ segment then none else some (.contact segment)

def belowUploads? : List Char → Option Route
  | [] => some (.file ['/'])
  | '/' :: rest => some (.file ('/' :: rest))
  | _ => none

def ofPath? (path : List Char) : Option Route :=
  if path = "/health".toList then some .health
  else if path = "/config".toList then some .config
  else if path = "/config/layout".toList then some .layout
  else if path = "/contact".toList then some .contacts
  else if path = "/upload".toList then some .upload
  else
    match after? "/contact/".toList path with
    | some segment => belowContacts? segment
    | none => (after? "/uploads".toList path).bind belowUploads?

end Route

namespace Service

/-- The answer with a JSON body, or with the refusal. -/
def respond (result : Except Refusal Json) : Response :=
  match result with
  | .ok value => { status := 200, body := .json value }
  | .error error => { status := error.status, body := .json error.toJson }

/-- The answer without a body, or with the refusal. -/
def respondEmpty (result : Except Refusal Unit) : Response :=
  match result with
  | .ok () => { status := 200 }
  | .error error => { status := error.status, body := .json error.toJson }

def methodRefused : Response := { status := 405 }

/-- The answer to a `GET`, which changes nothing. -/
def get (service : Service) (occasion : Occasion) : Route → Response
  | .health => { status := 200, body := .json (service.health occasion) }
  | .config => respond service.currentDocument
  | .layout => respond service.layout
  | .contacts => respond service.contacts
  | .file path => service.serveFile path
  | .contact _ | .upload => methodRefused

/-- The answer to an upload; its content type must be that of a form. -/
def upload (service : Service) (occasion : Occasion) (request : Request) : Service × Response :=
  match (MediaType.ofHeader? request.contentType).bind MediaType.boundary? with
  | none =>
      (service,
        { status := 400,
          body := .text "Invalid `boundary` for `multipart/form-data` request" })
  | some boundary =>
      let (service, result) := service.storeUpload occasion boundary request
      (service, respond result)

/-- The answer of a route to a request. -/
def dispatch (service : Service) (occasion : Occasion) (request : Request) (route : Route) :
    Service × Response :=
  match request.method, route with
  | .get, route => (service, service.get occasion route)
  | .head, route => (service, { service.get occasion route with body := .empty })
  | .put, .config =>
      let (service, result) := service.putDocument request
      (service, respond result)
  | .post, .contacts =>
      let (service, result) := service.addContact occasion request
      (service, respond result)
  | .put, .contact segment =>
      let (service, result) := service.changeContact segment request
      (service, respond result)
  | .delete, .contact segment =>
      let (service, result) := service.removeContact segment
      (service, respondEmpty result)
  | .post, .upload => service.upload occasion request
  | _, _ => (service, methodRefused)

def answer (service : Service) (occasion : Occasion) (request : Request) : Service × Response :=
  if request.method = .options then (service, { status := 200 })
  else
    match Route.ofPath? (Http.Target.path request.target) with
    | none => (service, { status := 404 })
    | some route => service.dispatch occasion request route

end Service

end AddressBook
