import AddressBook.Store.Fault
import AddressBook.Schema.Fault
/-!
# Refusals

A request that is refused is answered with an object that carries a code for programs. A violation or a
rejected document is sent with the fields at fault; any other refusal is a code and a message.
-/

namespace AddressBook

/-- Why a request is refused. -/
inductive Refusal where
  | badRequest (reason : String)
  | notFound (reason : String)
  | internal (reason : String)
  /-- A record fails the schema. -/
  | record (violation : Violation)
  /-- A schema document is refused. -/
  | schema (invalid : Rejection)
deriving DecidableEq, Repr

namespace Refusal

def code : Refusal → String
  | badRequest _ => "bad_request"
  | notFound _ => "not_found"
  | internal _ => "internal_error"
  | record violation => violation.code
  | schema _ => Rejection.code

def status : Refusal → Nat
  | notFound _ => 404
  | internal _ => 500
  | badRequest _ | record _ | schema _ => 400

def message : Refusal → String
  | badRequest reason => s!"Bad request: {reason}"
  | notFound reason => s!"Not found: {reason}"
  | internal reason => s!"Internal error: {reason}"
  | record violation => violation.message
  | schema invalid => invalid.message

def toJson (refusal : Refusal) : Json :=
  match refusal with
  | record violation => violation.toJson
  | schema invalid =>
      .obj [("code", .str Rejection.code), ("field", invalid.field.toJson),
        ("param", invalid.param.toJson), ("message", .str invalid.message)]
  | badRequest reason | notFound reason | internal reason =>
      .obj [("code", .str refusal.code), ("message", .str reason)]

def contactNotFound (id : Nat) : Refusal := .notFound s!"Contact {id} not found"

/-- The refusal that follows from a failed store operation. -/
def ofStore : StoreFault → Refusal
  | .notFound id => contactNotFound id
  | .invalidName name => .badRequest s!"Invalid file name: {name}"
  | fault => .internal fault.message

end Refusal

end AddressBook
