import AddressBook.Http.MediaType
import AddressBook.Http.Message
import AddressBook.Http.Percent
import AddressBook.Service.Refusal
import AddressBook.Json.Reader
import AddressBook.Schema.Basic
import AddressBook.Text.Quoted
/-!
# What requests bring along

A JSON body is read after its content type and its size have been looked at; what follows the value is
passed over. A contact is an object with at least one member other than its id, which is dropped. The id
in a path is a number of 64 bits.
-/

namespace AddressBook.Input

open Http (MediaType Request)

def jsonExpected : String := "Expected request with `Content-Type: application/json`"

def bodyTooLong : String := "Failed to buffer the request body"

def bodyUnreadable : String := "Failed to parse the request body as JSON"

/-- The JSON value of a body of at most `limit` bytes. -/
def json (limit : Nat) (request : Request) : Except Refusal Json :=
  if !(MediaType.ofHeader? request.contentType).any MediaType.isJson then
    .error (.badRequest jsonExpected)
  else if limit < request.body.length then .error (.badRequest bodyTooLong)
  else
    match Json.parseStart? (Text.Utf8.decodeStart request.body) with
    | some (value, _) => .ok value
    | none => .error (.badRequest bodyUnreadable)

/-- The infos of a contact: the members of an object other than the id. -/
def infosOf : Json → Except Refusal Members
  | .obj members =>
      let infos := Assoc.swapErase members idField
      if infos.isEmpty then .error (.badRequest "Missing data") else .ok infos
  | _ => .error (.badRequest "Contact must be a JSON object")

def infos (limit : Nat) (request : Request) : Except Refusal Members := do
  let value ← json limit request
  infosOf value

/-- A number of 64 bits: digits, after a plus sign or none. -/
def number? (text : List Char) : Option Nat :=
  let digits := match text with
    | '+' :: digits => digits
    | digits => digits
  let n := Text.valueOf 10 digits
  if digits ≠ [] ∧ digits.all Char.isDigit ∧ n < Nat.pow 2 64 then some n else none

def contactId (segment : List Char) : Except Refusal Nat :=
  match Http.Percent.decode? segment with
  | none => .error (.notFound "Invalid URL: Invalid UTF-8 in `id`")
  | some text =>
      match number? text with
      | some id => .ok id
      | none =>
          .error (.notFound
            (String.ofList ("Invalid URL: Cannot parse `".toList ++ Text.quoted text ++
              "` to a `u64`".toList)))

end AddressBook.Input
