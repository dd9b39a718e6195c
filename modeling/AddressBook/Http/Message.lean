import AddressBook.Json.Printer
import AddressBook.Text.Utf8
/-!
# Requests and answers

What a service sees of an HTTP request, and what it answers. Of the headers only the content type
matters. The body of an answer is kept as what it is, JSON, text or the bytes of a file, and rendered to
bytes at the end.
-/

namespace AddressBook.Http

open Text (Bytes)

/-- The method of a request; names are case-sensitive. -/
inductive Method where
  | get | head | post | put | delete | options
  | other (name : String)
deriving DecidableEq, Repr

def Method.ofName : String → Method
  | "GET" => get
  | "HEAD" => head
  | "POST" => post
  | "PUT" => put
  | "DELETE" => delete
  | "OPTIONS" => options
  | name => other name

structure Request where
  method : Method
  /-- The path, with the query if there is one, or an absolute target. -/
  target : String
  contentType : Option String := none
  body : Bytes := []
deriving DecidableEq, Repr

/-- The body of an answer. -/
inductive Body where
  | empty
  | json (value : Json)
  | text (content : String)
  | file (content : Bytes)
deriving DecidableEq

def Body.bytes : Body → Bytes
  | empty => []
  | json value => Text.Utf8.encodeString value.compact
  | text content => Text.Utf8.encodeString content
  | file content => content

structure Response where
  status : Nat
  body : Body := .empty
deriving DecidableEq

end AddressBook.Http
