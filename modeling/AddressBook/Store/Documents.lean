import AddressBook.Json.Printer
import AddressBook.Json.Reader
import AddressBook.Store.Fault
/-!
# The document store

The schema document is one JSON file. A file that is missing or blank reads as the empty object. A
document is saved by writing it to a second file in the same folder and moving that over the first, so
the first always holds a whole document.
-/

namespace AddressBook

open Text (Bytes)

/-- Where the schema document is kept. -/
structure DocumentStore where
  path : String
deriving DecidableEq, Repr

namespace DocumentStore

/-- The second file, which a document is written to first. -/
def draftPath (store : DocumentStore) : String := Path.withExtension store.path "json.tmp"

/-- Whether a byte is blank: a space, a tab, a line feed, a form feed or a carriage return. -/
def isBlank (b : UInt8) : Bool := b == 0x20 || b == 0x09 || b == 0x0A || b == 0x0C || b == 0x0D

/-- The document that the bytes of the file hold. -/
def decode (content : Bytes) : Except StoreFault Json :=
  if content.all isBlank then .ok (.obj [])
  else
    match (Text.Utf8.decode? content).bind Json.parse? with
    | some document => .ok document
    | none => .error .serialization

def encode (document : Json) : Bytes := Text.Utf8.encodeString document.pretty

/-- The document, the empty object when none was saved. -/
def load (store : DocumentStore) (tree : FileTree) : Except StoreFault Json :=
  match tree.read store.path with
  | .ok content => decode content
  | .error .notFound => .ok (.obj [])
  | .error fault => .error (.ofIo fault)

/-- Writes a document to the second file. -/
def writeDraft (store : DocumentStore) (tree : FileTree) (document : Json) :
    Except IoFault FileTree :=
  tree.write store.draftPath (encode document)

/-- Moves the second file over the first. -/
def commit (store : DocumentStore) (tree : FileTree) : Except IoFault FileTree :=
  tree.rename store.draftPath store.path

/-- Saves a document. A save that fails at its second step leaves the second file behind. -/
def save (store : DocumentStore) (tree : FileTree) (document : Json) :
    FileTree × Except StoreFault Unit :=
  match store.writeDraft tree document with
  | .error fault => (tree, .error (.ofIo fault))
  | .ok drafted =>
      match store.commit drafted with
      | .error fault => (drafted, .error (.ofIo fault))
      | .ok saved => (saved, .ok ())

/-- Makes an empty file if there is none, and the folders above it. -/
def prepare (store : DocumentStore) (tree : FileTree) : FileTree × Except StoreFault Unit :=
  match tree.exists? store.path with
  | .error fault => (tree, .error (.ofIo fault))
  | .ok true => (tree, .ok ())
  | .ok false =>
      match tree.createFolders (Path.parent store.path) with
      | (tree, .error fault) => (tree, .error (.ofIo fault))
      | (tree, .ok ()) =>
          match tree.write store.path [] with
          | .error fault => (tree, .error (.ofIo fault))
          | .ok tree => (tree, .ok ())

end DocumentStore

end AddressBook
