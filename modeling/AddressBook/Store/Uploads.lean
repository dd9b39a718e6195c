import AddressBook.Store.Fault
/-!
# The upload store

Uploaded files lie flat in one folder. A file is stored under a fresh name with the extension of its own
name, in lower case, when that is made of ASCII letters and digits. Only bare names are resolved, so
nothing outside the folder is reached.
-/

namespace AddressBook

open Text (Bytes)

/-- Where uploaded files are kept. -/
structure UploadStore where
  root : String
deriving DecidableEq, Repr

namespace UploadStore

/-- Whether a name is a bare file name. -/
def isBareName (name : String) : Bool :=
  name != "" && name != "." && name != ".." &&
    name.toList.all fun c => c != '/' && c != '\\' && c != '\x00'

def resolve (store : UploadStore) (name : String) : Except StoreFault String :=
  if isBareName name then .ok (Path.join store.root name) else .error (.invalidName name)

/-- The extension that a stored file keeps of its own name. -/
def keptExtension? (clientName : String) : Option String :=
  match Path.extension? clientName with
  | none => none
  | some extension =>
      let cs := extension.toList
      if !cs.isEmpty && cs.all Char.isAlphanum then some (String.ofList (cs.map Char.toLower))
      else none

/-- The name that a file is stored under, from a fresh name and its own. -/
def storedName (fresh clientName : String) : String :=
  match keptExtension? clientName with
  | some extension => fresh ++ "." ++ extension
  | none => fresh

/-- Makes the folder if it is missing, and those above it. -/
def prepare (store : UploadStore) (tree : FileTree) : FileTree × Except StoreFault Unit :=
  let (tree, made) := tree.createFolders store.root
  (tree, made.mapError .ofIo)

/-- Stores a file; answers the name that it is stored under. -/
def save (store : UploadStore) (tree : FileTree) (fresh clientName : String) (content : Bytes) :
    FileTree × Except StoreFault String :=
  let name := storedName fresh clientName
  match store.prepare tree with
  | (tree, .error fault) => (tree, .error fault)
  | (tree, .ok ()) =>
      match store.resolve name with
      | .error fault => (tree, .error fault)
      | .ok path =>
          match tree.write path content with
          | .error fault => (tree, .error (.ofIo fault))
          | .ok tree => (tree, .ok name)

/-- Removes a file; answers whether it was there. -/
def remove (store : UploadStore) (tree : FileTree) (name : String) :
    FileTree × Except StoreFault Bool :=
  match store.resolve name with
  | .error fault => (tree, .error fault)
  | .ok path =>
      match tree.remove path with
      | .ok tree => (tree, .ok true)
      | .error .notFound => (tree, .ok false)
      | .error fault => (tree, .error (.ofIo fault))

end UploadStore

end AddressBook
