import AddressBook.Assoc
import AddressBook.Files.Path
import AddressBook.Text.Utf8
/-!
# Trees of files

A tree is a file system with a working folder: files with their bytes, and folders. A place in it is the
list of names from the root down. Paths are followed name by name, from the working folder or, if they are
absolute, from the root, and every name but the last must be that of a folder, so a missing folder and a
file in the place of a folder are two different faults. The root is always there, and the way up from it
leads to itself. Names and whole paths have a greatest length; a path that is too long is refused before
any of its names is looked at.
-/

namespace AddressBook

open Text (Bytes)

/-- Why a file operation fails. -/
inductive IoFault where
  | notFound
  | notFolder
  | isFolder
  | nameTooLong
  | nulInName
  | denied
deriving DecidableEq, Repr

def IoFault.message : IoFault → String
  | notFound => "No such file or directory (os error 2)"
  | notFolder => "Not a directory (os error 20)"
  | isFolder => "Is a directory (os error 21)"
  | nameTooLong => "File name too long (os error 36)"
  | nulInName => "file name contained an unexpected NUL byte"
  | denied => "Permission denied (os error 13)"

/-- What stands at a place. -/
inductive FileNode where
  | file (content : Bytes)
  | folder
deriving DecidableEq, Repr

/-- The names from the root down to a place. -/
abbrev Place := List String

/-- The files and folders below the root, kept by the depth and the names of their places. -/
structure FileTree where
  /-- The working folder, from which paths start that are not absolute. -/
  home : Place := []
  nodes : Assoc (Nat × Place) FileNode := []
deriving DecidableEq, Repr

namespace FileTree

def longestName : Nat := 255

def longestPath : Nat := 4095

/-- What a place is kept by: places of different depths differ at first sight. -/
def key (place : Place) : Nat × Place := (place.length, place)

theorem key_inj {place other : Place} : key place = key other ↔ place = other :=
  ⟨fun h => congrArg Prod.snd h, congrArg key⟩

def node? (tree : FileTree) (place : Place) : Option FileNode :=
  if place = [] then some .folder else tree.nodes.get? (key place)

def put (tree : FileTree) (place : Place) (node : FileNode) : FileTree :=
  { tree with nodes := tree.nodes.insert (key place) node }

def drop (tree : FileTree) (place : Place) : FileTree :=
  { tree with nodes := tree.nodes.erase (key place) }

/-- Takes away a place and everything below it. -/
def dropAll (tree : FileTree) (place : Place) : FileTree :=
  { tree with nodes := tree.nodes.filter (!place.isPrefixOf ·.1.2) }

/-- The tree with nothing in it but a working folder and the folders around it. -/
def around (home : Place) : FileTree :=
  (List.range home.length).foldl (fun tree n => tree.put (home.take (n + 1)) .folder) { home }

/-! ### Following paths -/

/-- The place that a piece of a path leads to from a folder. -/
def enter (tree : FileTree) (place : Place) (piece : String) : Except IoFault Place :=
  match tree.node? place with
  | none => .error .notFound
  | some (.file _) => .error .notFolder
  | some .folder =>
      if !Path.isComponent piece then .ok place
      else if piece = ".." then .ok place.dropLast
      else if longestName < piece.utf8ByteSize then .error .nameTooLong
      else .ok (place ++ [piece])

/-- The place that pieces of a path lead to. -/
def follow (tree : FileTree) (place : Place) : List String → Except IoFault Place
  | [] => .ok place
  | piece :: rest => do
      let next ← tree.enter place piece
      tree.follow next rest

/-- Why no path of this text leads anywhere, if that is so. -/
def refusal? (path : String) : Option IoFault :=
  if '\x00' ∈ path.toList then some .nulInName
  else if longestPath < path.utf8ByteSize then some .nameTooLong
  else none

def start (tree : FileTree) (path : String) : Place := if Path.isAbsolute path then [] else tree.home

/-- The place that a path leads to; nothing need stand there yet. -/
def locate (tree : FileTree) (path : String) : Except IoFault Place :=
  match refusal? path with
  | some fault => .error fault
  | none => if path = "" then .error .notFound else tree.follow (tree.start path) (Path.pieces path)

/-! ### Operations -/

def read (tree : FileTree) (path : String) : Except IoFault Bytes := do
  match tree.node? (← tree.locate path) with
  | none => .error .notFound
  | some .folder => .error .isFolder
  | some (.file content) => .ok content

def exists? (tree : FileTree) (path : String) : Except IoFault Bool :=
  match tree.locate path with
  | .ok place => .ok (tree.node? place).isSome
  | .error .notFound => .ok false
  | .error fault => .error fault

/-- Writes a file, in the place of the file that was there. -/
def write (tree : FileTree) (path : String) (content : Bytes) : Except IoFault FileTree := do
  let place ← tree.locate path
  match tree.node? place with
  | some .folder => .error .isFolder
  | _ => .ok (tree.put place (.file content))

/-- Moves the file at a path, in the place of the file that was there. -/
def rename (tree : FileTree) (source target : String) : Except IoFault FileTree := do
  let old ← tree.locate source
  match tree.node? old with
  | none => .error .notFound
  | some .folder => .error .isFolder
  | some (.file content) =>
      let place ← tree.locate target
      match tree.node? place with
      | some .folder => .error .isFolder
      | _ => .ok ((tree.drop old).put place (.file content))

def remove (tree : FileTree) (path : String) : Except IoFault FileTree := do
  let place ← tree.locate path
  match tree.node? place with
  | none => .error .notFound
  | some .folder => .error .isFolder
  | some (.file _) => .ok (tree.drop place)

/-- Follows pieces of a path and makes the folders that are missing. -/
def makeFolders (tree : FileTree) (place : Place) :
    List String → FileTree × Except IoFault Unit
  | [] => (tree, .ok ())
  | piece :: rest =>
      match tree.enter place piece with
      | .error fault => (tree, .error fault)
      | .ok next =>
          match tree.node? next with
          | some .folder => tree.makeFolders next rest
          | some (.file _) => (tree, .error .notFolder)
          | none => (tree.put next .folder).makeFolders next rest

/--
Makes the folder at a path and those above it, as far as they are missing. The folders made before a fault
stay.
-/
def createFolders (tree : FileTree) (path : String) : FileTree × Except IoFault Unit :=
  match refusal? path with
  | some fault => (tree, .error fault)
  | none => if path = "" then (tree, .ok ()) else tree.makeFolders (tree.start path) (Path.pieces path)

/-- The places that a path passes through, if they are folders. -/
def passed (tree : FileTree) (path : String) : List Place :=
  let step (places : List Place) (component : String) : List Place :=
    let place := places.head?.getD []
    (if component = ".." then place.dropLast else place ++ [component]) :: places
  ((Path.components path).foldl step [tree.start path]).reverse

/-- The names in a folder, with what stands there. -/
def list (tree : FileTree) (place : Place) : Assoc String FileNode :=
  tree.nodes.filterMap fun ((_, other), node) =>
    match other.getLast? with
    | some name => if other.dropLast = place then some (name, node) else none
    | none => none

end FileTree

end AddressBook
