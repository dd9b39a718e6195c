import AddressBook.Store.Fault
/-!
# The folder of the records

The records have a folder to themselves. In it are a file with the settings of the store, a file with the
data and a folder for values that are too large for the data. The folders are made if they are missing and
the files as soon as they are needed, so what matters before is what stands in their places: a folder
where a file belongs, a file where a folder belongs, and settings other than those of this store keep the
records from being opened.
-/

namespace AddressBook

open Text (Bytes)

/-- Where the records are kept. -/
structure RecordFolder where
  path : String
deriving DecidableEq, Repr

namespace RecordFolder

def largeValues (folder : RecordFolder) : String := Path.join folder.path "blobs"

def settingsFile (folder : RecordFolder) : String := Path.join folder.path "conf"

/-- The path of the second file, which the settings are written to first. -/
def settingsDraft (folder : RecordFolder) : String := Path.join folder.path "conf.tmp"

def dataFile (folder : RecordFolder) : String := Path.join folder.path "db"

def paths (folder : RecordFolder) : List String :=
  [folder.largeValues, folder.settingsFile, folder.settingsDraft, folder.dataFile]

/-! ### Settings -/

/-- What the settings of this store say. -/
def settings : Assoc String String :=
  [("segment_size", "524288"), ("use_compression", "false"), ("version", "0.34")]

/-- The name and the value on a line, with a colon and a space between them. -/
def readLine? : List Char → Option (List Char × List Char)
  | ':' :: ' ' :: value => some ([], value)
  | c :: rest => (readLine? rest).map fun (name, value) => (c :: name, value)
  | [] => none

/-- The lines of a text, of which the last one may go without a line end. -/
def lines (text : List Char) : List (List Char) :=
  let pieces := Text.split '\n' text
  if pieces.getLast? = some [] then pieces.dropLast else pieces

/-- The settings in a text, one on a line. -/
def readSettings? (text : List Char) : Option (Assoc String String) := do
  let entries ← (lines text).mapM readLine?
  pure (Assoc.ofList (entries.map fun (name, value) => (String.ofList name, String.ofList value)))

/-- Whether the content of the settings file is that of this store; the last four bytes are a checksum. -/
def isSound (content : Bytes) : Bool :=
  match (Text.Utf8.decode? (content.take (content.length - 4))).bind readSettings? with
  | none => false
  | some found => settings.all fun (name, value) => found.get? name == some value

/-! ### Opening -/

/-- Whether a file is at a path, or can be put there. -/
def admitsFile (tree : FileTree) (path : String) : Bool :=
  match tree.read path with
  | .ok _ | .error .notFound => true
  | .error _ => false

/-- Whether the settings are those of this store. A file of at most eight bytes holds none yet. -/
def admitsSettings (folder : RecordFolder) (tree : FileTree) : Bool :=
  match tree.read folder.settingsFile with
  | .ok content => if content.length ≤ 8 then admitsFile tree folder.settingsDraft else isSound content
  | .error .notFound => admitsFile tree folder.settingsDraft
  | .error _ => false

/-- Makes the folders and tells whether the records can be opened. -/
def prepare (folder : RecordFolder) (tree : FileTree) : FileTree × Except StoreFault Unit :=
  match tree.createFolders folder.largeValues with
  | (tree, .error _) => (tree, .error .database)
  | (tree, .ok ()) =>
      if folder.admitsSettings tree && admitsFile tree folder.dataFile then (tree, .ok ())
      else (tree, .error .database)

end RecordFolder

end AddressBook
