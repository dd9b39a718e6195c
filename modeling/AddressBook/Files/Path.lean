import AddressBook.Text.Split
/-!
# Paths

A path is a text whose slashes separate names. Empty pieces and single points between slashes are passed
over, so `a//b/./` has the components `a` and `b`; a leading slash makes a path absolute. The last
component is the file's name, unless it is `..`, and the text after the last point of that name is its
extension, unless the point is the first character.

A path gets another extension in two steps: the characters of the old one are taken off its end, and the
stem of what is left gets the new one. So nothing is put in the place of the extension of `..a`, of which
`..` is left, and that leads to no file name.
-/

namespace AddressBook.Path

/-- The pieces between the slashes, empty ones included. -/
def pieces (path : String) : List String := (Text.split '/' path.toList).map String.ofList

def isAbsolute (path : String) : Bool := path.toList.head? == some '/'

/-- Whether a piece names something below its folder. -/
def isComponent (piece : String) : Bool := piece != "" && piece != "."

def components (path : String) : List String := (pieces path).filter isComponent

def fileName? (path : String) : Option String :=
  (components path).getLast?.filter (· != "..")

def cutName (name : String) : String × Option String :=
  match Text.cutLast? '.' name.toList with
  | some (c :: stem, extension) => (String.ofList (c :: stem), some (String.ofList extension))
  | _ => (name, none)

def extension? (path : String) : Option String := (fileName? path).bind fun name => (cutName name).2

/-- The pieces up to the last component, the last one first; what follows the component is dropped. -/
def upToLast (path : String) : List String := (pieces path).reverse.dropWhile (!isComponent ·)

/-- The path of the folder that holds the last component; empty for the working folder. -/
def parent (path : String) : String := "/".intercalate ((upToLast path).drop 1).reverse

/-- The path without as many characters at its end as its extension has. -/
def cutExtension (path : String) : String :=
  match extension? path with
  | none => path
  | some extension => String.ofList (path.toList.take (path.length - extension.length))

/-- The path with an extension after the stem of its file name; unchanged if it leads to none. -/
def appendExtension (path extension : String) : String :=
  match fileName? path with
  | none => path
  | some name =>
      "/".intercalate (((upToLast path).drop 1).reverse ++ [(cutName name).1 ++ "." ++ extension])

def withExtension (path extension : String) : String :=
  appendExtension (cutExtension path) extension

/-- The path that another one leads to from a folder; an absolute one does not depend on the folder. -/
def join (folder path : String) : String :=
  if isAbsolute path then path
  else if folder = "" || folder.toList.getLast? == some '/' then folder ++ path
  else folder ++ "/" ++ path

end AddressBook.Path
