import AddressBook.Command.Failure
import AddressBook.Files.Tree
import AddressBook.Json.Reader
import AddressBook.Schema.Basic
import AddressBook.Yaml.Value
/-!
# Checks without a service

Schema documents and records are read from files, as YAML or JSON by the extension of the file. What a
check finds is a report; that a file can not be read is a failure without one. The file of a record is
read only when the schema is accepted.
-/

namespace AddressBook

/-- What a check finds. -/
structure Report where
  exit : ExitCode
  content : Json
deriving DecidableEq

def Report.text (report : Report) : String := report.content.pretty ++ "\n"

namespace Check

open Text (Bytes)

/-- The content of every file that can be read, by its path. -/
abbrev ReadFile := String → Except IoFault Bytes

/-- Whether the extension of a path is one of YAML. -/
def isYaml (path : String) : Bool :=
  match Path.extension? path with
  | none => false
  | some extension =>
      let name := String.ofList (Text.lowerAscii extension.toList)
      name = "yaml" || name = "yml"

def parse (path : String) (text : List Char) : Except CommandFailure Json :=
  if isYaml path then (Yaml.parse? text).elim (.error .yaml) .ok
  else (Json.parse? text).elim (.error .json) .ok

/-- The text of a file, which must be UTF-8. -/
def readText (read : ReadFile) (path : String) : Except CommandFailure (List Char) :=
  match read path with
  | .error fault => .error (.io fault.message)
  | .ok content =>
      (Text.Utf8.decode? content).elim (.error (.io "stream did not contain valid UTF-8")) .ok

def readDocument (read : ReadFile) (path : String) : Except CommandFailure Json := do
  let text ← readText read path
  parse path text

/-! ### Reports -/

def accepted (details : Members) : Report :=
  { exit := .success, content := .obj (("valid", .bool true) :: details) }

def refused (exit : ExitCode) (error : Json) : Report :=
  { exit, content := .obj [("valid", .bool false), ("error", error)] }

def memberCount : Json → Nat
  | .obj members => members.length
  | _ => 0

def reportSchema (document : Json) : Report :=
  match Document.validate document with
  | .ok () => accepted [("fields", .int (memberCount document))]
  | .error fault => refused .validationFailed fault.report.toJson

/-- The report on a record, which must be an object. -/
def reportRecord (schema : Schema) (skip : List String) : Json → Report
  | .obj record =>
      match schema.check record skip with
      | .ok () => accepted []
      | .error violation => refused .validationFailed violation.toJson
  | _ => refused .invalidInput (.str "record must be an object")

def schemaFile (read : ReadFile) (file : String) : Except CommandFailure Report := do
  let document ← readDocument read file
  pure (reportSchema document)

/-- Checks the record in a file against the schema document in another. -/
def recordFile (read : ReadFile) (schema record : String) (skip : List String) :
    Except CommandFailure Report := do
  let document ← readDocument read schema
  match Schema.ofNewDocument document with
  | .error fault => pure (refused .invalidInput fault.report.toJson)
  | .ok schema =>
      let value ← readDocument read record
      pure (reportRecord schema skip value)

end Check

end AddressBook
