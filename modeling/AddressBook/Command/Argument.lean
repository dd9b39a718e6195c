import AddressBook.Assoc
import AddressBook.Text.Reader
/-!
# Arguments

The words that a command line is made of. The program has options of its own and commands, and each
command has options and operands. Some options take their value from a variable of the environment when
the command line does not give it.
-/

namespace AddressBook

/-- The words that name commands. -/
inductive Subcommand where
  | serve | checkSchema | checkRecord
deriving DecidableEq, Repr

namespace Subcommand

def words : Assoc String Subcommand :=
  [("serve", serve), ("check-schema", checkSchema), ("check-record", checkRecord)]

def ofWord? (word : String) : Option Subcommand := words.get? word

end Subcommand

/-- What can be given on a command line. -/
inductive Argument where
  | config | jsonLogs | help | version
  | port | host | schemaPath | uploadDir | database
  | file | schema | record | skip
deriving DecidableEq, Repr

inductive Argument.Content where
  | nothing
  /-- A text that is not empty. -/
  | path
  | port
  | text
  /-- Names with commas between them. -/
  | names
deriving DecidableEq, Repr

namespace Argument

def content : Argument → Content
  | jsonLogs | help | version => .nothing
  | config | schemaPath | uploadDir | database | file | schema | record => .path
  | port => .port
  | host => .text
  | skip => .names

/-- The variable that supplies the argument when it is not given. -/
def environmentName? : Argument → Option String
  | config => some "CONTACTS_CONFIG"
  | port => some "PORT"
  | schemaPath => some "CONFIG_FILE"
  | uploadDir => some "UPLOAD_FOLDER"
  | database => some "DATABASE_PATH"
  | _ => none

/-- How the argument is called in a message. -/
def label : Argument → String
  | config => "--config"
  | jsonLogs => "--json-logs"
  | help => "--help"
  | version => "--version"
  | port => "--port"
  | host => "--host"
  | schemaPath | schema => "--schema"
  | uploadDir => "--upload-dir"
  | database => "--database"
  | skip => "--skip"
  | file => "<FILE>"
  | record => "<RECORD>"

/-- The port that a text gives: decimal digits, perhaps behind a sign, below 65536. -/
def port? (text : String) : Option UInt16 :=
  let (isNegative, digits) := match text.toList with
    | '-' :: cs => (true, cs)
    | '+' :: cs => (false, cs)
    | cs => (false, cs)
  if digits.isEmpty || !digits.all Char.isDigit then none
  else
    let value := Text.valueOf 10 digits
    if value < Nat.pow 2 16 ∧ (isNegative → value = 0) then some (UInt16.ofNat value) else none

end Argument

/-- Where on a command line an argument stands: before the word of a command, or behind it. -/
inductive Level where
  | program
  | command (subcommand : Subcommand)
deriving DecidableEq, Repr

namespace Level

/-- The options that stand at every level. -/
def sharedOptions : Assoc String Argument :=
  [("config", .config), ("json-logs", .jsonLogs), ("help", .help)]

def longOptions : Level → Assoc String Argument
  | program => sharedOptions ++ [("version", .version)]
  | command .serve =>
      [("port", .port), ("host", .host), ("schema", .schemaPath), ("upload-dir", .uploadDir),
        ("database", .database)] ++ sharedOptions
  | command .checkSchema => sharedOptions
  | command .checkRecord => [("schema", .schema), ("skip", .skip)] ++ sharedOptions

def shortOptions : Level → Assoc Char Argument
  | program => [('h', .help), ('V', .version)]
  | command .checkRecord => [('s', .schema), ('h', .help)]
  | command _ => [('h', .help)]

/-- The operands of a level, in order. -/
def operands : Level → List Argument
  | program | command .serve => []
  | command .checkSchema => [.file]
  | command .checkRecord => [.record]

end Level

end AddressBook
