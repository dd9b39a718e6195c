import AddressBook.Command.Argument
/-!
# Faults of a command line

A command line that is no command is answered with an explanation: because it asks for one, or because it
is at fault.
-/

namespace AddressBook

/-- Why a command line is not carried out. -/
inductive UsageFault where
  /-- Help is asked for. -/
  | help
  /-- The version is asked for. -/
  | version
  /-- There are no arguments at all. -/
  | nothingGiven
  /-- There are arguments, but no command. -/
  | noCommand
  | unknownCommand (word : String)
  /-- An option that the level does not have, or an operand too many. -/
  | unknownArgument (text : String)
  /-- An argument that the command needs is not given. -/
  | missingArgument
  | missingValue (argument : Argument)
  | emptyPath (argument : Argument)
  | badPort (text : String)
  /-- A value is given to an option that takes none. -/
  | needlessValue (argument : Argument)
  | repeated (argument : Argument)
deriving DecidableEq, Repr

namespace UsageFault

/-- Whether the command line asks for what it is answered. -/
def isAnswer : UsageFault → Bool
  | help | version => true
  | _ => false

def exitCode (fault : UsageFault) : Nat := if fault.isAnswer then 0 else 2

def usage : String :=
  "Usage: contacts [--config FILE] [--json-logs] COMMAND\n\n" ++
  "Commands:\n" ++
  "  serve [--port PORT] [--host HOST] [--schema FILE] [--upload-dir FOLDER] [--database FOLDER]\n" ++
  "  check-schema FILE\n" ++
  "  check-record --schema FILE RECORD [--skip NAMES]"

def message : UsageFault → String
  | help | nothingGiven => usage
  | version => "contacts 0.3.0"
  | noCommand => "error: a command is needed\n\n" ++ usage
  | unknownCommand word => s!"error: unknown command '{word}'"
  | unknownArgument text => s!"error: unexpected argument '{text}'"
  | missingArgument => "error: a required argument is missing\n\n" ++ usage
  | missingValue argument => s!"error: '{argument.label}' needs a value"
  | emptyPath argument => s!"error: the value of '{argument.label}' is empty"
  | badPort text => s!"error: '{text}' is not a port"
  | needlessValue argument => s!"error: '{argument.label}' takes no value"
  | repeated argument => s!"error: '{argument.label}' is given twice"

end UsageFault

end AddressBook
