import AddressBook.Store.Fault
/-!
# Failures of commands

A command ends with an exit code. One that can not be carried out at all fails for a reason of its own,
which is the user's unless it comes from a store.
-/

namespace AddressBook

/-- How a command ends. -/
inductive ExitCode where
  /-- The input is valid. -/
  | success
  /-- The schema or the record is refused. -/
  | validationFailed
  /-- A file, the settings or the schema can not be used. -/
  | invalidInput
  | internalError
deriving DecidableEq, Repr

def ExitCode.toNat : ExitCode → Nat
  | success => 0
  | validationFailed => 1
  | invalidInput => 3
  | internalError => 10

/-- Why a command can not be carried out. -/
inductive CommandFailure where
  | io (reason : String)
  | toml
  | json
  | yaml
  | storage (fault : StoreFault)
  | invalidAddress (address : String)
deriving DecidableEq, Repr

namespace CommandFailure

/-- Whether the failure comes from the user's input. -/
def isUsersFault : CommandFailure → Bool
  | storage _ => false
  | _ => true

def exitCode (failure : CommandFailure) : ExitCode :=
  if failure.isUsersFault then .invalidInput else .internalError

def message : CommandFailure → String
  | io reason => s!"I/O error: {reason}"
  | toml => "TOML error"
  | json => "JSON error"
  | yaml => "YAML error"
  | storage fault => s!"Storage error: {fault.message}"
  | invalidAddress address => s!"Invalid listen address: {address}"

end CommandFailure

end AddressBook
