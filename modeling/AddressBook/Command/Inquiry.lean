import AddressBook.Command.Check
/-!
# Commands that ask for files

A check asks for its files one at a time: it takes the content of a file, or the fault that its reading ends with, before it
says whether it needs another one. Whoever carries it out reads what it asks for. It ends with an exit code, and with a
report unless it fails.
-/

namespace AddressBook

open Text (Bytes)

/-- A computation that asks for files, in an order that may depend on what is in them. -/
inductive Inquiry (α : Type) where
  | done (outcome : α)
  | ask (path : String) (next : Except IoFault Bytes → Inquiry α)

/-- Reads what is asked for, up to the outcome. -/
def Inquiry.carryOut {m : Type → Type} [Monad m] {α : Type} (read : String → m (Except IoFault Bytes)) : Inquiry α → m α
  | done outcome => pure outcome
  | ask path next => do
      let content ← read path
      (next content).carryOut read

namespace Check

/-- Asks for the document in a file. -/
def askDocument (path : String) {α : Type} (next : Except CommandFailure Json → Inquiry α) : Inquiry α :=
  .ask path fun content => next (readDocument (fun _ => content) path)

/-- Asks for a schema document, to validate it. -/
def schemaInquiry (file : String) : Inquiry (Except CommandFailure Report) :=
  askDocument file fun
    | .error failure => .done (.error failure)
    | .ok document => .done (.ok (reportSchema document))

/-- Asks for a schema document and, once that is accepted, for a record to check against it. -/
def recordInquiry (schema record : String) (skip : List String) : Inquiry (Except CommandFailure Report) :=
  askDocument schema fun
    | .error failure => .done (.error failure)
    | .ok described =>
        match Schema.ofNewDocument described with
        | .error fault => .done (.ok (refused .invalidInput fault.report.toJson))
        | .ok schema =>
            askDocument record fun
              | .error failure => .done (.error failure)
              | .ok value => .done (.ok (reportRecord schema skip value))

end Check

/-- What a check ends with: its exit code, and the report that is printed, if there is one. -/
structure Ending where
  code : Nat
  report : Option Json
deriving DecidableEq

def Ending.ofOutcome : Except CommandFailure Report → Ending
  | .error failure => { code := failure.exitCode.toNat, report := none }
  | .ok report => { code := report.exit.toNat, report := some report.content }

end AddressBook
