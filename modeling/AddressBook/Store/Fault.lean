import AddressBook.Files.Tree
/-!
# Faults of the stores

What the stores of documents, records and uploads fail with. Reasons that come from below are kept as
text; a value that is no sound JSON text has no further reason.
-/

namespace AddressBook

/-- Why a store operation fails. -/
inductive StoreFault where
  | io (reason : String)
  | serialization
  | database
  | notFound (id : Nat)
  | invalidName (name : String)
deriving DecidableEq, Repr

namespace StoreFault

def ofIo (fault : IoFault) : StoreFault := .io fault.message

def message : StoreFault → String
  | io reason => s!"I/O error: {reason}"
  | serialization => "Serialization error"
  | database => "Database error"
  | notFound id => s!"Record {id} not found"
  | invalidName name => s!"Invalid file name: {name}"

end StoreFault

end AddressBook
