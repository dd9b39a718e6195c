import AddressBook.Command.Inquiry
import AddressBook.Command.Line
import AddressBook.Command.Serve
/-!
# The program

The command line is read with the environment. A check reads the files that it asks for, and what it finds
is printed. `serve` reads the file of the settings, makes the stores ready, wherever their paths lead, and
names the address; whoever listens there answers each request with `Service.answer`.
-/

namespace AddressBook.Program

open Text (Bytes)

/-- The fault that an error of the file system stands for. -/
def faultOf : IO.Error → IoFault
  | .noFileOrDirectory .. => .notFound
  | .inappropriateType .. => .isFolder
  | _ => .denied

def readFile (path : String) : IO (Except IoFault Bytes) := do
  try
    let content ← IO.FS.readBinFile path
    return .ok content.toList
  catch error => return .error (faultOf error)

def readFiles (paths : List String) : IO Check.ReadFile := do
  let contents ← paths.mapM fun path => do
    let content ← readFile path
    return (path, content)
  return fun path => (Assoc.get? contents path).getD (.error .notFound)

/-- The variables that arguments may come from. -/
def readEnvironment : IO Environment := do
  let options := Level.longOptions (.command .serve)
  let values ← (options.filterMap (·.2.environmentName?)).mapM fun name => do
    let value ← IO.getEnv name
    return value.map fun value => (name, value)
  return values.filterMap id

def pathOf (place : Place) : String := "/" ++ "/".intercalate place

/-- Notes what stands at a place. -/
def look (tree : FileTree) (place : Place) : IO FileTree := do
  match ← readFile (pathOf place) with
  | .ok content => return tree.put place (.file content)
  | .error .notFound => return tree
  | .error _ => return tree.put place .folder

/-- Notes what stands at a path and on the way to it. -/
def survey (tree : FileTree) (path : String) : IO FileTree := (tree.passed path).foldlM look tree

/-- Makes what stands in a tree but not in an earlier one. -/
def store (earlier later : FileTree) : IO Unit := do
  for ((_, place), node) in later.nodes do
    if earlier.node? place != some node then
      match node with
      | .folder => IO.FS.createDirAll (pathOf place)
      | .file content => IO.FS.writeBinFile (pathOf place) (ByteArray.mk content.toArray)

/-- Reports a failure; answers its exit code. -/
def fail (failure : CommandFailure) : IO Nat := do
  IO.eprintln failure.message
  return failure.exitCode.toNat

/-- Reads what a check asks for and prints what it finds; answers its exit code. -/
def check (inquiry : Inquiry (Except CommandFailure Report)) : IO Nat := do
  let outcome ← inquiry.carryOut readFile
  match outcome with
  | .error failure => IO.eprintln failure.message
  | .ok report => IO.print report.text
  return (Ending.ofOutcome outcome).code

/-- Makes a service ready and names its address. -/
def serve (settings : Settings) : IO Nat := do
  let home := Path.components (← IO.currentDir).toString
  let paths := [settings.schemaPath, settings.uploadDir] ++ (RecordFolder.mk settings.databasePath).paths
  let files ← paths.foldlM survey (FileTree.around home)
  match Service.ready settings files with
  | .error failure => fail failure
  | .ok (address, service) => do
      store files service.files
      IO.eprintln s!"contacts ready for {address.text}"
      return ExitCode.success.toNat

/-- Carries out a command; answers its exit code. -/
def run (invocation : Invocation) : IO Nat := do
  match invocation.command with
  | .checkSchema file => check (Check.schemaInquiry file)
  | .checkRecord schema record skip => check (Check.recordInquiry schema record skip)
  | .serve overrides =>
      let read ← readFiles invocation.config.toList
      match Settings.start read invocation.config overrides with
      | .error failure => fail failure
      | .ok settings => serve settings

end AddressBook.Program

open AddressBook in
/-- Runs the program and answers its exit code. -/
def main (arguments : List String) : IO UInt32 := do
  let environment ← Program.readEnvironment
  match Invocation.ofWords environment arguments with
  | .ok invocation =>
      let code ← Program.run invocation
      return UInt32.ofNat code
  | .error fault =>
      if fault.isAnswer then IO.println fault.message else IO.eprintln fault.message
      return UInt32.ofNat fault.exitCode
