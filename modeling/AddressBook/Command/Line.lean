import AddressBook.Command.Basic
import AddressBook.Command.Usage
import AddressBook.Schema.Basic
import AddressBook.Text.Split
/-!
# Command lines

A command line is read word by word, first at the level of the program and, behind the word of a command,
at the level of that command. A word with a hyphen in front is always an option and never the value of the
option before it; after `--` every word is an operand.

The value of an option or of an operand counts only when the next one is reached or the line ends. So a
word that the level does not know is reported before a bad value in front of it, and the faults of a
command before those of the program's own options. What the line does not give, the environment may
supply; then what the command needs must be there.
-/

namespace AddressBook

abbrev Environment := Assoc String String

/-! ### Values -/

/-- What the words of one level have given so far. -/
structure Given where
  values : Assoc Argument (List String) := []
  /-- The argument met last whose value does not count yet, with the value if it was met. -/
  pending : Option (Argument × Option String) := none
  /-- How many operands were met. -/
  operands : Nat := 0
deriving DecidableEq, Repr

namespace Given

def has (given : Given) (argument : Argument) : Bool := (given.values.get? argument).isSome

def valuesOf (given : Given) (argument : Argument) : List String :=
  (given.values.get? argument).getD []

def value? (given : Given) (argument : Argument) : Option String := (given.valuesOf argument).head?

def put (given : Given) (argument : Argument) (values : List String) : Given :=
  { given with values := given.values.insert argument values }

/-- Refuses a text that the argument does not take. -/
def accept (argument : Argument) (text : String) : Except UsageFault Unit :=
  match argument.content with
  | .path => if text = "" then .error (.emptyPath argument) else .ok ()
  | .port => if (Argument.port? text).isSome then .ok () else .error (.badPort text)
  | .nothing | .text | .names => .ok ()

/-- Counts an argument without a value: a flag, or a question for an explanation. -/
def raise (given : Given) (argument : Argument) : Except UsageFault Given :=
  match argument with
  | .help => .error .help
  | .version => .error .version
  | _ => if given.has argument then .error (.repeated argument) else .ok (given.put argument [])

/-- Counts an argument with its value. Names are gathered, any other argument is given once. -/
def count (given : Given) (argument : Argument) (value? : Option String) :
    Except UsageFault Given :=
  match argument.content, value? with
  | .nothing, _ => given.raise argument
  | _, none => .error (.missingValue argument)
  | .names, some text =>
      let names := (Text.split ',' text.toList).map String.ofList
      .ok (given.put argument (given.valuesOf argument ++ names))
  | _, some text =>
      if given.has argument then .error (.repeated argument)
      else do
        accept argument text
        pure (given.put argument [text])

/-- Counts the argument that is pending. -/
def settle (given : Given) : Except UsageFault Given :=
  match given.pending with
  | none => .ok given
  | some (argument, value?) => ({ given with pending := none }).count argument value?

/-- Counts what is pending and then another argument. -/
def settleAndCount (given : Given) (argument : Argument) (value? : Option String) :
    Except UsageFault Given := do
  let given ← given.settle
  given.count argument value?

/-- Counts what is pending and waits with another argument. -/
def settleAndWait (given : Given) (argument : Argument) (value? : Option String) :
    Except UsageFault Given := do
  let given ← given.settle
  pure { given with pending := some (argument, value?) }

/-- The option that awaits its value. -/
def awaiting? (given : Given) : Option Argument :=
  match given.pending with
  | some (argument, none) => some argument
  | _ => none

/-- Takes an argument from the environment when it was not given. -/
def supply (environment : Environment) (given : Given) (argument : Argument) :
    Except UsageFault Given :=
  if given.has argument then .ok given
  else
    match argument.environmentName?.bind environment.get? with
    | none => .ok given
    | some text => given.count argument (some text)

/-- Takes the arguments of a level from the environment, as far as they were not given. -/
def supplyAll (environment : Environment) (level : Level) (given : Given) : Except UsageFault Given :=
  level.longOptions.foldlM (fun given option => given.supply environment option.2) given

end Given

/-! ### Words -/

/-- What a word is by its form. -/
inductive Word where
  /-- The word after which every word is an operand. -/
  | separator
  | long (name : String) (value? : Option String)
  | short (letters : List Char)
  | plain
deriving DecidableEq, Repr

def Word.ofText (text : String) : Word :=
  match text.toList with
  | ['-', '-'] => .separator
  | '-' :: '-' :: cs =>
      match Text.cutFirst? '=' cs with
      | some (name, value) => .long (String.ofList name) (some (String.ofList value))
      | none => .long (String.ofList cs) none
  | '-' :: c :: cs => .short (c :: cs)
  | _ => .plain

namespace Level

def takeLong (level : Level) (given : Given) (name : String) (value? : Option String) :
    Except UsageFault Given :=
  match level.longOptions.get? name with
  | none => .error (.unknownArgument ("--" ++ name))
  | some argument =>
      match argument.content, value? with
      | .nothing, none => given.settleAndCount argument none
      | .nothing, some _ => .error (.needlessValue argument)
      | _, none => given.settleAndWait argument none
      | _, some value => given.settleAndCount argument (some value)

/-- Takes options by their letters. The first that takes a value has the rest of the word for it, less an
equals sign in front, unless there is no rest. -/
def takeShort (level : Level) (given : Given) : List Char → Except UsageFault Given
  | [] => .ok given
  | letter :: rest =>
      match level.shortOptions.get? letter with
      | none => .error (.unknownArgument ("-" ++ String.singleton letter))
      | some argument =>
          match argument.content, rest with
          | .nothing, _ => do
              let given ← given.settleAndCount argument none
              level.takeShort given rest
          | _, [] => given.settleAndWait argument none
          | _, '=' :: value => given.settleAndCount argument (some (String.ofList value))
          | _, value => given.settleAndCount argument (some (String.ofList value))

/-- The fault of an operand too many. At the level of the program it counts as a command that is not
known, unless it is one and only stands after `--`. -/
def surplus (level : Level) (isTrailing : Bool) (text : String) : UsageFault :=
  match level with
  | .command _ => .unknownArgument text
  | .program =>
      if isTrailing ∧ (text = "help" ∨ (Subcommand.ofWord? text).isSome) then .unknownArgument text
      else .unknownCommand text

def takeOperand (level : Level) (isTrailing : Bool) (given : Given) (text : String) :
    Except UsageFault Given :=
  match level.operands[given.operands]? with
  | none => .error (level.surplus isTrailing text)
  | some argument => { given with operands := given.operands + 1 }.settleAndWait argument (some text)

/-- Takes a word without a hyphen in front: the value that is awaited, or an operand. -/
def takePlain (level : Level) (given : Given) (text : String) : Except UsageFault Given :=
  match given.awaiting? with
  | some argument => .ok { given with pending := some (argument, some text) }
  | none => level.takeOperand false given text

/-- The answer to `help` and the words after it, which must lead to a command. -/
def helpOn : List String → UsageFault
  | [] => .help
  | word :: rest =>
      if word = "help" ∨ (Subcommand.ofWord? word).isSome then
        match rest with
        | [] => .help
        | next :: _ => .unknownCommand next
      else .unknownCommand word

/-- Whether a word can be that of a command: at the level of the program, where no value is awaited. -/
def expectsCommand (level : Level) (given : Given) : Bool :=
  level = .program && given.awaiting?.isNone

/-- Reads the words of a level, up to that of a command; answers what was given, and the command with the
words behind it. -/
def readWords (level : Level) (given : Given) :
    List String → Except UsageFault (Given × Option (Subcommand × List String))
  | [] => .ok (given, none)
  | text :: rest =>
      let expectsCommand := level.expectsCommand given
      if expectsCommand ∧ text = "help" then .error (helpOn rest)
      else
        match if expectsCommand then Subcommand.ofWord? text else none with
        | some subcommand => .ok (given, some (subcommand, rest))
        | none =>
            match Word.ofText text with
            | .separator => do
                let given ← rest.foldlM (level.takeOperand true) given
                pure (given, none)
            | .long name value? => do
                let given ← level.takeLong given name value?
                level.readWords given rest
            | .short letters => do
                let given ← level.takeShort given letters
                level.readWords given rest
            | .plain => do
                let given ← level.takePlain given text
                level.readWords given rest

end Level

/-! ### Invocations -/

/-- The command that was given, if nothing is missing. -/
def Subcommand.command? (given : Given) : Subcommand → Option Command
  | serve =>
      some (.serve
        { port := (given.value? .port).bind Argument.port?
          host := given.value? .host
          schema := given.value? .schemaPath
          uploadDir := given.value? .uploadDir
          database := given.value? .database })
  | checkSchema => do
      let file ← given.value? .file
      pure (.checkSchema file)
  | checkRecord => do
      let schema ← given.value? .schema
      let record ← given.value? .record
      pure (.checkRecord schema record ((given.values.get? .skip).getD [idField]))

namespace Invocation

/-- The fault of a line without the word of a command. -/
def withoutCommand (environment : Environment) (given : Given) : Except UsageFault Invocation := do
  let given ← given.settle
  let supplied ← given.supplyAll environment .program
  .error (if supplied.values.isEmpty then .nothingGiven else .noCommand)

/-- Reads the words behind the word of a command, given what stands before it. The file of the settings is
the one given last, or the one of the environment. -/
def ofCommand (environment : Environment) (before : Given) (subcommand : Subcommand)
    (words : List String) : Except UsageFault Invocation := do
  let (behind, _) ← (Level.command subcommand).readWords {} words
  let behind ← behind.settle
  let supplied ← behind.supplyAll environment (.command subcommand)
  match subcommand.command? supplied with
  | none => .error .missingArgument
  | some command =>
      let before ← before.settle
      let _ ← before.supplyAll environment .program
      pure
        { config :=
            (behind.value? .config <|> before.value? .config) <|> supplied.value? .config
          jsonLogs := before.has .jsonLogs || behind.has .jsonLogs
          command }

/-- Reads a command line, without the name of the program. -/
def ofWords (environment : Environment) (words : List String) : Except UsageFault Invocation := do
  let (before, next) ← Level.program.readWords {} words
  match next with
  | none => withoutCommand environment before
  | some (subcommand, rest) => ofCommand environment before subcommand rest

end Invocation

end AddressBook
