import WikiPress.Files.Path

/-!
# Arguments of the command line

The arguments are options and operands.  An option begins with two hyphens and a
name, or with one hyphen and one letter for each of several options; the name of a
command is the first operand, and its own options and operands follow it.  Behind
`--` everything is an operand.  `Request.ofArguments?` says what is asked for.
-/

namespace WikiPress.CommandLine

open Files

/-- The commands. -/
inductive Command where
  | build | watch
deriving DecidableEq, Repr

/-- What help can be asked about. -/
inductive Topic where
  | program
  | command (command : Command)
  | help
deriving DecidableEq, Repr

/-- What is asked for. -/
inductive Request where
  | version
  | help (topic : Topic)
  | build (configFile : Option Path) (input output : Path) (asJson : Bool)
  | watch (configFile : Option Path) (input output : Path)
deriving DecidableEq, Repr

/-- The command of a name. -/
def Command.ofName? : String → Option Command
  | "build" => some build
  | "watch" => some watch
  | _ => none

/-! ## Words -/

/-- How an argument is read. -/
inductive Word where
  /-- Behind this one everything is an operand. -/
  | separator
  /-- The name of an option, perhaps with its value. -/
  | long (name : String) (value : Option String)
  /-- The letters of several options. -/
  | short (letters : List Char)
  | operand (text : String)
deriving DecidableEq, Repr

/-- How an argument is read.  A single hyphen is an operand. -/
def Word.ofArgument (argument : String) : Word :=
  match argument.toList with
  | ['-', '-'] => separator
  | '-' :: '-' :: name =>
    let value := (name.dropWhile (· ≠ '=')).tail?
    long (String.ofList (name.takeWhile (· ≠ '='))) (value.map String.ofList)
  | '-' :: first :: letters => short (first :: letters)
  | _ => operand argument

/-! ## Options -/

/-- The options that stand before a command, or those behind it. -/
structure Options where
  configFile : Option Path := none
  isVerbose : Bool := false
  asJson : Bool := false
deriving DecidableEq, Repr

/-- The options without a value. -/
inductive Switch where
  | verbose | json | help | version
deriving DecidableEq, Repr

/-- The option of a name.  `--json` belongs to the command `build`, and `--version`
to no command. -/
def Switch.ofName? (command : Option Command) : String → Option Switch
  | "verbose" => some verbose
  | "help" => some help
  | "json" => if command = some .build then some json else none
  | "version" => if command.isNone then some version else none
  | _ => none

/-- The option of a letter. -/
def Switch.ofLetter? (command : Option Command) : Char → Option Switch
  | 'v' => some verbose
  | 'h' => some help
  | 'V' => if command.isNone then some version else none
  | _ => none

/-- What is known when some arguments have been read. -/
structure Reading where
  command : Option Command := none
  /-- The options that were read before the command. -/
  outer : Options := {}
  options : Options := {}
  /-- The operands of the command, the last first. -/
  operands : List Path := []
deriving DecidableEq, Repr

/-- How reading goes on behind an argument. -/
inductive Progress where
  | more (reading : Reading)
  /-- The request is complete, whatever follows. -/
  | complete (request : Request)
  | refused
deriving DecidableEq, Repr

namespace Reading

/-- What help is about when it is asked for by an option. -/
def topic (reading : Reading) : Topic :=
  match reading.command with
  | some command => .command command
  | none => .program

/-- Read an option without a value.  Before a command and behind it, each may stand
once. -/
def switchOn (reading : Reading) (switch : Switch) : Progress :=
  let options := reading.options
  match switch with
  | .help => .complete (.help reading.topic)
  | .version => .complete .version
  | .verbose =>
    if options.isVerbose then .refused
    else .more { reading with options := { options with isVerbose := true } }
  | .json =>
    if options.asJson then .refused
    else .more { reading with options := { options with asJson := true } }

/-- Read options without a value that are written as letters. -/
def switchAll (reading : Reading) : List Char → Progress
  | [] => .more reading
  | letter :: letters =>
    match (Switch.ofLetter? reading.command letter).map reading.switchOn with
    | some (.more reading) => switchAll reading letters
    | some progress => progress
    | none => .refused

/-- Read the path of a configuration file. -/
def setConfigFile (reading : Reading) (path : Path) : Progress :=
  if path.isEmpty || reading.options.configFile.isSome then .refused
  else .more { reading with options := { reading.options with configFile := some path } }

/-- Read an operand of a command: its input, and then its output. -/
def addOperand (reading : Reading) (path : Path) : Progress :=
  if path.isEmpty || reading.command.isNone || 2 ≤ reading.operands.length then .refused
  else .more { reading with operands := path :: reading.operands }

/-- Begin to read the arguments of a command. -/
def enter (reading : Reading) (command : Command) : Reading :=
  { command := some command, outer := reading.options }

/-- What was asked for when all arguments have been read. -/
def request? (reading : Reading) : Option Request :=
  let configFile := reading.options.configFile <|> reading.outer.configFile
  match reading.command, reading.operands with
  | some .build, [output, input] =>
    some (.build configFile input output reading.options.asJson)
  | some .watch, [output, input] => some (.watch configFile input output)
  | _, _ => none

/-- What help is asked for behind the name of the help command. -/
def helpRequest? : List String → Option Request
  | [] => some (.help .program)
  | ["help"] => some (.help .help)
  | [name] => (Command.ofName? name).map fun command => .help (.command command)
  | _ => none

/-- Read the arguments behind the separator: operands. -/
def readOperands? (reading : Reading) : List String → Option Request
  | [] => reading.request?
  | argument :: arguments =>
    match reading.addOperand argument with
    | .more reading => readOperands? reading arguments
    | .complete request => some request
    | .refused => none

/-- Whether an argument may be the value of the option before it. -/
def isValue (argument : String) : Bool :=
  match Word.ofArgument argument with
  | .operand _ => true
  | _ => false

/-- Read arguments. -/
def read? (reading : Reading) : List String → Option Request
  | [] => reading.request?
  | argument :: arguments =>
    let goOn (progress : Progress) : Option Request :=
      match progress with
      | .more reading => read? reading arguments
      | .complete request => some request
      | .refused => none
    match Word.ofArgument argument with
    | .separator => reading.readOperands? arguments
    | .long "config" (some value) => goOn (reading.setConfigFile value)
    | .long "config" none =>
      match arguments with
      | [] => none
      | value :: arguments =>
        if isValue value then
          match reading.setConfigFile value with
          | .more reading => read? reading arguments
          | .complete request => some request
          | .refused => none
        else
          none
    | .long name value =>
      match Switch.ofName? reading.command name with
      | some switch => if value.isSome then none else goOn (reading.switchOn switch)
      | none => none
    | .short letters => goOn (reading.switchAll letters)
    | .operand text =>
      if reading.command.isNone then
        if text = "help" then helpRequest? arguments
        else
          match Command.ofName? text with
          | some command => read? (reading.enter command) arguments
          | none => none
      else
        goOn (reading.addOperand text)

end Reading

/-- What arguments ask for, if they are in order. -/
def Request.ofArguments? (arguments : List String) : Option Request :=
  Reading.read? {} arguments

end WikiPress.CommandLine
