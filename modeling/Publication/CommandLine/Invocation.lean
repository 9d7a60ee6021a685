import Publication.Config.Load

/-!
What a command line asks for. Options may stand anywhere behind the command, until a `--` ends them.
-/

namespace Publication.CommandLine

/-- What a command line asks for. -/
inductive Invocation where
  | compile (input : Path) (output : Option String) (options : Config.Options)
  | mergeRecord (catalog record : Path)
  | removeRecord (catalog : Path) (url : String)
  | showSettings
  | showVersion
  | showHelp

/-- Why a command line asks for nothing. -/
inductive UsageError where
  | noCommand
  | unknownCommand (name : String)
  | unexpected (argument : String)
  | repeated (option : String)
  /-- What is named is not there, or is empty. -/
  | missing (name : String)
deriving Repr, DecidableEq

def UsageError.message : UsageError → String
  | .noCommand => "a command is required"
  | .unknownCommand name => "unrecognized subcommand '" ++ name ++ "'"
  | .unexpected argument => "unexpected argument '" ++ argument ++ "' found"
  | .repeated option => "the argument '" ++ option ++ "' cannot be used multiple times"
  | .missing name => "a value is required for '" ++ name ++ "'"

/-- An option of a command: a switch, or one with a value behind it. -/
structure Flag where
  name : String
  takesValue : Bool

/-- The arguments of a command, told apart. -/
structure Arguments where
  positional : List String := []
  /-- The options given, with their values; those of switches are empty. -/
  given : List (String × String) := []
  wantsHelp : Bool := false
deriving Repr, DecidableEq

namespace Arguments

/-- One more positional argument. -/
def push (arguments : Arguments) (argument : String) : Arguments :=
  { arguments with positional := arguments.positional ++ [argument] }

/-- One more option. No option may be given twice. -/
def give (arguments : Arguments) (name value : String) : Except UsageError Arguments :=
  if arguments.given.any (·.1 = name) then .error (.repeated name)
  else .ok { arguments with given := arguments.given ++ [(name, value)] }

def value? (arguments : Arguments) (name : String) : Option String :=
  (arguments.given.find? (·.1 = name)).map (·.2)

end Arguments

/-- Whether an argument is written as an option. A single dash is not one. -/
def isOption (argument : String) : Bool :=
  match argument.toList with
  | '-' :: _ :: _ => true
  | _ => false

/-- The name of an option, and the value that is written behind it and an equals sign. -/
def nameAndValue (argument : String) : String × Option String :=
  let text := argument.toList
  (String.ofList (text.takeWhile (· ≠ '=')),
    ((text.dropWhile (· ≠ '=')).tail?).map String.ofList)

/-- Tells options from positional arguments. The options are looked up among those of the command;
a call for help is heeded at once. -/
def sort (flags : List Flag) : Arguments → List String → Except UsageError Arguments
  | arguments, [] => .ok arguments
  | arguments, argument :: rest =>
      if argument = "--" then .ok (rest.foldl Arguments.push arguments)
      else if argument = "-h" || argument = "--help" then
        .ok { arguments with wantsHelp := true }
      else if !isOption argument then sort flags (arguments.push argument) rest
      else
        let (name, attached) := nameAndValue argument
        match flags.find? (·.name = name), attached with
        | none, _ => .error (.unexpected argument)
        | some flag, some value =>
            if !flag.takesValue then .error (.unexpected value)
            else if value.isEmpty then .error (.missing name)
            else
              match arguments.give name value with
              | .ok arguments => sort flags arguments rest
              | .error e => .error e
        | some flag, none =>
            if !flag.takesValue then
              match arguments.give name "" with
              | .ok arguments => sort flags arguments rest
              | .error e => .error e
            else
              match rest with
              | [] => .error (.missing name)
              | value :: rest =>
                  if isOption value || value.isEmpty then .error (.missing name)
                  else
                    match arguments.give name value with
                    | .ok arguments => sort flags arguments rest
                    | .error e => .error e

/-- A path, which must not be empty. -/
def pathOf (name argument : String) : Except UsageError Path :=
  if argument.isEmpty then .error (.missing name) else .ok ⟨argument⟩

/-- The option that names a file of settings. -/
def configFlag : Flag := ⟨"--config", true⟩

/-- The option that does without thumbnails. -/
def thumbnailFlag : Flag := ⟨"--no-thumbnail", false⟩

/-- Compiling, by its arguments. -/
def compileOf (arguments : Arguments) : Except UsageError Invocation := do
  let options : Config.Options :=
    { config := (arguments.value? configFlag.name).map fun path => ⟨path⟩
      noThumbnail := (arguments.value? thumbnailFlag.name).isSome }
  match arguments.positional with
  | [] => .error (.missing "<INPUT>")
  | [input] => return .compile (← pathOf "<INPUT>" input) none options
  | [input, output] => return .compile (← pathOf "<INPUT>" input) (some output) options
  | _ :: _ :: extra :: _ => .error (.unexpected extra)

/-- The merging of a record, by its arguments. -/
def mergeOf (arguments : Arguments) : Except UsageError Invocation := do
  match arguments.positional with
  | [] => .error (.missing "<CATALOG>")
  | [_] => .error (.missing "<META>")
  | [catalog, record] =>
      return .mergeRecord (← pathOf "<CATALOG>" catalog) (← pathOf "<META>" record)
  | _ :: _ :: extra :: _ => .error (.unexpected extra)

/-- The removal of records, by its arguments. -/
def removeOf (arguments : Arguments) : Except UsageError Invocation := do
  match arguments.positional with
  | [] => .error (.missing "<CATALOG>")
  | [_] => .error (.missing "<URL>")
  | [catalog, url] => return .removeRecord (← pathOf "<CATALOG>" catalog) url
  | _ :: _ :: extra :: _ => .error (.unexpected extra)

/-- A command without arguments. -/
def plainOf (invocation : Invocation) (arguments : Arguments) : Except UsageError Invocation :=
  match arguments.positional with
  | [] => .ok invocation
  | extra :: _ => .error (.unexpected extra)

/-- A command by its arguments, unless help is wanted. -/
def invocationOf (flags : List Flag) (make : Arguments → Except UsageError Invocation)
    (rest : List String) : Except UsageError Invocation := do
  let arguments ← sort flags {} rest
  if arguments.wantsHelp then return .showHelp else make arguments

def commandNames : List String := ["compile", "merge-meta", "rm-meta", "gen-config", "help"]

/-- Help on the program, or on one of its commands. -/
def helpOf : List String → Except UsageError Invocation
  | [] => .ok .showHelp
  | name :: rest =>
      if !commandNames.contains name then .error (.unknownCommand name)
      else
        match rest with
        | [] => .ok .showHelp
        | extra :: _ => .error (.unknownCommand extra)

/-- What a command line asks for. -/
def parse : List String → Except UsageError Invocation
  | [] => .error .noCommand
  | command :: rest =>
      match command with
      | "--version" | "-V" => .ok .showVersion
      | "--help" | "-h" => .ok .showHelp
      | "help" => helpOf rest
      | "compile" => invocationOf [configFlag, thumbnailFlag] compileOf rest
      | "merge-meta" => invocationOf [] mergeOf rest
      | "rm-meta" => invocationOf [] removeOf rest
      | "gen-config" => invocationOf [] (plainOf .showSettings) rest
      | name => if isOption name then .error (.unexpected name) else .error (.unknownCommand name)

end Publication.CommandLine
