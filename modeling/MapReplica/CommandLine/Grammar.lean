import MapReplica.Environment

/-!
# Grammars of command lines

A program has commands, and a command has arguments. An argument has a long name and
perhaps a letter; a flag stands for itself, every other argument takes values, which
may also come from the environment.
-/

namespace MapReplica.CommandLine

/-- A value that may be chosen. -/
structure Choice where
  name : String
  help : Option String := none
  deriving DecidableEq, Repr

/-- What an argument is for, and which values it takes. -/
inductive Kind where
  | flag
  /-- Asks for the help text. -/
  | help
  /-- Asks for the version. -/
  | version
  | text
  | path
  | choice (choices : List Choice)
  | number (least greatest : Nat)
  | keyword (names : List String)
  deriving DecidableEq, Repr

/-- An argument. -/
structure Argument where
  name : String
  letter : Option Char := none
  kind : Kind
  /-- How many values one use needs at least. -/
  least : Nat := 1
  /-- Whether one use may have any number of values and there may be several uses. -/
  isRepeatable : Bool := false
  /-- The character that separates values in one word. -/
  separator : Option Char := none
  isRequired : Bool := false
  /-- The name in the environment that gives the value if no use does. -/
  variableName : Option String := none
  /-- The value if nothing else gives one. -/
  fallback : Option String := none
  help : Option String := none
  deriving DecidableEq, Repr

/-- A command. -/
structure Command where
  name : String
  about : String
  arguments : List Argument
  deriving DecidableEq, Repr

/-- A program with its commands and the arguments that go with all of them. -/
structure Program where
  name : String
  about : String
  hasVersion : Bool
  arguments : List Argument
  commands : List Command
  deriving DecidableEq, Repr

/-- Why a command line does not lead to a command. -/
inductive Problem where
  | helpWanted
  | versionWanted
  | nothingGiven
  | commandMissing
  | commandUnknown
  | argumentUnknown
  /-- A flag was given a value. -/
  | valueUnwanted
  /-- A value is missing, empty or none of the choices. -/
  | valueInvalid
  /-- A value is out of its range or malformed. -/
  | valueRefused
  | usedTwice
  | argumentMissing
  deriving DecidableEq, Repr

/-- The exit status of a program whose command line has a problem. -/
def Problem.exitStatus : Problem → Nat
  | .helpWanted => 0
  | .versionWanted => 0
  | _ => 2

/-- Whether an argument takes values. -/
def Kind.takesValues : Kind → Bool
  | .flag => false
  | .help => false
  | .version => false
  | _ => true

/-- Checks a value. -/
def Kind.check (value : String) : Kind → Except Problem Unit
  | .path => if value.isEmpty then .error .valueInvalid else .ok ()
  | .choice choices => if choices.any (·.name == value) then .ok () else .error .valueInvalid
  | .keyword names => if names.contains value then .ok () else .error .valueRefused
  | .number least greatest =>
      match Number.read greatest value.toList with
      | .ok n => if n < least then .error .valueRefused else .ok ()
      | .error _ => .error .valueRefused
  | _ => .ok ()

/-- The argument that asks for the help text. -/
def helpArgument : Argument :=
  { name := "help", letter := some 'h', kind := .help }

/-- The argument that asks for the version. -/
def versionArgument : Argument :=
  { name := "version", letter := some 'V', kind := .version }

/-- The name of the command that shows help texts. -/
def helpCommand : String := "help"

/-- The arguments in front of a command. -/
def Program.outerArguments (program : Program) : List Argument :=
  program.arguments ++ helpArgument :: if program.hasVersion then [versionArgument] else []

/-- The arguments behind a command. -/
def Program.innerArguments (program : Program) (command : Command) : List Argument :=
  command.arguments ++ program.arguments ++ [helpArgument]

/-- The command of a name. -/
def Program.command? (program : Program) (name : String) : Option Command :=
  program.commands.find? (·.name = name)

end MapReplica.CommandLine
