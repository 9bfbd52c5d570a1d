import MapReplica.CommandLine.Grammar

/-!
# References of command lines

The reference of a program as lines of markdown: an overview of its commands, and for
each of them its purpose, how it is called, and its arguments.
-/

namespace MapReplica.CommandLine

/-- A text as code. -/
def code (text : String) : String :=
  "`" ++ text ++ "`"

/-- The name of the value of an argument. -/
def Argument.placeholder (argument : Argument) : String :=
  "<" ++ argument.name.map (fun c => if c = '-' then '_' else c.toUpper) ++ ">"

/-- The long name of an argument with its value. -/
def Argument.longForm (argument : Argument) : String :=
  "--" ++ argument.name ++ if argument.kind.takesValues then " " ++ argument.placeholder else ""

/-- How an argument is written, with its help. -/
def Argument.headline (argument : Argument) : String :=
  let letter := argument.letter.elim "" fun letter => code ("-" ++ letter.toString) ++ ", "
  let help := argument.help.elim "" fun help => " — " ++ help
  "* " ++ letter ++ code argument.longForm ++ help

/-- A choice with its help. -/
def Choice.lines (choice : Choice) : List String :=
  match choice.help with
  | some help => ["  - " ++ code choice.name ++ ":", "    " ++ help]
  | none => ["  - " ++ code choice.name]

/-- The values of which one may be chosen; with help each has lines of its own. -/
def choiceLines (choices : List Choice) : List String :=
  if choices.any (·.help.isSome) then
    "" :: "  Possible values:" :: choices.flatMap Choice.lines ++ [""]
  else
    ["", "  Possible values: " ++ ", ".intercalate (choices.map fun choice => code choice.name), ""]

/-- The entry of an argument. -/
def Argument.lines (argument : Argument) : List String :=
  let fallback := argument.fallback.elim [] fun value => ["", "  Default value: " ++ code value]
  let choices := match argument.kind with
    | .choice choices => choiceLines choices
    | _ => []
  argument.headline :: fallback ++ choices

/-- The entries of arguments. -/
def argumentLines (arguments : List Argument) : List String :=
  "###### **Options:**" :: "" :: arguments.flatMap Argument.lines ++ ["", "", ""]

/-- The part of a reference about one command. -/
def chapter (title about usage : String) (details : List String) : List String :=
  ["## " ++ code title, "", about, "", "**Usage:** " ++ code usage, ""] ++ details

/-- The name of a command behind that of its program. -/
def Program.title (program : Program) (command : Command) : String :=
  program.name ++ " " ++ command.name

/-- How a command is called. -/
def Program.usage (program : Program) (command : Command) : String :=
  let required := (command.arguments.filter Argument.isRequired).map Argument.longForm
  " ".intercalate (program.title command :: "[OPTIONS]" :: required)

/-- The part of the reference about the program. -/
def Program.outerSection (program : Program) : List String :=
  let commands := program.commands.map fun command => "* " ++ code command.name ++ " — " ++ command.about
  chapter program.name program.about (program.name ++ " [OPTIONS] <COMMAND>")
    ("###### **Subcommands:**" :: "" :: commands ++ "" :: argumentLines program.arguments)

/-- The part of the reference about a command. -/
def Program.innerSection (program : Program) (command : Command) : List String :=
  chapter (program.title command) command.about (program.usage command) (argumentLines command.arguments)

/-- A line of the overview. -/
def overviewLine (title : String) : String :=
  "* [" ++ code title ++ "↴](#" ++ title.map (fun c => if c = ' ' then '-' else c) ++ ")"

/-- The place of the tool that gave references their form. -/
def formPlace : String := "crates.io/crates/clap-markdown"

/-- The end of a reference. -/
def closing : List String :=
  ["<hr/>", "", "<small><i>", "    This document was generated automatically by",
   "    <a href=\"https://" ++ formPlace ++ "\"><code>clap-markdown</code></a>.", "</i></small>", ""]

/-- The reference of a program. -/
def Program.reference (program : Program) : List String :=
  let titles := program.name :: program.commands.map program.title
  ["# Command-Line Help for " ++ code program.name, "",
   "This document contains the help content for the " ++ code program.name ++ " command-line program.", "",
   "**Command Overview:**", ""] ++ titles.map overviewLine ++ "" :: program.outerSection ++
    program.commands.flatMap program.innerSection ++ closing

end MapReplica.CommandLine
