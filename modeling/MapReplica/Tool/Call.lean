import MapReplica.Settings.Basic
import MapReplica.Tool.Arguments

/-!
# Calls of tools

The command lines of the two tools: what is to be done stands first, the flags that
the settings ask for follow, and the arguments of the single call stand last.
-/

namespace MapReplica

/-- A number as a flag. -/
def numberFlag (name : String) (value : Nat) : String :=
  name ++ "=" ++ Number.numeral value

/-- A truth value as a flag. -/
def truthFlag (name : String) (value : Bool) : String :=
  name ++ "=" ++ (if value then "true" else "false")

/-- A text as a flag. -/
def textFlag (name value : String) : String :=
  name ++ "=" ++ value

/-- The flags of every call of the import tool. -/
def ImportToolSettings.flags (settings : ImportToolSettings) : List String :=
  (if settings.slim then ["--slim"] else []) ++
    [numberFlag "--cache" settings.cache, numberFlag "--number-processes" settings.processes,
     textFlag "--output" settings.output, textFlag "--log-level" settings.logLevel,
     truthFlag "--log-progress" settings.logProgress] ++
    settings.middleSchema.toList.map (textFlag "--middle-schema") ++
    settings.schema.toList.map (textFlag "--schema")

/-- The flags of every call of the merge tool. -/
def MergeToolSettings.flags (settings : MergeToolSettings) : List String :=
  (if settings.verbose then ["--verbose"] else []) ++
    [if settings.progress then "--progress" else "--no-progress", "--simplify"]

namespace Tool

/-- A tool. -/
inductive Program where
  | importer
  | merger
  deriving DecidableEq, Repr

/-- The name of a tool. -/
def Program.name : Program → String
  | .importer => "osm2pgsql"
  | .merger => "osmium"

/-- A call of a tool. -/
structure Call where
  program : Program
  arguments : List String
  deriving DecidableEq, Repr

/-- How both tools are called. -/
structure Setup where
  importer : ImportToolSettings := {}
  merger : MergeToolSettings := {}
  deriving DecidableEq, Repr

variable (setup : Setup)

/-- Where a tool lies. -/
def Setup.path : Program → Path
  | .importer => setup.importer.path
  | .merger => setup.merger.path

/-- Merges the changes in a file. -/
def Setup.merge (input output : Path) : Call :=
  ⟨.merger, "merge-changes" :: setup.merger.flags ++ [input.text, textFlag "--output" output.text, "--overwrite"]⟩

/-- Applies a diff. -/
def Setup.apply (arguments : ApplyArguments) : Call :=
  ⟨.importer, "--append" :: setup.importer.flags ++ arguments.toList⟩

/-- Imports a dump. -/
def Setup.importDump (style dump : Path) : Call :=
  ⟨.importer, "--create" :: setup.importer.flags ++ [textFlag "--style" style.text, dump.text]⟩

end Tool

end MapReplica
