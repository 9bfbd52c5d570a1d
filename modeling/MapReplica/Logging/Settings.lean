import MapReplica.Environment
import MapReplica.Json.Basic
import MapReplica.Path

/-!
# How to log

How much is logged, where to and in which form. Names are read without regard to the
case of ASCII letters, and some have a second spelling.
-/

namespace MapReplica.Logging

/-- How grave a message has to be. -/
inductive Level where
  | trace
  | debug
  | info
  | warn
  | error
  deriving DecidableEq, Repr

/-- Where messages go. -/
inductive Output where
  | console
  | file
  | both
  deriving DecidableEq, Repr

/-- The form of messages. -/
inductive Format where
  | text
  | json
  deriving DecidableEq, Repr

/-- The value that stands beside a name in a table, whatever the case of its letters. -/
def named? {α : Type} (table : List (String × α)) (name : String) : Option α :=
  (table.find? (·.1 = name.map Char.toLower)).map (·.2)

namespace Level

/-- The name of a level. -/
def name : Level → String
  | trace => "trace"
  | debug => "debug"
  | info => "info"
  | warn => "warn"
  | error => "error"

/-- The level of a name. -/
def ofName? : String → Option Level :=
  named? [("trace", trace), ("debug", debug), ("info", info), ("warn", warn), ("warning", warn), ("error", error)]

/-- The name of a level in messages. -/
def label (level : Level) : String :=
  level.name.map Char.toUpper

end Level

namespace Output

/-- The name of an output. -/
def name : Output → String
  | console => "console"
  | file => "file"
  | both => "both"

/-- The output of a name. -/
def ofName? : String → Option Output :=
  named? [("console", console), ("stdout", console), ("file", file), ("both", both), ("all", both)]

/-- Whether messages go to a file. -/
def hasFile : Output → Bool
  | console => false
  | file => true
  | both => true

end Output

namespace Format

/-- The name of a format. -/
def name : Format → String
  | text => "text"
  | json => "json"

/-- The format of a name. -/
def ofName? : String → Option Format :=
  named? [("text", text), ("pretty", text), ("json", json)]

end Format

/-- How to log. -/
structure Settings where
  level : Level := .info
  output : Output := .console
  format : Format := .text
  /-- The directory of the log files. -/
  directory : Path := ⟨"./logs"⟩
  /-- The front of the names of log files. -/
  fileStem : String := "osmsync"
  /-- Which messages count besides the level, with commas between the directives. -/
  filter : Option String := none
  /-- Whether messages tell where in the program they come from. -/
  showsLocation : Bool := false
  /-- Whether messages name the part of the program that they come from. -/
  showsTarget : Bool := true
  deriving DecidableEq, Repr

/-- Why settings cannot be read. -/
inductive Fault where
  | unknownLevel (text : String)
  | unknownOutput (text : String)
  | unknownFormat (text : String)
  deriving DecidableEq, Repr

/-- The wording of a fault. -/
def Fault.message : Fault → String
  | .unknownLevel text => "Invalid log level: " ++ text
  | .unknownOutput text => "Invalid log output: " ++ text
  | .unknownFormat text => "Invalid log format: " ++ text

/-- Reads a level. -/
def Level.parse (text : String) : Except Fault Level :=
  (ofName? text).elim (.error (.unknownLevel text)) .ok

/-- Reads an output. -/
def Output.parse (text : String) : Except Fault Output :=
  (ofName? text).elim (.error (.unknownOutput text)) .ok

/-- Reads a format. -/
def Format.parse (text : String) : Except Fault Format :=
  (ofName? text).elim (.error (.unknownFormat text)) .ok

/-- The setting that the environment gives, if it gives one. -/
def override {α : Type} (environment : Environment) (name : String)
    (parse : String → Except Fault α) (value : α) : Except Fault α :=
  (environment.value? name).elim (.ok value) parse

/-- The settings with those that the environment gives; the first that cannot be read is reported. -/
def Settings.withEnvironment (settings : Settings) (environment : Environment) :
    Except Fault Settings := do
  let level ← override environment "OSMSYNC_LOG_LEVEL" Level.parse settings.level
  let output ← override environment "OSMSYNC_LOG_OUTPUT" Output.parse settings.output
  let format ← override environment "OSMSYNC_LOG_FORMAT" Format.parse settings.format
  return { settings with
    level, output, format
    directory := ⟨environment.text "OSMSYNC_LOG_DIR" settings.directory.text⟩
    fileStem := environment.text "OSMSYNC_LOG_FILE_PREFIX" settings.fileStem
    filter := (environment.value? "OSMSYNC_LOG_FILTER").or settings.filter
    showsLocation :=
      if (environment.value? "OSMSYNC_LOG_INCLUDE_LOCATION").isSome then
        environment.flag "OSMSYNC_LOG_INCLUDE_LOCATION" false
      else settings.showsLocation }

/-- The written form of settings. -/
def Settings.toJson (settings : Settings) : Json :=
  .object
    [("level", .text settings.level.name), ("output", .text settings.output.name),
     ("format", .text settings.format.name), ("log_dir", .text settings.directory.text),
     ("log_file_prefix", .text settings.fileStem),
     ("filter_directives", settings.filter.elim .null .text),
     ("include_location", .bool settings.showsLocation),
     ("include_targets", .bool settings.showsTarget)]

end MapReplica.Logging
