import MapReplica.CommandLine.Reading
import MapReplica.Dump.Source
import MapReplica.Store.Acl
import MapReplica.Upload

/-!
# The commands

The two commands of the program, updating a project and importing it for the first
time, with what they are asked to do.
-/

namespace MapReplica.CommandLine

/-- The argument for the project. -/
def projectArgument : Argument :=
  { name := "project-id"
    letter := some 'p'
    kind := .text
    isRequired := true
    variableName := some "S3_PROJECT_ID"
    help := some "Project id, the key prefix of the project's objects in the bucket" }

/-- A zoom that the queue takes. -/
def queueZoom : Kind := .number 0 Queue.greatestZoom

/-- The help on a target of expired tiles. -/
def targetHelp : Upload.Target → String
  | .objectStore => "Raw list into the project bucket"
  | .queue => "Compacted bounding boxes pushed as a tile request"

/-- Updates a project. -/
def appendCommand : Command :=
  { name := "append"
    about := "Apply replication diffs to an existing project"
    arguments :=
      [projectArgument,
       { name := "config"
         letter := some 'c'
         kind := .path
         isRequired := true
         help := some "Path of the append entities configuration" },
       { name := "replication-url"
         letter := some 'r'
         kind := .text
         isRequired := true
         variableName := some "REPLICATION_URL"
         help := some "Root url of the replication feed" },
       { name := "upload-targets"
         letter := some 'u'
         kind := .choice (Upload.Target.all.map fun target => ⟨target.name, some (targetHelp target)⟩)
         isRepeatable := true
         separator := some ','
         help := some "Where expired tiles are uploaded" },
       { name := "queue-name"
         kind := .text
         help := some "Queue receiving tile requests, required by the queue target" },
       { name := "queue-min-zoom", kind := queueZoom },
       { name := "queue-max-zoom", kind := queueZoom },
       { name := "limit"
         letter := some 'l'
         kind := .number 1 Number.max64
         help := some "Maximum number of diffs to apply in this run" },
       { name := "forever"
         letter := some 'f'
         kind := .flag
         help := some "Keep running and poll the feed for new diffs" },
       { name := "wait-time-seconds"
         letter := some 'w'
         kind := .number 0 Number.max64
         fallback := some "60"
         help := some "Seconds to wait between polls when up to date or after a failure" },
       { name := "s3-acl"
         letter := some 'a'
         kind := .keyword (Store.Acl.all.map Store.Acl.name)
         variableName := some "S3_ACL"
         help := some "Canned ACL of uploaded objects" }] }

/-- Imports a project for the first time. -/
def createCommand : Command :=
  { name := "create"
    about := "Initialize a database from scratch out of an osm pbf dump"
    arguments :=
      [projectArgument,
       { name := "script-key"
         letter := some 'l'
         kind := .text
         isRequired := true
         help := some "Key of the lua style relative to the project prefix" },
       { name := "dump-source"
         letter := some 's'
         kind := .text
         isRequired := true
         help := some "Local path, url or dump server url, depending on the source type" },
       { name := "dump-source-type"
         letter := some 't'
         kind := .choice (Dump.Kind.all.map fun kind => ⟨kind.name, none⟩)
         isRequired := true },
       { name := "dump-server-headers"
         kind := .text
         least := 0
         isRepeatable := true
         help := some "Extra dump server request headers as key=value" }] }

/-- The program. -/
def program : Program :=
  { name := "osmsync"
    about := "Keeps a PostGIS database in sync with an OSM replication feed"
    hasVersion := true
    arguments := [{ name := "verbose", letter := some 'v', kind := .flag, help := some "Verbose output" }]
    commands := [appendCommand, createCommand] }

/-- What to do in order to update a project. -/
structure AppendOrder where
  project : String
  /-- Where the entities are described. -/
  entities : Path
  /-- The url of the feed. -/
  feed : String
  targets : List Upload.Target
  queueName : Option String
  queueMinZoom : Option Nat
  queueMaxZoom : Option Nat
  limit : Option Nat
  forever : Bool
  /-- How many seconds to wait for the next round. -/
  wait : Nat
  acl : Option Store.Acl
  deriving Repr

/-- What to do in order to import a project. -/
structure CreateOrder where
  project : String
  script : String
  source : String
  kind : Dump.Kind
  headers : List String
  deriving Repr

/-- What the program is to do. -/
inductive Order where
  | append (order : AppendOrder)
  | create (order : CreateOrder)
  deriving Repr

/-- The order that the arguments of an update give. -/
def AppendOrder.ofGiven? (given : Given) : Option AppendOrder := do
  return {
    project := ← given.value? "project-id"
    entities := ⟨← given.value? "config"⟩
    feed := ← given.value? "replication-url"
    targets := (given.values "upload-targets").filterMap Upload.Target.ofName?
    queueName := given.value? "queue-name"
    queueMinZoom := given.number? "queue-min-zoom"
    queueMaxZoom := given.number? "queue-max-zoom"
    limit := given.number? "limit"
    forever := given.has "forever"
    wait := ← given.number? "wait-time-seconds"
    acl := (given.value? "s3-acl").bind Store.Acl.ofName? }

/-- The order that the arguments of an import give. -/
def CreateOrder.ofGiven? (given : Given) : Option CreateOrder := do
  return {
    project := ← given.value? "project-id"
    script := ← given.value? "script-key"
    source := ← given.value? "dump-source"
    kind := ← (given.value? "dump-source-type").bind Dump.Kind.ofName?
    headers := given.values "dump-server-headers" }

/-- The order that a command with its arguments gives. -/
def Order.ofInvocation? (invocation : Invocation) : Option Order :=
  if invocation.command = appendCommand then (AppendOrder.ofGiven? invocation.given).map .append
  else (CreateOrder.ofGiven? invocation.given).map .create

/-- What the program was asked to do. -/
structure Request where
  isVerbose : Bool
  order : Order
  deriving Repr

/-- Reads the command line of the program. -/
def Request.read (environment : Environment) (words : List String) : Except Problem Request := do
  let invocation ← program.read environment words
  match Order.ofInvocation? invocation with
  | some order => return ⟨invocation.given.has "verbose", order⟩
  | none => throw .argumentMissing

/-- The wording of arguments for the queue that are missing. -/
def queueArgumentsMissing : String :=
  "the queue upload target requires --queue-name, --queue-min-zoom and --queue-max-zoom"

/-- The settings of the queue, if it is a target. -/
def AppendOrder.queueSettings (order : AppendOrder) : Except Failure (Option Queue.Settings) :=
  if .queue ∈ order.targets then
    match order.queueName, order.queueMinZoom, order.queueMaxZoom with
    | some name, some minZoom, some maxZoom =>
        match Queue.Settings.make name minZoom maxZoom with
        | .ok settings => .ok (some settings)
        | .error fault => .error (.configuration fault.message)
    | _, _, _ => .error (.configuration queueArgumentsMissing)
  else .ok none

end MapReplica.CommandLine
