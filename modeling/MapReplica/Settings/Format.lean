import MapReplica.Json.Record
import MapReplica.Settings.Basic

/-!
# The written form of settings

Settings as a JSON object with an object for each group. Optional settings may be
`null` or missing, and members of other names are ignored.
-/

namespace MapReplica

namespace Json

/-- A text or `null`. -/
def ofText? : Option String → Json
  | none => null
  | some value => text value

/-- The whole number of at most `bound` that a value is. -/
def upTo? (bound : Nat) (value : Json) : Option Nat :=
  value.natural?.filter (· ≤ bound)

/-- The path that a value is. -/
def path? (value : Json) : Option Path :=
  value.text?.map Path.mk

end Json

/-- The names of the settings of the import tool. -/
def ImportToolSettings.names : List String :=
  ["path", "slim", "cache_mb", "processes", "output", "log_level", "log_progress", "middle_schema",
   "schema", "generate_expire_output"]

/-- Writes the settings of the import tool. -/
def ImportToolSettings.toJson (settings : ImportToolSettings) : Json :=
  .object (names.zip
    [.text settings.path.text, .bool settings.slim, .integer settings.cache,
     .integer settings.processes, .text settings.output, .text settings.logLevel,
     .bool settings.logProgress, .ofText? settings.middleSchema, .ofText? settings.schema,
     .bool settings.listsTiles])

/-- Reads the settings of the import tool. -/
def ImportToolSettings.ofJson? (value : Json) : Option ImportToolSettings := do
  match ← value.fields? names true with
  | [path, slim, cache, processes, output, logLevel, logProgress, middleSchema, schema, listsTiles] =>
      some
        { path := ← Json.required Json.path? path
          slim := ← Json.required Json.bool? slim
          cache := ← Json.required (Json.upTo? Number.max32) cache
          processes := ← Json.required (Json.upTo? Number.max32) processes
          output := ← Json.required Json.text? output
          logLevel := ← Json.required Json.text? logLevel
          logProgress := ← Json.required Json.bool? logProgress
          middleSchema := ← Json.optional Json.text? middleSchema
          schema := ← Json.optional Json.text? schema
          listsTiles := ← Json.required Json.bool? listsTiles }
  | _ => none

/-- The names of the settings of the merge tool. -/
def MergeToolSettings.names : List String := ["path", "verbose", "progress"]

/-- Writes the settings of the merge tool. -/
def MergeToolSettings.toJson (settings : MergeToolSettings) : Json :=
  .object (names.zip [.text settings.path.text, .bool settings.verbose, .bool settings.progress])

/-- Reads the settings of the merge tool. -/
def MergeToolSettings.ofJson? (value : Json) : Option MergeToolSettings := do
  match ← value.fields? names true with
  | [path, verbose, progress] =>
      some
        { path := ← Json.required Json.path? path
          verbose := ← Json.required Json.bool? verbose
          progress := ← Json.required Json.bool? progress }
  | _ => none

/-- The names of the settings of the object store. -/
def StoreSettings.names : List String :=
  ["endpoint", "region", "bucket", "access_key", "secret_key", "path_style", "acl"]

/-- Writes the settings of the object store. -/
def StoreSettings.toJson (settings : StoreSettings) : Json :=
  .object (names.zip
    [.ofText? settings.endpoint, .text settings.region, .text settings.bucket,
     .ofText? settings.accessKey, .ofText? settings.secretKey, .bool settings.pathStyle,
     .text settings.acl.name])

/-- Reads the settings of the object store. -/
def StoreSettings.ofJson? (value : Json) : Option StoreSettings := do
  match ← value.fields? names true with
  | [endpoint, region, bucket, accessKey, secretKey, pathStyle, acl] =>
      some
        { endpoint := ← Json.optional Json.text? endpoint
          region := ← Json.required Json.text? region
          bucket := ← Json.required Json.text? bucket
          accessKey := ← Json.optional Json.text? accessKey
          secretKey := ← Json.optional Json.text? secretKey
          pathStyle := ← Json.required Json.bool? pathStyle
          acl := ← Json.required (fun value => value.text?.bind Store.Acl.ofName?) acl }
  | _ => none

/-- The names of the settings of servers. -/
def ServerSettings.names : List String := ["timeout_secs", "user_agent"]

/-- Writes the settings of servers. -/
def ServerSettings.toJson (settings : ServerSettings) : Json :=
  .object (names.zip [.integer settings.timeout, .text settings.userAgent])

/-- Reads the settings of servers. -/
def ServerSettings.ofJson? (value : Json) : Option ServerSettings := do
  match ← value.fields? names true with
  | [timeout, userAgent] =>
      some
        { timeout := ← Json.required (Json.upTo? Number.max64) timeout
          userAgent := ← Json.required Json.text? userAgent }
  | _ => none

/-- The names of the settings of the database of the queue. -/
def QueueDatabase.names : List String := ["database_url", "schema", "max_connections"]

/-- Writes the settings of the database of the queue. -/
def QueueDatabase.toJson (settings : QueueDatabase) : Json :=
  .object (names.zip
    [.ofText? settings.databaseUrl, .text settings.schema, .integer settings.connections])

/-- Reads the settings of the database of the queue. -/
def QueueDatabase.ofJson? (value : Json) : Option QueueDatabase := do
  match ← value.fields? names true with
  | [databaseUrl, schema, connections] =>
      some
        { databaseUrl := ← Json.optional Json.text? databaseUrl
          schema := ← Json.required Json.text? schema
          connections := ← Json.required (Json.upTo? Number.max32) connections }
  | _ => none

/-- The names of the settings of the lock. -/
def LockSettings.names : List String := ["database_url"]

/-- Writes the settings of the lock. -/
def LockSettings.toJson (settings : LockSettings) : Json :=
  .object (names.zip [.ofText? settings.databaseUrl])

/-- Reads the settings of the lock. -/
def LockSettings.ofJson? (value : Json) : Option LockSettings := do
  match ← value.fields? names true with
  | [databaseUrl] => some { databaseUrl := ← Json.optional Json.text? databaseUrl }
  | _ => none

/-- The names of the groups of settings. -/
def Settings.names : List String :=
  ["work_dir", "osm2pgsql", "osmium", "storage", "http", "queue", "lock"]

/-- Writes settings. -/
def Settings.toJson (settings : Settings) : Json :=
  .object (names.zip
    [.text settings.workDirectory.text, settings.importTool.toJson, settings.mergeTool.toJson,
     settings.store.toJson, settings.servers.toJson, settings.queue.toJson, settings.lock.toJson])

/-- Reads settings. -/
def Settings.ofJson? (value : Json) : Option Settings := do
  match ← value.fields? names true with
  | [workDirectory, importTool, mergeTool, store, servers, queue, lock] =>
      some
        { workDirectory := ← Json.required Json.path? workDirectory
          importTool := ← Json.required ImportToolSettings.ofJson? importTool
          mergeTool := ← Json.required MergeToolSettings.ofJson? mergeTool
          store := ← Json.required StoreSettings.ofJson? store
          servers := ← Json.required ServerSettings.ofJson? servers
          queue := ← Json.required QueueDatabase.ofJson? queue
          lock := ← Json.required LockSettings.ofJson? lock }
  | _ => none

end MapReplica
