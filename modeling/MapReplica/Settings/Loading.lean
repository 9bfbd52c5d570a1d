import MapReplica.Environment
import MapReplica.Settings.Basic

/-!
# Settings from an environment

Each setting has a name in the environment; a setting without a usable value there
keeps its default. An access rule without a meaning is refused, as are settings that
do not pass the check.
-/

namespace MapReplica

variable (environment : Environment)

/-- How the import tool is called. -/
def ImportToolSettings.load : ImportToolSettings :=
  let default : ImportToolSettings := {}
  { path := ⟨environment.text "OSM2PGSQL_PATH" default.path.text⟩
    slim := environment.flag "OSM2PGSQL_SLIM" default.slim
    cache := environment.number Number.max32 "OSM2PGSQL_CACHE" default.cache
    processes := environment.number Number.max32 "OSM2PGSQL_PROCESSES" default.processes
    output := environment.text "OSM2PGSQL_OUTPUT" default.output
    logLevel := environment.text "OSM2PGSQL_LOG_LEVEL" default.logLevel
    logProgress := environment.flag "OSM2PGSQL_LOG_PROGRESS" default.logProgress
    middleSchema := environment.nonEmpty? "OSM2PGSQL_MIDDLE_SCHEMA"
    schema := environment.nonEmpty? "OSM2PGSQL_SCHEMA"
    listsTiles := environment.flag "OSM2PGSQL_GENERATE_EXPIRE_OUTPUT" default.listsTiles }

/-- How the merge tool is called. -/
def MergeToolSettings.load : MergeToolSettings :=
  let default : MergeToolSettings := {}
  { path := ⟨environment.text "OSMIUM_PATH" default.path.text⟩
    verbose := environment.flag "OSMIUM_VERBOSE" default.verbose
    progress := environment.flag "OSMIUM_PROGRESS" default.progress }

/-- The access rule that the environment names. -/
def Store.Acl.load : Except Settings.Fault Store.Acl :=
  match environment.value? "S3_ACL" with
  | none => .ok .ownerOnly
  | some name =>
      match Store.Acl.ofName? name with
      | some acl => .ok acl
      | none => .error (.unknownAcl name)

/-- How the object store is reached. -/
def StoreSettings.load : Except Settings.Fault StoreSettings := do
  let default : StoreSettings := {}
  let acl ← Store.Acl.load environment
  return {
    endpoint := environment.value? "S3_ENDPOINT"
    region := environment.text "S3_REGION" default.region
    bucket := environment.text "S3_BUCKET" default.bucket
    accessKey := (environment.value? "S3_ACCESS_KEY").or (environment.value? "AWS_ACCESS_KEY_ID")
    secretKey := (environment.value? "S3_SECRET_KEY").or (environment.value? "AWS_SECRET_ACCESS_KEY")
    pathStyle := environment.flag "S3_PATH_STYLE" default.pathStyle
    acl }

/-- How servers are asked. -/
def ServerSettings.load : ServerSettings :=
  let default : ServerSettings := {}
  { timeout := environment.number Number.max64 "HTTP_TIMEOUT" default.timeout
    userAgent := environment.text "HTTP_USER_AGENT" default.userAgent }

/-- How the database of the queue is reached. -/
def QueueDatabase.load : QueueDatabase :=
  let default : QueueDatabase := {}
  { databaseUrl := environment.nonEmpty? "PGBOSS_DATABASE_URL"
    schema := environment.text "PGBOSS_SCHEMA" default.schema
    connections := environment.number Number.max32 "PGBOSS_MAX_CONNECTIONS" default.connections }

/-- How the lock is reached. -/
def LockSettings.load : LockSettings :=
  { databaseUrl := environment.nonEmpty? "OSMSYNC_LOCK_DATABASE_URL" }

/-- All settings, checked. -/
def Settings.load : Except Settings.Fault Settings := do
  let default : Settings := {}
  let store ← StoreSettings.load environment
  let settings : Settings :=
    { workDirectory := ⟨environment.text "OSMSYNC_WORK_DIR" default.workDirectory.text⟩
      importTool := ImportToolSettings.load environment
      mergeTool := MergeToolSettings.load environment
      store
      servers := ServerSettings.load environment
      queue := QueueDatabase.load environment
      lock := LockSettings.load environment }
  settings.check
  return settings

end MapReplica
