import MapReplica.Failure
import MapReplica.Path
import MapReplica.Store.Acl

/-!
# Settings

What stays the same from one run to the next: where files lie, how the tools are
called, and how the object store, the servers, the queue and the lock are reached.
Every setting has a default.
-/

namespace MapReplica

/-- How the import tool is called. -/
structure ImportToolSettings where
  path : Path := ⟨"osm2pgsql"⟩
  slim : Bool := false
  /-- The size of the cache in megabytes. -/
  cache : Nat := 2500
  processes : Nat := 2
  output : String := "flex"
  logLevel : String := "info"
  logProgress : Bool := false
  middleSchema : Option String := none
  schema : Option String := none
  /-- Whether the tool is asked for expired tiles. -/
  listsTiles : Bool := true
  deriving DecidableEq, Repr

/-- How the merge tool is called. -/
structure MergeToolSettings where
  path : Path := ⟨"osmium"⟩
  verbose : Bool := false
  progress : Bool := false
  deriving DecidableEq, Repr

/-- How the object store is reached. -/
structure StoreSettings where
  endpoint : Option String := none
  region : String := "us-east-1"
  bucket : String := "osmsync"
  accessKey : Option String := none
  secretKey : Option String := none
  /-- Whether the bucket stands in the path of a URL, and not in its host. -/
  pathStyle : Bool := false
  acl : Store.Acl := .ownerOnly
  deriving DecidableEq, Repr

/-- The settings for a store on a host of one's own, with its standard keys. -/
def StoreSettings.selfHosted (endpoint bucket : String) : StoreSettings :=
  { endpoint := some endpoint
    bucket
    accessKey := some "minioadmin"
    secretKey := some "minioadmin"
    pathStyle := true }

/-- How servers are asked. -/
structure ServerSettings where
  /-- After how many seconds a request is given up. -/
  timeout : Nat := 120
  userAgent : String := "osmsync/0.1.0"
  deriving DecidableEq, Repr

/-- How the database of the queue is reached. -/
structure QueueDatabase where
  databaseUrl : Option String := none
  schema : String := "pgboss"
  connections : Nat := 5
  deriving DecidableEq, Repr

/-- How the lock is reached; without a database nothing is locked. -/
structure LockSettings where
  databaseUrl : Option String := none
  deriving DecidableEq, Repr

/-- All settings. -/
structure Settings where
  workDirectory : Path := ⟨"/tmp"⟩
  importTool : ImportToolSettings := {}
  mergeTool : MergeToolSettings := {}
  store : StoreSettings := {}
  servers : ServerSettings := {}
  queue : QueueDatabase := {}
  lock : LockSettings := {}
  deriving DecidableEq, Repr

namespace Settings

/-- The log levels of the import tool. -/
def logLevels : List String := ["debug", "info", "warn", "error"]

/-- Why settings are not usable. -/
inductive Fault where
  | noWorkDirectory
  | noCache
  | noProcesses
  | noOutput
  | unknownLogLevel (level : String)
  | noBucket
  | noTimeout
  | noConnections
  | unknownAcl (name : String)
  deriving DecidableEq, Repr

/-- The wording of a fault. -/
def Fault.message : Fault → String
  | .noWorkDirectory => "work directory cannot be empty"
  | .noCache => "osm2pgsql cache must be greater than 0"
  | .noProcesses => "osm2pgsql processes must be greater than 0"
  | .noOutput => "osm2pgsql output cannot be empty"
  | .unknownLogLevel level =>
      "osm2pgsql log level '" ++ level ++ "' must be one of " ++ ", ".intercalate logLevels
  | .noBucket => "S3 bucket cannot be empty"
  | .noTimeout => "HTTP timeout must be greater than 0"
  | .noConnections => "queue max_connections must be greater than 0"
  | .unknownAcl name => Store.Acl.unknownMessage name

/-- A fault as a failure of the work. -/
def Fault.failure (fault : Fault) : Failure :=
  .configuration fault.message

/-- Checks settings and reports the first fault. -/
def check (settings : Settings) : Except Fault Unit :=
  if settings.workDirectory.text.isEmpty then .error .noWorkDirectory
  else if settings.importTool.cache = 0 then .error .noCache
  else if settings.importTool.processes = 0 then .error .noProcesses
  else if settings.importTool.output.isEmpty then .error .noOutput
  else if settings.importTool.logLevel ∉ logLevels then
    .error (.unknownLogLevel settings.importTool.logLevel)
  else if settings.store.bucket.isEmpty then .error .noBucket
  else if settings.servers.timeout = 0 then .error .noTimeout
  else if settings.queue.connections = 0 then .error .noConnections
  else .ok ()

end Settings

end MapReplica
