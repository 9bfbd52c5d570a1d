import MapReplica.Number.Numeral

/-!
# Failures

Everything that can end an update or a first import, with its wording and the exit
status by which a program reports it.
-/

namespace MapReplica

/-- Why an operation failed. -/
inductive Failure where
  /-- The bucket of the object store is missing. -/
  | bucketMissing (bucket : String)
  /-- A progress text holds no usable sequence number. -/
  | unusableProgress (source reason : String)
  /-- An object could not be read. -/
  | objectUnread (key message : String)
  /-- An object could not be written. -/
  | objectUnwritten (key message : String)
  /-- The object store gave no usable answer. -/
  | store (message : String)
  /-- No connection to a server came about. -/
  | serverUnreachable (url message : String)
  /-- A server answered with a status that is no success. -/
  | serverRefused (url : String) (status : Nat)
  /-- A request could not be sent, or its answer could not be read to the end. -/
  | requestBroken (url message : String)
  /-- The import tool ended without success; without a code it was killed or never ran. -/
  | importTool (code : Option Int) (output : String)
  /-- The merge tool ended without success; without a code it was killed or never ran. -/
  | mergeTool (code : Option Int) (output : String)
  /-- An area resource is neither a geometry nor a box. -/
  | unusableArea (id : String)
  /-- A resource could not be fetched. -/
  | resourceMissing (id message : String)
  /-- A resource was asked for that is not in the cache. -/
  | resourceNotLoaded (id : String)
  /-- An equal request waits in the queue already. -/
  | alreadyQueued (queue : String)
  /-- The queue did not do its work. -/
  | queue (message : String)
  /-- A dump server lists no dump. -/
  | noDumps (server : String)
  /-- Another instance works on the project. -/
  | projectLocked (project : String)
  /-- The lock did not do its work. -/
  | lock (message : String)
  /-- A signal ended the work. -/
  | terminated
  /-- A setting or an argument is not acceptable. -/
  | configuration (message : String)
  /-- A search pattern is malformed. -/
  | pattern (message : String)
  /-- A file operation failed. -/
  | file (message : String)
  /-- A JSON text or value is malformed. -/
  | json (message : String)
  deriving DecidableEq, Repr

namespace Failure

/-- The written form of an exit code that may be absent. -/
def codeText : Option Int → String
  | none => "none"
  | some code => Number.signed code

/-- The wording of a failure. -/
def message : Failure → String
  | .bucketMissing bucket => "Bucket '" ++ bucket ++ "' does not exist"
  | .unusableProgress source reason => "Invalid state file '" ++ source ++ "': " ++ reason
  | .objectUnread key message => "Failed to get object '" ++ key ++ "': " ++ message
  | .objectUnwritten key message => "Failed to put object '" ++ key ++ "': " ++ message
  | .store message => "Object store error: " ++ message
  | .serverUnreachable url message => "Upstream '" ++ url ++ "' is unavailable: " ++ message
  | .serverRefused url status =>
      "Upstream '" ++ url ++ "' responded with status " ++ Number.numeral status
  | .requestBroken url message => "Request to '" ++ url ++ "' failed: " ++ message
  | .importTool code output => "osm2pgsql failed with exit code " ++ codeText code ++ ": " ++ output
  | .mergeTool code output => "osmium failed with exit code " ++ codeText code ++ ": " ++ output
  | .unusableArea id => "Geometry '" ++ id ++ "' is neither a valid GeoJSON nor a bbox"
  | .resourceMissing id message => "Remote resource '" ++ id ++ "' not found: " ++ message
  | .resourceNotLoaded id => "Resource '" ++ id ++ "' was requested before it was loaded"
  | .alreadyQueued name => "Request already in queue '" ++ name ++ "'"
  | .queue message => "Queue error: " ++ message
  | .noDumps server => "Dump server '" ++ server ++ "' returned an empty dumps list"
  | .projectLocked project => "Project '" ++ project ++ "' is locked by another instance"
  | .lock message => "Lock error: " ++ message
  | .terminated => "Terminated by signal"
  | .configuration message => "Configuration error: " ++ message
  | .pattern message => "Invalid pattern: " ++ message
  | .file message => "IO error: " ++ message
  | .json message => "JSON error: " ++ message

/-- The exit status of a program that ends with a failure. -/
def exitStatus : Failure → Nat
  | .objectUnread .. => 101
  | .unusableProgress .. => 102
  | .objectUnwritten .. => 103
  | .serverUnreachable .. => 105
  | .serverRefused .. => 105
  | .requestBroken .. => 105
  | .terminated => 130
  | _ => 1

/-- Whether the failure only says that the work was requested before. -/
def isAlreadyQueued : Failure → Bool
  | .alreadyQueued _ => true
  | _ => false

end Failure

/-- Why the operating system refused a file operation. -/
inductive FileFault where
  | notFound
  | permissionDenied
  | alreadyExists
  | notADirectory
  | isADirectory
  | nameTooLong
  /-- The content of a file that was to be read as text is no text. -/
  | notText
  deriving DecidableEq, Repr

/-- The wording of a refused file operation. -/
def FileFault.message : FileFault → String
  | .notFound => "No such file or directory (os error 2)"
  | .permissionDenied => "Permission denied (os error 13)"
  | .alreadyExists => "File exists (os error 17)"
  | .notADirectory => "Not a directory (os error 20)"
  | .isADirectory => "Is a directory (os error 21)"
  | .nameTooLong => "File name too long (os error 36)"
  | .notText => "stream did not contain valid UTF-8"

/-- A refused file operation as a failure of the work. -/
def FileFault.failure (fault : FileFault) : Failure :=
  .file fault.message

end MapReplica
