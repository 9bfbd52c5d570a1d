import MapReplica.Database.Address
import MapReplica.Database.Basic
import MapReplica.Failure
import MapReplica.Queue.Request
import MapReplica.Settings.Basic

/-!
# A queue of jobs in a database

Requests become jobs in a table of the database. The key of a request is the key of its
job, and no two unfinished jobs of a queue have the same key, so that a request is
queued once.
-/

namespace MapReplica.Queue

/-- A queue in the table of jobs of a schema. -/
structure Jobs where
  schema : String
  queue : String
  deriving DecidableEq, Repr

/-- Why there is no such queue. -/
inductive JobsFault where
  | noDatabase
  | address (fault : Database.AddressFault)
  | schema (name : String)
  deriving DecidableEq, Repr

/-- The wording of a fault. -/
def JobsFault.message : JobsFault → String
  | .noDatabase => "PGBOSS_DATABASE_URL is required for the queue target"
  | .address fault => "invalid queue database url: " ++ fault.message
  | .schema name => "invalid pg-boss schema '" ++ name ++ "'"

/-- Whether a name can stand in a statement as it is: letters, digits and underscores, no digit in front. -/
def isIdentifier (name : String) : Bool :=
  let text := name.toList
  !text.isEmpty && text.all (fun c => c.isAlphanum || c == '_') && !text.head?.any Char.isDigit

namespace Jobs

/-- The queue of a name in the database that the settings give. -/
def make (settings : QueueDatabase) (queue : String) : Except JobsFault Jobs :=
  match settings.databaseUrl with
  | none => .error .noDatabase
  | some url =>
      match Database.checkAddress url with
      | .error fault => .error (.address fault)
      | .ok () =>
          if isIdentifier settings.schema then .ok ⟨settings.schema, queue⟩
          else .error (.schema settings.schema)

variable (jobs : Jobs)

/-- The table of jobs. -/
def table : String :=
  jobs.schema ++ ".job"

/-- Makes sure that the table of jobs is there. -/
def start : Dialogue Database.protocol (Except Failure Unit) := do
  match ← Database.once (.findTable jobs.table) with
  | .error fault => return .error (.queue fault.message)
  | .ok (table : Option String) =>
      return if table.isSome then .ok ()
        else .error (.queue ("pg-boss job table not found in schema '" ++ jobs.schema ++ "'"))

/-- Puts a request into the queue. -/
def push (request : Request) : Dialogue Database.protocol (Except Failure Unit) := do
  match ← Database.once (.insertJob jobs.schema jobs.queue request.text request.key) with
  | .error fault => return .error (.queue fault.message)
  | .ok (isNew : Bool) => return if isNew then .ok () else .error (.alreadyQueued jobs.queue)

/-- Ends the use of the queue. -/
def stop : Dialogue Database.protocol (Except Failure Unit) := do
  let _ ← (Database.ask .close : Dialogue Database.protocol Unit)
  return .ok ()

end Jobs

end MapReplica.Queue
