import MapReplica.Database.Basic
import MapReplica.Rehearsal.Rule

/-!
# The database of a rehearsal

A database in memory with a pool of sessions. Advisory locks are counted per session: a
session may take a lock more than once, and it has the lock until it has given it back
as often. Statements are refused as the script says, and a refusal changes nothing.
-/

namespace MapReplica.Rehearsal

open MapReplica.Database

/-- A database that follows a script. Events are held in reverse. -/
structure Postgres where
  /-- Whether the host can be reached. -/
  online : Bool := true
  tables : List String := []
  /-- The parts of statements that make the database refuse them. -/
  refusals : List (Rule String) := []
  /-- The projects that someone else has locked. -/
  locked : List String := []
  /-- The sessions in the pool. -/
  idle : List Session := []
  /-- The number of the next session. -/
  next : Session := 0
  /-- The advisory locks with their sessions, once for each time they were taken. -/
  locks : List (String × Session) := []
  /-- The queues and keys of the jobs. -/
  jobs : List (String × String) := []
  closed : Bool := false
  events : List Statement := []

namespace Postgres

/-- What the operating system says without a way to the network. -/
def noNetwork : String := "Network is unreachable (os error 101)"

/-- Takes a session out of the pool, or begins one. -/
def acquire (db : Postgres) : Except Fault Session × Postgres :=
  if db.closed then (.error .poolClosed, db)
  else if !db.online then (.error (.connection noNetwork), db)
  else
    match db.idle with
    | session :: idle => (.ok session, { db with idle })
    | [] => (.ok db.next, { db with next := db.next + 1 })

/-- Ends sessions, and with them their locks. -/
def endSessions (db : Postgres) (sessions : List Session) : Postgres :=
  { db with locks := db.locks.filter fun lock => !sessions.contains lock.2 }

/-- Puts a session back into the pool; a closed pool ends it. -/
def giveBack (db : Postgres) (session : Session) : Postgres :=
  if db.closed then db.endSessions [session] else { db with idle := session :: db.idle }

/-- Closes the pool and ends the sessions in it. -/
def close (db : Postgres) : Postgres :=
  { db.endSessions db.idle with idle := [], closed := true }

/-- Whether a session may take the lock of a project. -/
def mayLock (db : Postgres) (project : String) (session : Session) : Bool :=
  !db.locked.contains project && db.locks.all fun lock => lock.1 != project || lock.2 == session

/-- The effect of a statement that is not refused. -/
def effect (db : Postgres) (session : Session) : (statement : Statement) → statement.Answer × Postgres
  | .findTable name => (if db.tables.contains name then some name else none, db)
  | .insertJob _ queue _ key =>
      if db.jobs.contains (queue, key) then (false, db)
      else (true, { db with jobs := (queue, key) :: db.jobs })
  | .tryLock project =>
      if db.mayLock project session then (true, { db with locks := (project, session) :: db.locks })
      else (false, db)
  | .unlock project =>
      (db.locks.contains (project, session), { db with locks := db.locks.erase (project, session) })

/-- Whether a text has a part. -/
def hasPart (part text : String) : Bool :=
  1 < (text.splitOn part).length

/-- Executes a statement. -/
def execute (db : Postgres) (session : Session) (statement : Statement) :
    Except Fault statement.Answer × Postgres :=
  let (found, refusals) := Rule.fire (fun part => hasPart part statement.text) db.refusals
  let db := { db with refusals, events := statement :: db.events }
  match found with
  | some _ => (.error (.refused "refused by the script"), db)
  | none =>
      let (answer, db) := db.effect session statement
      (.ok answer, db)

/-- Answers a question. -/
def answer : (query : Query) → Postgres → query.Answer × Postgres
  | .acquire, db => db.acquire
  | .giveBack session, db => ((), db.giveBack session)
  | .execute session statement, db => db.execute session statement
  | .close, db => ((), db.close)

/-- Runs a dialogue with the database. -/
def converse {α : Type} (db : Postgres) (dialogue : Dialogue protocol α) : α × Postgres :=
  dialogue.run answer db

end Postgres

end MapReplica.Rehearsal
