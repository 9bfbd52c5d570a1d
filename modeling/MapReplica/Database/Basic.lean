import MapReplica.Dialogue

/-!
# The database

What the queue and the lock ask of a database. Statements are executed in sessions,
which come from a pool and go back to it; a session keeps the advisory locks that it
took until it gives them back or ends, also while it lies in the pool.
-/

namespace MapReplica.Database

/-- Why the database did not do what was asked. -/
inductive Fault where
  /-- No connection came about, or it broke. -/
  | connection (message : String)
  /-- A statement was refused; the session goes on. -/
  | refused (message : String)
  /-- No session of the pool became free in time. -/
  | poolBusy
  /-- The pool was closed. -/
  | poolClosed
  deriving DecidableEq, Repr

/-- The wording of a fault. -/
def Fault.message : Fault → String
  | .connection message => "error communicating with database: " ++ message
  | .refused message => "error returned from database: " ++ message
  | .poolBusy => "pool timed out while waiting for an open connection"
  | .poolClosed => "attempted to acquire a connection on a closed pool"

/-- A session of the database. -/
abbrev Session := Nat

/-- A statement. -/
inductive Statement where
  /-- The name of a table, if there is such a table. -/
  | findTable (name : String)
  /-- Puts a job into a queue, unless an unfinished one with the same key is there. -/
  | insertJob (schema queue data key : String)
  /-- Takes the advisory lock of a project, unless another session has it. -/
  | tryLock (project : String)
  /-- Gives the advisory lock of a project back. -/
  | unlock (project : String)
  deriving DecidableEq, Repr

namespace Statement

/--
The kind of answer to a statement: the name of the table, whether the job was put into
the queue, whether the session has the lock now, and whether it had it before.
-/
def Answer : Statement → Type
  | findTable _ => Option String
  | insertJob .. => Bool
  | tryLock _ => Bool
  | unlock _ => Bool

/-- The text of a statement. -/
def text : Statement → String
  | findTable _ => "SELECT to_regclass($1)::text"
  | insertJob schema .. =>
      "INSERT INTO " ++ schema ++ ".job (id, name, data, singletonkey) VALUES ($1, $2, $3, $4) " ++
        "ON CONFLICT DO NOTHING RETURNING id"
  | tryLock _ => "SELECT pg_try_advisory_lock(hashtext($1))"
  | unlock _ => "SELECT pg_advisory_unlock(hashtext($1))"

/-- The parameters of a statement, without the random id of a job. -/
def parameters : Statement → List String
  | findTable name => [name]
  | insertJob _ queue data key => [queue, data, key]
  | tryLock project => [project]
  | unlock project => [project]

end Statement

/-- A question to the database. -/
inductive Query where
  /-- Takes a session out of the pool, or begins one. -/
  | acquire
  /-- Puts a session back into the pool. -/
  | giveBack (session : Session)
  | execute (session : Session) (statement : Statement)
  /-- Ends all sessions in the pool; no more are given out. -/
  | close

/-- The kind of answer to a question. -/
def Query.Answer : Query → Type
  | acquire => Except Fault Session
  | giveBack _ => Unit
  | execute _ statement => Except Fault statement.Answer
  | close => Unit

/-- The protocol of the database. -/
def protocol : Protocol := ⟨Query, Query.Answer⟩

/-- Asks the database. -/
def ask (query : Query) : Dialogue protocol query.Answer :=
  @Dialogue.question protocol query

/-- Executes one statement in a session of the pool, which goes back into the pool whatever happens. -/
def once (statement : Statement) : Dialogue protocol (Except Fault statement.Answer) := do
  match ← (ask .acquire : Dialogue protocol (Except Fault Session)) with
  | .error fault => return .error fault
  | .ok session =>
      let result ← (ask (.execute session statement) : Dialogue protocol (Except Fault statement.Answer))
      let _ ← (ask (.giveBack session) : Dialogue protocol Unit)
      return result

end MapReplica.Database
