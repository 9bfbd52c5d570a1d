import MapReplica.Database.Basic
import MapReplica.Failure

/-!
# Advisory locks

The lock of a project is an advisory lock of the database. It belongs to the session
that took it, so the session is held until the lock is given back.
-/

namespace MapReplica.Lock

/-- The projects whose locks are held, each with the session that took the lock. -/
abbrev Held := List (String × Database.Session)

/-- The session that holds the lock of a project. -/
def Held.session? (held : Held) (project : String) : Option Database.Session :=
  (held.find? (·.1 = project)).map (·.2)

/-- The locks without that of a project. -/
def Held.without (held : Held) (project : String) : Held :=
  held.filter (·.1 != project)

/-- Work with the database that has the held locks as its state. -/
abbrev Locking (α : Type) := StateT Held (Dialogue Database.protocol) α

/-- A fault of the database as a failure of the lock. -/
def failure (fault : Database.Fault) : Failure :=
  .lock fault.message

/-- Asks the database. -/
def ask (query : Database.Query) : Locking query.Answer :=
  StateT.lift (Database.ask query)

/--
Takes the lock of a project; a lock that is held already is not taken again. A session
in which no lock was taken goes back into the pool.
-/
def reserve (project : String) : Locking (Except Failure Unit) := do
  if ((← get).session? project).isSome then return .ok ()
  match ← (ask .acquire : Locking (Except Database.Fault Database.Session)) with
  | .error fault => return .error (failure fault)
  | .ok session =>
      match ← (ask (.execute session (.tryLock project)) : Locking (Except Database.Fault Bool)) with
      | .ok true =>
          modify fun held => (project, session) :: held
          return .ok ()
      | .ok false =>
          let _ ← (ask (.giveBack session) : Locking Unit)
          return .error (.projectLocked project)
      | .error fault =>
          let _ ← (ask (.giveBack session) : Locking Unit)
          return .error (failure fault)

/--
Gives the lock of a project back; nothing is done for a lock that is not held. The lock
counts as given back and its session goes back into the pool whatever the database says.
-/
def release (project : String) : Locking (Except Failure Unit) := do
  match (← get).session? project with
  | none => return .ok ()
  | some session =>
      modify fun held => held.without project
      let result ← (ask (.execute session (.unlock project)) : Locking (Except Database.Fault Bool))
      let _ ← (ask (.giveBack session) : Locking Unit)
      return (result.mapError failure).map fun _ => ()

end MapReplica.Lock
