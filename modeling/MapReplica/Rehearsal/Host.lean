import MapReplica.Machine
import MapReplica.Rehearsal.Postgres
import MapReplica.Rehearsal.World

/-!
# The machine of a rehearsal

A machine in memory: its files and the servers that it reaches are those of a world,
the queue and the lock have a database each, and every run of a tool ends as the script
says. A signal is the wish of the world that the work ends.
-/

namespace MapReplica.Rehearsal

/-- What becomes of every request to an object store without a network. -/
def noReply : Store.Bucket.Reply := .error "dispatch failure"

/-- A machine that follows a script. The runs of tools are held in reverse. -/
structure Host where
  world : World := {}
  /-- The answers of the object store. -/
  store : Store.Request → Store.Bucket.Reply := fun _ => noReply
  queue : Postgres := {}
  lock : Postgres := {}
  /-- How a tool ends, or why it does not start. -/
  ending : Tool.Program → Except FileFault Tool.Ending := fun _ => .ok ⟨some 0, []⟩
  calls : List Tool.Call := []

namespace Host

/-- A machine without a network. -/
def offline (world : World) : Host :=
  { world := { world with online := false }, queue := { online := false }, lock := { online := false } }

/-- Does something with the world. -/
def onWorld {α : Type} (host : Host) (result : α × World) : α × Host :=
  (result.1, { host with world := result.2 })

/-- Asks the database of the queue. -/
def askQueue (host : Host) (query : Database.Query) : query.Answer × Host :=
  let (answer, queue) := host.queue.answer query
  (answer, { host with queue })

/-- Asks the database of the lock. -/
def askLock (host : Host) (query : Database.Query) : query.Answer × Host :=
  let (answer, lock) := host.lock.answer query
  (answer, { host with lock })

/-- Runs a tool. A program that does not start leaves no trace. -/
def runTool (host : Host) (call : Tool.Call) : Except FileFault Tool.Ending × Host :=
  match host.ending call.program with
  | .error fault => (.error fault, host)
  | .ok ending => (.ok ending, { host with calls := call :: host.calls })

/-- Does an operation to its end. -/
def perform : (operation : Operation) → Host → operation.Answer × Host
  | .store _ request, host => (host.store request, host)
  | .fetch settings url headers, host =>
      host.onWorld ({ host.world with userAgent := settings.userAgent }.fetch url headers)
  | .onQueueDatabase _ query, host => host.askQueue query
  | .onLockDatabase _ query, host => host.askLock query
  | .createDirectory path, host => host.onWorld (World.answer (.createDirectory path) host.world)
  | .writeFile path content, host => host.onWorld (World.answer (.writeFile path content) host.world)
  | .readFile path, host => host.onWorld (World.answer (.readFile path) host.world)
  | .removeFile path, host => host.onWorld (World.answer (.removeFile path) host.world)
  | .pathExists path, host => (host.world.disk.exists? host.world.current path, host)
  | .runTool _ call, host => host.runTool call
  | .terminateTools, host => ((), host)
  | .isSignalled, host => (host.world.cancelled, host)
  | .wait _, host => ((), host)

/-- Answers a demand. After a signal nothing is begun that a signal may end. -/
def answer : (demand : Demand) → Host → demand.Answer × Host
  | .whole operation, host => host.perform operation
  | .orSignal operation, host =>
      if host.world.cancelled then (none, host)
      else
        let (answer, host) := host.perform operation
        (some answer, host)

/-- Runs a dialogue with the machine. -/
def converse {α : Type} (host : Host) (dialogue : Dialogue machine α) : α × Host :=
  @Dialogue.run machine _ _ answer dialogue host

end Host

end MapReplica.Rehearsal
