import MapReplica.Collaborator
import MapReplica.Lock.Advisory
import MapReplica.Machine
import MapReplica.Queue.Jobs

/-!
# Services

The collaborators as the machine provides them: the object store over HTTP, the tools
as programs, the queue and the lock in databases. Without a queue or a lock the
questions to them are answered at once, and nothing is asked of the machine.
-/

namespace MapReplica

/-- What the collaborators are made of. -/
structure Services where
  settings : Settings := {}
  /-- The queue, if there is one. -/
  jobs : Option Queue.Jobs := none
  /-- How many seconds to wait for the next round. -/
  pause : Nat := 0

/-- Work of the services, which has the held locks as its state. -/
abbrev Serving (α : Type) := StateT Lock.Held (Dialogue operations) α

namespace Services

variable (services : Services)

/-- Asks for an operation. -/
def ask (operation : Operation) : Serving operation.Answer :=
  StateT.lift operation.ask

/-- The bucket of the object store. -/
def bucket : Store.Bucket :=
  ⟨services.settings.store.bucket, services.settings.store.acl⟩

/-- How the tools are called. -/
def tools : Tool.Setup :=
  ⟨services.settings.importTool, services.settings.mergeTool⟩

/-- Sends a request to the object store. -/
def send (request : Store.Request) : Serving Store.Bucket.Reply :=
  ask (.store services.settings.store request)

/-- Runs a tool to its end. -/
def runTool (call : Tool.Call) : Serving (Except Failure Unit) := do
  let ending ← (ask (.runTool (services.tools.path call.program) call) : Serving (Except FileFault Tool.Ending))
  return call.program.outcome ending

/-- Uses the queue, if there is one. -/
def withQueue (work : Queue.Jobs → Dialogue Database.protocol (Except Failure Unit)) :
    Serving (Except Failure Unit) :=
  match services.jobs with
  | none => return .ok ()
  | some jobs =>
      StateT.lift
        ((work jobs).interpret fun query => (Operation.onQueueDatabase services.settings.queue query).ask)

/-- Uses the lock, if there is one. -/
def withLock (work : Lock.Locking (Except Failure Unit)) : Serving (Except Failure Unit) :=
  if services.settings.lock.databaseUrl.isNone then return .ok ()
  else fun held =>
    (work.run held).interpret fun query => (Operation.onLockDatabase services.settings.lock query).ask

/-- Answers a question of the work. -/
def answer : (inquiry : Inquiry) → Serving inquiry.Answer
  | .bucketExists => do
      return services.bucket.existed (← services.send services.bucket.existence)
  | .getObject key => do
      return Store.Bucket.wasRead key (← services.send (services.bucket.reading key))
  | .putObject key body => do
      return Store.Bucket.wasWritten key (← services.send (services.bucket.writing key body))
  | .fetch url headers => ask (.fetch services.settings.servers url headers)
  | .createDirectory path => ask (.createDirectory path)
  | .writeFile path content => ask (.writeFile path content)
  | .readFile path => ask (.readFile path)
  | .removeFile path => ask (.removeFile path)
  | .merge input output => services.runTool (services.tools.merge input output)
  | .applyDiff arguments => services.runTool (services.tools.apply arguments)
  | .importDump style dump => services.runTool (services.tools.importDump style dump)
  | .terminateTools => ask .terminateTools
  | .startQueue => services.withQueue Queue.Jobs.start
  | .stopQueue => services.withQueue fun _ => Queue.Jobs.stop
  | .push request => services.withQueue fun jobs => jobs.push request
  | .reserve project => services.withLock (Lock.reserve project)
  | .release project => services.withLock (Lock.release project)
  | .isCancelled => ask .isSignalled
  | .wait => ask (.wait services.pause)

/-- Does work with the services. -/
def conduct {α : Type} : Dialogue collaborators α → Serving α
  | .done value => pure value
  | .ask inquiry next => services.answer inquiry >>= fun answer => conduct (next answer)

end Services

end MapReplica
