import MapReplica.Dialogue
import MapReplica.Failure
import MapReplica.Http
import MapReplica.Queue.Request
import MapReplica.Tool.Arguments

/-!
# Collaborators

What the work asks of the object store, servers, files, tools, the queue and the
lock. `Task` is work without a state of its own, `Activity` is work with one; a
failure ends both, and an activity keeps the state that it had when it failed.
-/

namespace MapReplica

/-- A question to a collaborator. -/
inductive Inquiry where
  /-- Whether the bucket of the object store exists. -/
  | bucketExists
  | getObject (key : String)
  | putObject (key : String) (body : Bytes)
  | fetch (url : String) (headers : List Http.Header)
  /-- Makes a directory and those that it lies in. -/
  | createDirectory (path : Path)
  | writeFile (path : Path) (content : Bytes)
  | readFile (path : Path)
  | removeFile (path : Path)
  /-- Merges the changes in a file and simplifies them. -/
  | merge (input output : Path)
  | applyDiff (arguments : ApplyArguments)
  | importDump (style dump : Path)
  /-- Ends all tools that still run. -/
  | terminateTools
  | startQueue
  | stopQueue
  | push (request : Queue.Request)
  | reserve (project : String)
  | release (project : String)
  /-- Whether the work was asked to end. -/
  | isCancelled
  /-- Waits for the next round; a wish to end the work ends the waiting. -/
  | wait

/-- The kind of answer to a question. -/
def Inquiry.Answer : Inquiry → Type
  | .bucketExists => Except Failure Bool
  | .getObject _ => Except Failure Bytes
  | .putObject _ _ => Except Failure Unit
  | .fetch _ _ => Except Http.Fault Http.Response
  | .createDirectory _ => Except FileFault Unit
  | .writeFile _ _ => Except FileFault Unit
  | .readFile _ => Except FileFault Bytes
  | .removeFile _ => Except FileFault Unit
  | .merge _ _ => Except Failure Unit
  | .applyDiff _ => Except Failure Unit
  | .importDump _ _ => Except Failure Unit
  | .terminateTools => Unit
  | .startQueue => Except Failure Unit
  | .stopQueue => Except Failure Unit
  | .push _ => Except Failure Unit
  | .reserve _ => Except Failure Unit
  | .release _ => Except Failure Unit
  | .isCancelled => Bool
  | .wait => Unit

/-- The protocol of the collaborators. -/
def collaborators : Protocol := ⟨Inquiry, Inquiry.Answer⟩

/-- Work that may fail. -/
abbrev Task (α : Type) := ExceptT Failure (Dialogue collaborators) α

/-- Work that may fail and has a state; a failure keeps the state. -/
abbrev Activity (σ α : Type) := ExceptT Failure (StateT σ (Dialogue collaborators)) α

namespace Task

/-- Asks a question that fails as work does. -/
def ask (inquiry : Inquiry) : Dialogue collaborators inquiry.Answer :=
  @Dialogue.question collaborators inquiry

/-- The answer to a question whose answer is a failure or a value. -/
def of {α : Type} (dialogue : Dialogue collaborators (Except Failure α)) : Task α :=
  ExceptT.mk dialogue

/-- A question about a file, whose refusal is a failure. -/
def ofFile {α : Type} (dialogue : Dialogue collaborators (Except FileFault α)) : Task α :=
  ExceptT.mk ((fun result => result.mapError FileFault.failure) <$> dialogue)

/-- Whether the bucket of the object store exists. -/
def bucketExists : Task Bool := of (ask .bucketExists)

/-- The content of an object. -/
def getObject (key : String) : Task Bytes := of (ask (.getObject key))

/-- Writes an object. -/
def putObject (key : String) (body : Bytes) : Task Unit := of (ask (.putObject key body))

/-- Asks a server; a fault is an outcome, not a failure. -/
def fetch (url : String) (headers : List Http.Header) : Task (Except Http.Fault Http.Response) :=
  ExceptT.lift (ask (.fetch url headers))

/-- Makes a directory and those that it lies in. -/
def createDirectory (path : Path) : Task Unit := ofFile (ask (.createDirectory path))

/-- Writes a file. -/
def writeFile (path : Path) (content : Bytes) : Task Unit := ofFile (ask (.writeFile path content))

/-- Reads a file; a refusal is an outcome, not a failure. -/
def readFile (path : Path) : Task (Except FileFault Bytes) := ExceptT.lift (ask (.readFile path))

/-- Removes a file if that is possible. -/
def removeFile (path : Path) : Task Unit := do
  let _ ← (ExceptT.lift (ask (.removeFile path)) : Task (Except FileFault Unit))
  return ()

/-- Merges the changes in a file and simplifies them. -/
def merge (input output : Path) : Task Unit := of (ask (.merge input output))

/-- Applies a diff. -/
def applyDiff (arguments : ApplyArguments) : Task Unit := of (ask (.applyDiff arguments))

/-- Imports a dump. -/
def importDump (style dump : Path) : Task Unit := of (ask (.importDump style dump))

/-- Ends all tools that still run. -/
def terminateTools : Task Unit := ExceptT.lift (ask .terminateTools)

/-- Starts the queue. -/
def startQueue : Task Unit := of (ask .startQueue)

/-- Stops the queue. -/
def stopQueue : Task Unit := of (ask .stopQueue)

/-- Puts a request into the queue. -/
def push (request : Queue.Request) : Task Unit := of (ask (.push request))

/-- Takes the lock of a project. -/
def reserve (project : String) : Task Unit := of (ask (.reserve project))

/-- Gives the lock of a project back. -/
def release (project : String) : Task Unit := of (ask (.release project))

/-- Whether the work was asked to end. -/
def isCancelled : Task Bool := ExceptT.lift (ask .isCancelled)

/-- Waits for the next round. -/
def wait : Task Unit := ExceptT.lift (ask .wait)

/-- The outcome of work, whatever that is. -/
def outcome {α : Type} (task : Task α) : Task (Except Failure α) := ExceptT.lift task.run

/-- Goes on with a value or fails. -/
def ofExcept {α : Type} (result : Except Failure α) : Task α := ExceptT.mk (pure result)

/-- Does work as a part of an activity. -/
def lift {σ α : Type} (task : Task α) : Activity σ α :=
  ExceptT.mk (StateT.lift task.run)

/-- Does work and ends with its outcome, whatever that is. -/
def attempt {σ α : Type} (task : Task α) : Activity σ (Except Failure α) :=
  ExceptT.lift (StateT.lift task.run)

instance {σ : Type} : MonadLift Task (Activity σ) := ⟨lift⟩

end Task

namespace Activity

variable {σ α : Type}

/-- Does an activity and ends with its outcome, whatever that is. -/
def attempt (activity : Activity σ α) : Activity σ (Except Failure α) :=
  ExceptT.lift activity.run

/-- Asks a question that never fails. -/
def ask (inquiry : Inquiry) : Activity σ inquiry.Answer :=
  ExceptT.lift (StateT.lift (Task.ask inquiry))

/-- Goes on with a value or fails. -/
def ofExcept (result : Except Failure α) : Activity σ α :=
  ExceptT.mk (pure result)

end Activity

/-- Does work on every item of a list, in order; the first failure ends it. -/
def Task.forEach {α : Type} (items : List α) (work : α → Task Unit) : Task Unit :=
  match items with
  | [] => pure ()
  | item :: rest => do
      work item
      Task.forEach rest work

end MapReplica
