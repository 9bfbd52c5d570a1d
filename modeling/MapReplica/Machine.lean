import MapReplica.Database.Basic
import MapReplica.Http
import MapReplica.Settings.Basic
import MapReplica.Store.Remote
import MapReplica.Tool.Ending

/-!
# The machine

What the program asks of the machine that it runs on. An operation tells everything
that is needed to do it. An operation that a signal may end early is asked with
`orSignal`: its answer is missing if the signal came first, and what an interrupted
operation did up to then is left open.
-/

namespace MapReplica

/-- An operation of the machine. -/
inductive Operation where
  /-- A request to the object store. -/
  | store (settings : StoreSettings) (request : Store.Request)
  /-- A request to another server. -/
  | fetch (settings : ServerSettings) (url : String) (headers : List Http.Header)
  | onQueueDatabase (settings : QueueDatabase) (query : Database.Query)
  | onLockDatabase (settings : LockSettings) (query : Database.Query)
  /-- Makes a directory and those that it lies in. -/
  | createDirectory (path : Path)
  | writeFile (path : Path) (content : Bytes)
  | readFile (path : Path)
  | removeFile (path : Path)
  | pathExists (path : Path)
  /-- Runs a program to its end. -/
  | runTool (path : Path) (call : Tool.Call)
  /-- Kills all programs that still run. -/
  | terminateTools
  /-- Whether a signal has come. -/
  | isSignalled
  /-- Waits for some seconds, or until a signal comes. -/
  | wait (seconds : Nat)

/-- The kind of answer to an operation. -/
def Operation.Answer : Operation → Type
  | .store _ _ => Store.Bucket.Reply
  | .fetch _ _ _ => Except Http.Fault Http.Response
  | .onQueueDatabase _ query => query.Answer
  | .onLockDatabase _ query => query.Answer
  | .createDirectory _ => Except FileFault Unit
  | .writeFile _ _ => Except FileFault Unit
  | .readFile _ => Except FileFault Bytes
  | .removeFile _ => Except FileFault Unit
  | .pathExists _ => Bool
  | .runTool _ _ => Except FileFault Tool.Ending
  | .terminateTools => Unit
  | .isSignalled => Bool
  | .wait _ => Unit

/-- The protocol of operations that are always done to their end. -/
def operations : Protocol := ⟨Operation, Operation.Answer⟩

/-- An operation with the way in which it is done. -/
inductive Demand where
  /-- The operation is done to its end. -/
  | whole (operation : Operation)
  /-- A signal may end the operation early. -/
  | orSignal (operation : Operation)

/-- The kind of answer to a demand. -/
def Demand.Answer : Demand → Type
  | .whole operation => operation.Answer
  | .orSignal operation => Option operation.Answer

/-- The protocol of the machine. -/
def machine : Protocol := ⟨Demand, Demand.Answer⟩

namespace Operation

/-- Asks for an operation. -/
def ask (operation : Operation) : Dialogue operations operation.Answer :=
  @Dialogue.question operations operation

end Operation

namespace Dialogue

variable {α : Type}

/-- Does every operation to its end. -/
def whole (work : Dialogue operations α) : Dialogue machine α :=
  work.interpret fun operation => @Dialogue.question machine (.whole operation)

/-- Does the operations until a signal comes; the value is missing if one came before the end. -/
def untilSignal : Dialogue operations α → Dialogue machine (Option α)
  | .done value => .done (some value)
  | .ask operation next =>
      .ask (Demand.orSignal operation) fun
        | none => .done none
        | some answer => (next answer).untilSignal

end Dialogue

end MapReplica
