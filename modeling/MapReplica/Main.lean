import MapReplica.Launch

/-!
# The command line

Runs the program on this machine: its environment, its files and its clock. The machine
gives no way to a network and starts no other programs, so every question to a server
or a database ends with the fault of a missing connection, and no tool can be started.
-/

namespace MapReplica.LocalMachine

/-- The fault of a refused file operation. -/
def faultOf : IO.Error → FileFault
  | .noFileOrDirectory .. => .notFound
  | .permissionDenied .. => .permissionDenied
  | .alreadyExists .. => .alreadyExists
  | .inappropriateType .. => .isADirectory
  | .invalidArgument .. => .nameTooLong
  | _ => .notADirectory

/-- The outcome of a file operation. -/
def outcome {α : Type} (operation : IO α) : IO (Except FileFault α) := do
  match ← operation.toBaseIO with
  | .ok value => return .ok value
  | .error fault => return .error (faultOf fault)

/-- What is said of a connection when there is no network. -/
def noNetwork : String := "no network"

/-- The answer to a question to a database that cannot be reached. -/
def askDatabase : (query : Database.Query) → query.Answer
  | .acquire => .error (.connection noNetwork)
  | .giveBack _ => ()
  | .execute _ _ => .error (.connection noNetwork)
  | .close => ()

/-- Does an operation to its end. -/
def perform : (operation : Operation) → IO operation.Answer
  | .store _ _ => return .error noNetwork
  | .fetch _ url _ =>
      return .error (if Dump.isWebUrl url then .unreachable noNetwork else .broken "builder error")
  | .onQueueDatabase _ query => return askDatabase query
  | .onLockDatabase _ query => return askDatabase query
  | .createDirectory path => outcome (IO.FS.createDirAll path.text)
  | .writeFile path content => outcome (IO.FS.writeBinFile path.text ⟨content.toArray⟩)
  | .readFile path => do
      return (← outcome (IO.FS.readBinFile path.text)).map ByteArray.toList
  | .removeFile path => outcome (IO.FS.removeFile path.text)
  | .pathExists path => do
      match ← outcome (IO.FS.Handle.mk path.text .read) with
      | .ok _ => return true
      | .error fault => return fault == .permissionDenied
  | .runTool _ _ => return .error .permissionDenied
  | .terminateTools => return ()
  | .isSignalled => return false
  | .wait seconds => IO.sleep (1000 * seconds).toUInt32

/-- Answers a demand; no signal ends an operation. -/
def answer : (demand : Demand) → IO demand.Answer
  | .whole operation => perform operation
  | .orSignal operation => do
      let reply ← perform operation
      return some reply

/-- Runs a dialogue with the machine. -/
def converse {α : Type} : Dialogue machine α → IO α
  | .done value => return value
  | .ask demand next => do
      let reply ← answer demand
      converse (next reply)

/-- The entry of an environment that a text gives. -/
def entryOf (text : List Char) : String × String :=
  let name := text.takeWhile (· != '=')
  (String.ofList name, String.ofList (text.drop (name.length + 1)))

/-- The environment of the program. -/
def environment : IO Environment := do
  match ← outcome (IO.FS.readBinFile "/proc/self/environ") with
  | .error _ => return {}
  | .ok content =>
      let texts := (Utf8.decodeLossy content.toList).splitOn (Char.ofNat 0)
      return ⟨(texts.filter fun text => !text.isEmpty).map entryOf⟩

/-- How many rounds an update without end has at most. -/
def horizon : Nat := Nat.pow 2 64

end MapReplica.LocalMachine

/-- Runs the program. -/
def main (args : List String) : IO UInt32 := do
  let environment ← MapReplica.LocalMachine.environment
  let current ← IO.currentDir
  let report ← MapReplica.LocalMachine.converse
    (MapReplica.Launch.run environment ⟨current.toString⟩ args MapReplica.LocalMachine.horizon)
  for line in report.lines do
    IO.eprintln line
  return report.status.toUInt32
