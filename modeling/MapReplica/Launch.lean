import MapReplica.CommandLine.Commands
import MapReplica.Create
import MapReplica.Entity.Loading
import MapReplica.Environment.File
import MapReplica.Logging.Start
import MapReplica.Services
import MapReplica.Settings.Loading
import MapReplica.Update.Prepare
import MapReplica.Update.Run

/-!
# The program

A run of the program from its command line to its exit status: the command line is
read first, then logging is started, the settings are loaded, and the order is carried
out. A logging that cannot be started is only a warning; every other fault ends the
run with one line and the exit status of the fault.
-/

namespace MapReplica.Launch

open MapReplica.CommandLine

/-- Why a run ended without success. -/
inductive Fault where
  | settings (fault : Settings.Fault)
  | lockAddress (fault : Database.AddressFault)
  | work (failure : Failure)
  deriving DecidableEq, Repr

/-- The wording of a fault. -/
def Fault.message : Fault → String
  | .settings fault => "Failed to load configuration: " ++ fault.failure.message
  | .lockAddress fault => "Invalid lock database url: " ++ fault.message
  | .work failure => failure.message

/-- The exit status of a run that ends with a fault. -/
def Fault.exitStatus : Fault → Nat
  | .settings fault => fault.failure.exitStatus
  | .lockAddress _ => 1
  | .work failure => failure.exitStatus

/-- How a run ends: its exit status and what it says besides the log. -/
structure Report where
  status : Nat
  lines : List String := []
  deriving DecidableEq, Repr

/-- A part of a run. -/
abbrev Run (α : Type) := ExceptT Fault (Dialogue machine) α

namespace Run

/-- Asks for an operation. -/
def ask (operation : Operation) : Run operation.Answer :=
  ExceptT.lift operation.ask.whole

/-- Goes on with a value or fails. -/
def ofExcept {ε α : Type} (fault : ε → Fault) (result : Except ε α) : Run α :=
  ExceptT.mk (pure (result.mapError fault))

/-- Refuses an argument or a setting. -/
def ofChecked {ε α : Type} (message : ε → String) (result : Except ε α) : Run α :=
  ofExcept (fun fault => .work (.configuration (message fault))) result

/-- Does work with services; no lock is held when it begins. -/
def conduct {α : Type} (services : Services) (work : Dialogue collaborators α) : Run α :=
  ExceptT.lift (Prod.fst <$> ((services.conduct work).run []).whole)

/-- Does work with services until a signal comes; the value is missing if one came before the end. -/
def untilSignal {α : Type} (services : Services) (work : Dialogue collaborators α) : Run (Option α) :=
  ExceptT.lift (Option.map Prod.fst <$> ((services.conduct work).run []).untilSignal)

end Run

/-! ## Logging and settings -/

/-- The settings of logging that the command line and the environment give, and a warning if the latter are not usable. -/
def loggingOf (environment : Environment) (isVerbose : Bool) : Logging.Settings × List String :=
  let default : Logging.Settings := {}
  let settings := { default with level := if isVerbose then .debug else default.level }
  match settings.withEnvironment environment with
  | .ok settings => (settings, [])
  | .error fault => (settings, ["Warning: ignoring invalid logging environment: " ++ fault.message])

/-- Starts logging; what goes wrong is told as warnings. -/
def startLogging (environment : Environment) (isVerbose : Bool) : Dialogue machine (List String) := do
  let (settings, warnings) := loggingOf environment isVerbose
  let services : Services := {}
  let (result, _) ← ((services.conduct (settings.start false)).run []).whole
  return match result with
    | .ok () => warnings
    | .error fault => warnings ++ ["Warning: failed to initialize logging: " ++ fault.message]

/-- The name of a file with more entries for the environment. -/
def environmentFile : String := ".env"

/--
The content of the first file with entries for the environment, in the order of the
directories. What cannot be looked for in a directory is not looked for further on.
-/
def nearestFile : List Path → Run (Option Bytes)
  | [] => return none
  | directory :: rest => do
      match ← (Run.ask (.readFile (directory.join environmentFile)) : Run (Except FileFault Bytes)) with
      | .ok content => return some content
      | .error .notFound => nearestFile rest
      | .error .isADirectory => nearestFile rest
      | .error _ => return none

/-- The settings that the environment gives, with the entries of the nearest file from the current directory outwards. -/
def loadSettings (environment : Environment) (current : Path) : Run Settings := do
  let content ← nearestFile current.ancestry.reverse
  Run.ofExcept .settings (Settings.load (content.elim environment environment.withFile))

/-- Checks that servers can be asked with the given settings. -/
def checkServers (settings : ServerSettings) : Run Unit :=
  if settings.userAgent.toList.all Http.isValueChar then return ()
  else throw (.work (.configuration "failed to build HTTP client: builder error"))

/-! ## Updates -/

/-- The settings with the access rule of an order, if it has one. -/
def withAcl (settings : Settings) (acl : Option Store.Acl) : Settings :=
  { settings with store := { settings.store with acl := acl.getD settings.store.acl } }

/-- The queue for the settings of an order that has the queue as a target. -/
def jobsOf (settings : Settings) (queue : Option Queue.Settings) : Run (Option Queue.Jobs) :=
  match queue with
  | none => return none
  | some queue => do
      return some (← Run.ofChecked Queue.JobsFault.message (Queue.Jobs.make settings.queue queue.name))

/-- Checks the address of the database for the lock, if there is one. -/
def checkLock (settings : LockSettings) : Run Unit :=
  match settings.databaseUrl with
  | none => return ()
  | some url => Run.ofExcept .lockAddress (Database.checkAddress url)

/-- What an order to update needs. -/
structure Equipment where
  services : Services
  setup : Update.Setup
  entities : List Entity

/-- Gets everything that an order to update needs; the first fault ends the run. -/
def equip (settings : Settings) (order : AppendOrder) : Run Equipment := do
  let settings := withAcl settings order.acl
  let queueSettings ← Run.ofExcept .work order.queueSettings
  let entities ← Run.ofExcept .work (← Run.conduct { settings } (Entity.load order.entities).run)
  let jobs ← jobsOf settings queueSettings
  checkLock settings.lock
  checkServers settings.servers
  return {
    services := { settings, jobs, pause := order.wait }
    setup := {
      workDirectory := settings.workDirectory
      bucket := settings.store.bucket
      listsTiles := settings.importTool.listsTiles
      hasQueue := jobs.isSome
      queueSettings }
    entities }

/-- Brings a project up to its feed or its limit, until a signal comes; then tools and queue are stopped in any case. -/
def updateOnce (equipment : Equipment) (manager : Update.Manager) (feed : String) : Run Unit := do
  let { services, setup, .. } := equipment
  let outcome ← Run.untilSignal services ((Update.append setup feed).run.run manager)
  let (result, manager) := outcome.getD (.error .terminated, manager)
  let _ ← Run.conduct services ((Update.stop setup).run.run manager)
  Run.ofExcept .work result

/-- Runs rounds until a signal comes or the limit is reached, at most as many as `horizon`. -/
def updateForever (equipment : Equipment) (manager : Update.Manager) (feed : String) (horizon : Nat) :
    Run Unit := do
  let { services, setup, .. } := equipment
  let (result, _) ← Run.conduct services ((Update.forever setup feed horizon).run.run manager)
  let _ ← Run.ofExcept .work result
  let isSignalled : Bool ← Run.ask .isSignalled
  if isSignalled then throw (.work .terminated)

/-- Carries out an order to update. -/
def update (settings : Settings) (order : AppendOrder) (horizon : Nat) : Run Unit := do
  let equipment ← equip settings order
  let { services, setup, entities } := equipment
  let (result, manager) ← Run.conduct services
    ((Update.prepare setup order.project entities order.targets order.limit).run.run .fresh)
  Run.ofExcept .work result
  if order.forever then updateForever equipment manager order.feed horizon
  else updateOnce equipment manager order.feed

/-! ## First imports -/

/-- Carries out an order to import; a signal ends all tools. -/
def create (settings : Settings) (order : CreateOrder) : Run Unit := do
  let existing : Bool ← Run.ask (.pathExists ⟨order.source⟩)
  let source ← Run.ofChecked Dump.SourceFault.message (Dump.Source.make existing order.kind order.source)
  let headers ← Run.ofChecked Http.HeaderFault.message (Http.headersOf order.headers)
  checkServers settings.servers
  let setup : Create.Setup :=
    { workDirectory := settings.workDirectory, bucket := settings.store.bucket, headers }
  match ← Run.untilSignal { settings } (Create.create setup order.project order.script source).run with
  | some result => Run.ofExcept .work result
  | none => do
      let _ ← (Run.ask .terminateTools : Run Unit)
      throw (.work .terminated)

/-! ## Runs -/

/-- Carries out an order. -/
def carryOut (environment : Environment) (current : Path) (order : Order) (horizon : Nat) : Run Unit := do
  let settings ← loadSettings environment current
  match order with
  | .append order => update settings order horizon
  | .create order => create settings order

/--
Runs the program with the words of its command line. Rounds without end are bounded by
`horizon`.
-/
def run (environment : Environment) (current : Path) (words : List String) (horizon : Nat) :
    Dialogue machine Report := do
  match Request.read environment words with
  | .error problem => return { status := problem.exitStatus }
  | .ok request =>
      let warnings ← startLogging environment request.isVerbose
      match ← (carryOut environment current request.order horizon).run with
      | .ok () => return { status := 0, lines := warnings }
      | .error fault =>
          return { status := fault.exitStatus, lines := warnings ++ ["Error: " ++ fault.message] }

end MapReplica.Launch
