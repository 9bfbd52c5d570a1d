import MapReplica.Entity.Format
import MapReplica.Progress.Basic
import MapReplica.Upload

/-!
# The manager of a project

What a manager is set up with, what it holds, and where its files lie.
-/

namespace MapReplica.Update

/-- What a manager is set up with. -/
structure Setup where
  workDirectory : Path
  /-- The bucket of the object store. -/
  bucket : String
  /-- Whether the import tool lists expired tiles. -/
  listsTiles : Bool
  /-- Whether there is a queue. -/
  hasQueue : Bool
  queueSettings : Option Queue.Settings
  deriving Repr

/-- What a manager holds. -/
structure Manager where
  progress : Progress := {}
  resources : Resource.Cache := []
  entities : List Entity := []
  dispatcher : Option Upload.Dispatcher := none
  queueStarted : Bool := false

/-- A manager that was not used yet. -/
def Manager.fresh : Manager := {}

/-- Work with the progress of a manager. -/
def onProgress {α : Type} (activity : Activity Progress α) : Activity Manager α :=
  ExceptT.mk do
    let manager ← get
    let (result, progress) ← (activity.run.run manager.progress : Dialogue collaborators _)
    set { manager with progress }
    return result

/-- Work with the resources of a manager. -/
def onResources {α : Type} (activity : Activity Resource.Cache α) : Activity Manager α :=
  ExceptT.mk do
    let manager ← get
    let (result, resources) ← (activity.run.run manager.resources : Dialogue collaborators _)
    set { manager with resources }
    return result

/-! ## Files -/

/-- Where the diff of a sequence number is put. -/
def diffPath (workDirectory : Path) (sequence : Nat) : Path :=
  workDirectory.join (Number.numeral sequence ++ "." ++ Diff.extension)

/-- Where the merged diff of a sequence number is put. -/
def mergedPath (workDirectory : Path) (sequence : Nat) : Path :=
  workDirectory.join (Number.numeral sequence ++ ".simplified." ++ Diff.extension)

/-- The name of the list of expired tiles of an entity. -/
def listNameOf (entity : String) (sequence : Nat) : String :=
  entity ++ "." ++ Number.numeral sequence ++ "." ++ Upload.listName

/-- Where the expired tiles of an entity are listed. -/
def listPath (workDirectory : Path) (project entity : String) (sequence : Nat) : Path :=
  (Progress.directoryOf workDirectory project).join (listNameOf entity sequence)

/-- The files of a cycle. -/
def artifacts (workDirectory : Path) (project : String) (entities : List Entity) (sequence : Nat) :
    List Path :=
  diffPath workDirectory sequence :: mergedPath workDirectory sequence ::
    entities.map fun entity => listPath workDirectory project entity.id sequence

end MapReplica.Update
