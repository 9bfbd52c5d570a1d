import MapReplica.Update.Manager

/-!
# One cycle

A cycle downloads the diff of the next number, merges it, applies it to every entity
and uploads the expired tiles. Only a cycle without any failure is committed. Its
files are removed in either case.

The entities do not depend on each other and may all be served at the same time. Here they
are served one after the other up to the first failure, which is one way to interleave
them; in `cycleBy` they are interleaved in any way, so that an entity may be served although
an earlier one has failed.
-/

namespace MapReplica.Update

variable (setup : Setup) (manager : Manager)

/-- The arguments with which a diff is applied to an entity. -/
def argumentsFor (sequence : Nat) (diff : Path) (entity : Entity) (style : Path) : ApplyArguments :=
  { style
    zooms := entity.zoomLevels.map ZoomLevels.range
    list :=
      if setup.listsTiles then
        some (listPath setup.workDirectory manager.progress.project entity.id sequence)
      else none
    diff }

/-- Applies a diff to an entity. -/
def applyTo (sequence : Nat) (diff : Path) (entity : Entity) : Task Unit := do
  let style ←
    Task.ofExcept (manager.resources.scriptPath (entity.scriptKey manager.progress.project))
  Task.applyDiff (argumentsFor setup manager sequence diff entity style)

/-- The upload of the expired tiles of an entity. -/
def listingOf (sequence : Nat) (entity : Entity) : Except Failure Upload.Listing := do
  let area ←
    match entity.areaKey with
    | none => pure none
    | some key => (manager.resources.area key).map some
  return {
    project := manager.progress.project
    entity := entity.id
    sequence
    list := listPath setup.workDirectory manager.progress.project entity.id sequence
    area }

/-- Uploads the expired tiles of all entities. -/
def uploadAll (sequence : Nat) : Task Unit :=
  match manager.dispatcher with
  | none => return ()
  | some dispatcher =>
      if dispatcher.targets.isEmpty then return ()
      else do
        let listings ← Task.ofExcept (manager.entities.mapM (listingOf setup manager sequence))
        Task.forEach listings dispatcher.dispatch

/-- The work of a cycle, from the download to the uploads. -/
def cycle (feed : String) (sequence : Nat) : Task Unit := do
  let diff := diffPath setup.workDirectory sequence
  let merged := mergedPath setup.workDirectory sequence
  Feed.downloadDiff feed sequence diff
  Task.merge diff merged
  Task.forEach manager.entities (applyTo setup manager sequence merged)
  if setup.listsTiles then uploadAll setup manager sequence

/-- Removes the files of a cycle as far as they exist. -/
def removeArtifacts (sequence : Nat) : Task Unit :=
  Task.forEach
    (artifacts setup.workDirectory manager.progress.project manager.entities sequence)
    Task.removeFile

/-- Runs the cycle of the next number and commits it. -/
def appendNext (feed : String) : Activity Manager Unit := do
  let manager ← get
  let sequence := manager.progress.next
  let result ← Task.attempt (cycle setup manager feed sequence)
  if result.toOption.isNone then Task.terminateTools
  removeArtifacts setup manager sequence
  Activity.ofExcept result
  onProgress Progress.commit
  modify fun manager => { manager with progress := manager.progress.countDown }

end MapReplica.Update
