import MapReplica.Update.Manager

/-!
# Preparing a manager

Checks what is asked for, begins the work on the project, loads the resources of all
entities and starts the queue.
-/

namespace MapReplica.Update

/-- The settings with which the queue can be a target. -/
def Setup.queueTarget (setup : Setup) : Option Queue.Settings :=
  if setup.hasQueue then setup.queueSettings else none

/-- The resources that an entity needs. -/
def resourcesOf (project : String) (entity : Entity) : List Resource :=
  ⟨entity.scriptKey project, .script⟩ :: entity.areaKey.toList.map fun key => ⟨key, .area⟩

/-- Checks entities and a limit. -/
def checkOrder (entities : List Entity) (limit : Option Nat) : Except Failure Unit :=
  match Entity.check entities with
  | .error fault => .error (.configuration fault.message)
  | .ok () =>
      if limit = some 0 then .error (.configuration "append limit must be at least 1") else .ok ()

/-- Prepares a manager for the entities of a project. -/
def prepare (setup : Setup) (project : String) (entities : List Entity)
    (targets : List Upload.Target) (limit : Option Nat) : Activity Manager Unit := do
  Activity.ofExcept (checkOrder entities limit)
  let dispatcher ← Activity.ofExcept (Upload.Dispatcher.make targets setup.queueTarget)
  onProgress (Progress.prepare setup.workDirectory setup.bucket project limit)
  onResources (Resource.load setup.workDirectory (entities.flatMap (resourcesOf project)))
  modify fun manager => { manager with entities, dispatcher := some dispatcher }
  if setup.hasQueue then
    Task.startQueue
    modify fun manager => { manager with queueStarted := true }

end MapReplica.Update
