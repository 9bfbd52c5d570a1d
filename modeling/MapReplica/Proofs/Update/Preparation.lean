import MapReplica.Proofs.Resource.Loading
import MapReplica.Update.Prepare

/-!
# Prepared managers

A preparation that ends well leaves a manager of the project and the entities that were
asked for, with a dispatcher for the targets. One that a check refuses leaves the manager
as it was; one that fails later leaves a manager that is at work on the project.
-/

namespace MapReplica.Update

open Dialogue

/-- A manager that was prepared for entities of a project, with targets. -/
structure Prepared (setup : Setup) (project : String) (entities : List Entity)
    (targets : List Upload.Target) (manager : Manager) : Prop where
  checked : Entity.check entities = .ok ()
  project : manager.progress.project = project
  entities : manager.entities = entities
  dispatcher : ∃ dispatcher, manager.dispatcher = some dispatcher ∧
    Upload.Dispatcher.make targets setup.queueTarget = .ok dispatcher

/-- Prepares a manager, with any way to load the resources. -/
def prepareBy (load : Activity Resource.Cache Unit) (setup : Setup) (project : String)
    (entities : List Entity) (targets : List Upload.Target) (limit : Option Nat) :
    Activity Manager Unit := do
  Activity.ofExcept (checkOrder entities limit)
  let dispatcher ← Activity.ofExcept (Upload.Dispatcher.make targets setup.queueTarget)
  onProgress (Progress.prepare setup.workDirectory setup.bucket project limit)
  onResources load
  modify fun manager => { manager with entities, dispatcher := some dispatcher }
  if setup.hasQueue then
    Task.startQueue
    modify fun manager => { manager with queueStarted := true }

variable {load : Activity Resource.Cache Unit} {setup : Setup} {project : String}
variable {entities : List Entity} {targets : List Upload.Target} {limit : Option Nat}
variable {before manager : Manager} {exchanges : List (Exchange collaborators)}

theorem prepareBy_load :
    prepareBy (Resource.load setup.workDirectory (entities.flatMap (resourcesOf project))) setup
      project entities targets limit = prepare setup project entities targets limit := rfl

theorem begun_of_prepare {workDirectory : Path} {bucket : String} {start progress : Progress}
    (ends : Ends ((Progress.prepare workDirectory bucket project limit).starting start) exchanges
      (.ok (), progress)) :
    progress = start.begun project limit := by
  obtain ⟨_, _, begun, _, _, hbegin, ends⟩ := Activity.ends_bind_ok_iff.mp ends
  obtain ⟨_, _, made, _, _, hmake, ends⟩ := Activity.ends_bind_ok_iff.mp ends
  obtain ⟨_, found, looked, _, _, hlook, ends⟩ := Activity.ends_bind_ok_iff.mp ends
  obtain ⟨_, same⟩ := ends_done_iff.mp hbegin
  obtain ⟨rfl, _⟩ := Activity.ends_task_ok_iff.mp hmake
  obtain ⟨rfl, _⟩ := Activity.ends_task_ok_iff.mp hlook
  cases same
  cases found with
  | true =>
      obtain ⟨_, same⟩ := ends_done_iff.mp ends
      cases same
      rfl
  | false =>
      obtain ⟨_, impossible⟩ := ends_done_iff.mp ends
      cases impossible

theorem check_of_checkOrder (checked : checkOrder entities limit = .ok ()) :
    Entity.check entities = .ok () := by
  unfold checkOrder at checked
  cases outcome : Entity.check entities with
  | error fault =>
      rw [outcome] at checked
      cases checked
  | ok _ => rfl

/-- A preparation that ends well passed its checks, began the progress and loaded all resources. -/
theorem of_ends_prepareBy
    (ends : Ends ((prepareBy load setup project entities targets limit).starting before) exchanges
      (.ok (), manager)) :
    ∃ dispatcher part, checkOrder entities limit = .ok () ∧
      Upload.Dispatcher.make targets setup.queueTarget = .ok dispatcher ∧
      Ends (load.starting before.resources) part (.ok (), manager.resources) ∧
      manager.progress = before.progress.begun project limit ∧ manager.entities = entities ∧
      manager.dispatcher = some dispatcher := by
  obtain ⟨_, _, ordering, _, _, hcheck, ends⟩ := Activity.ends_bind_ok_iff.mp ends
  obtain ⟨_, dispatcher, serving, _, _, htargets, ends⟩ := Activity.ends_bind_ok_iff.mp ends
  obtain ⟨_, _, begun, _, _, hbegin, ends⟩ := Activity.ends_bind_ok_iff.mp ends
  obtain ⟨part, _, loaded, _, _, hload, ends⟩ := Activity.ends_bind_ok_iff.mp ends
  obtain ⟨_, _, filled, _, _, hfill, ends⟩ := Activity.ends_bind_ok_iff.mp ends
  obtain ⟨_, ordered⟩ := ends_done_iff.mp hcheck
  obtain ⟨_, made⟩ := ends_done_iff.mp htargets
  obtain ⟨_, filledAs⟩ := ends_done_iff.mp hfill
  cases filledAs
  obtain rfl : ordering = before := congrArg Prod.snd ordered
  obtain rfl : serving = ordering := congrArg Prod.snd made
  rw [Activity.starting_onProgress, ends_make_iff] at hbegin
  rw [Activity.starting_onResources, ends_make_iff] at hload
  obtain ⟨⟨_, progress⟩, hprogress, same⟩ := hbegin
  cases same
  obtain ⟨⟨_, resources⟩, hresources, same⟩ := hload
  cases same
  cases begun_of_prepare hprogress
  have checked := (congrArg Prod.fst ordered).symm
  have served := (congrArg Prod.fst made).symm
  split at ends
  case isTrue =>
    obtain ⟨_, _, started, _, _, hstart, ends⟩ := Activity.ends_bind_ok_iff.mp ends
    obtain ⟨rfl, _⟩ := Activity.ends_task_ok_iff.mp hstart
    obtain ⟨_, same⟩ := ends_done_iff.mp ends
    cases same
    exact ⟨dispatcher, part, checked, served, hresources, rfl, rfl, rfl⟩
  case isFalse =>
    obtain ⟨_, same⟩ := ends_done_iff.mp ends
    cases same
    exact ⟨dispatcher, part, checked, served, hresources, rfl, rfl, rfl⟩

theorem of_ends_prepare
    (ends : Ends ((prepare setup project entities targets limit).starting before) exchanges
      (.ok (), manager)) :
    ∃ dispatcher part, checkOrder entities limit = .ok () ∧
      Upload.Dispatcher.make targets setup.queueTarget = .ok dispatcher ∧
      Ends ((Resource.load setup.workDirectory (entities.flatMap (resourcesOf project))).starting
        before.resources) part (.ok (), manager.resources) ∧
      manager.progress = before.progress.begun project limit ∧ manager.entities = entities ∧
      manager.dispatcher = some dispatcher :=
  of_ends_prepareBy ends

/-- A preparation that ends well prepares the manager and begins its progress. -/
theorem prepared_of_ends_by
    (ends : Ends ((prepareBy load setup project entities targets limit).starting before) exchanges
      (.ok (), manager)) :
    Prepared setup project entities targets manager ∧
      manager.progress = before.progress.begun project limit := by
  obtain ⟨dispatcher, _, checked, served, _, progress, own, dispatched⟩ := of_ends_prepareBy ends
  refine ⟨⟨check_of_checkOrder checked, ?_, own, dispatcher, dispatched, served⟩, progress⟩
  rw [progress]
  rfl

theorem prepared_of_ends
    (ends : Ends ((prepare setup project entities targets limit).starting before) exchanges
      (.ok (), manager)) :
    Prepared setup project entities targets manager ∧
      manager.progress = before.progress.begun project limit :=
  prepared_of_ends_by ends

/-! ## What is asked -/

/-- The inquiries of a preparation. -/
inductive OfPreparation (setup : Setup) (project : String) (entities : List Entity) :
    Inquiry → Prop where
  | bucket : OfPreparation setup project entities .bucketExists
  | directory (path : Path) : OfPreparation setup project entities (.createDirectory path)
  | load {inquiry : Inquiry}
      (asked : Resource.OfLoading setup.workDirectory (entities.flatMap (resourcesOf project))
        inquiry) :
      OfPreparation setup project entities inquiry
  | startQueue : OfPreparation setup project entities .startQueue

/-- The work on a project begins with making its directory and looking for the bucket. -/
theorem asks_prepare_progress {permitted : Inquiry → Prop} {workDirectory : Path} {bucket : String}
    {start : Progress}
    (directory : permitted (.createDirectory (Progress.directoryOf workDirectory project)))
    (look : permitted .bucketExists) :
    ((Progress.prepare workDirectory bucket project limit).starting start).Asks permitted := by
  refine Activity.asks_bind trivial fun _ _ => ?_
  refine Activity.asks_bind (Activity.asks_task ⟨directory, fun _ => trivial⟩) fun _ _ => ?_
  refine Activity.asks_bind (Activity.asks_task ⟨look, fun _ => trivial⟩) fun found _ => ?_
  cases found with
  | true => trivial
  | false => trivial

/-- A preparation makes the directory of its project, looks for the bucket, loads and starts. -/
theorem asks_prepareBy_of {permitted : Inquiry → Prop}
    (directory : permitted (.createDirectory (Progress.directoryOf setup.workDirectory project)))
    (bucket : permitted .bucketExists)
    (loads : ∀ cache, (load.starting cache).Asks permitted) (startQueue : permitted .startQueue) :
    ((prepareBy load setup project entities targets limit).starting before).Asks permitted := by
  refine Activity.asks_bind trivial fun _ checked => ?_
  refine Activity.asks_bind trivial fun dispatcher served => ?_
  refine Activity.asks_bind ?_ fun _ begun => Activity.asks_bind ?_ fun _ loaded => ?_
  · rw [Activity.starting_onProgress]
    exact Asks.bind (asks_prepare_progress directory bucket) fun _ => trivial
  · rw [Activity.starting_onResources]
    exact Asks.bind (loads _) fun _ => trivial
  · refine Activity.asks_bind trivial fun _ filled => ?_
    split
    case isTrue =>
      refine Activity.asks_bind (Activity.asks_task ⟨startQueue, fun _ => trivial⟩) ?_
      exact fun _ _ => trivial
    case isFalse => trivial

theorem asks_prepare_of {permitted : Inquiry → Prop}
    (directory : permitted (.createDirectory (Progress.directoryOf setup.workDirectory project)))
    (bucket : permitted .bucketExists)
    (load : ∀ cache, ((Resource.load setup.workDirectory
      (entities.flatMap (resourcesOf project))).starting cache).Asks permitted)
    (startQueue : permitted .startQueue) :
    ((prepare setup project entities targets limit).starting before).Asks permitted :=
  asks_prepareBy_of directory bucket load startQueue

theorem asks_prepare :
    ((prepare setup project entities targets limit).starting before).Asks
      (OfPreparation setup project entities) :=
  asks_prepare_of (.directory _) .bucket (fun _ => Resource.asks_load.mono fun _ => .load)
    .startQueue

/-! ## Preparations that fail -/

/-- The checks that a preparation makes before it asks anything. -/
def checkAll (setup : Setup) (entities : List Entity) (targets : List Upload.Target)
    (limit : Option Nat) : Except Failure Upload.Dispatcher := do
  checkOrder entities limit
  Upload.Dispatcher.make targets setup.queueTarget

/-- What a preparation does after its checks. -/
def prepareChecked (setup : Setup) (project : String) (entities : List Entity)
    (limit : Option Nat) (dispatcher : Upload.Dispatcher) : Activity Manager Unit := do
  onProgress (Progress.prepare setup.workDirectory setup.bucket project limit)
  onResources (Resource.load setup.workDirectory (entities.flatMap (resourcesOf project)))
  modify fun manager => { manager with entities, dispatcher := some dispatcher }
  if setup.hasQueue then
    Task.startQueue
    modify fun manager => { manager with queueStarted := true }

theorem starting_prepare :
    (prepare setup project entities targets limit).starting before =
      match checkAll setup entities targets limit with
      | .error failure => .done (.error failure, before)
      | .ok dispatcher =>
          (prepareChecked setup project entities limit dispatcher).starting before := by
  unfold prepare checkAll
  rw [Activity.starting_bind, Activity.starting_ofExcept]
  cases checkOrder entities limit with
  | error failure => rfl
  | ok _ =>
      simp only [done_bind]
      rw [Activity.starting_bind, Activity.starting_ofExcept]
      cases Upload.Dispatcher.make targets setup.queueTarget with
      | error failure => rfl
      | ok dispatcher => rfl

section Begins

variable {σ : Type} {world : Surroundings collaborators σ} {state : σ} {start : Progress}
variable {dispatcher : Upload.Dispatcher}

theorem keeps_begun_progress {workDirectory : Path} {bucket : String} :
    ((Progress.prepare workDirectory bucket project limit).starting start).Keeps world
      (fun _ _ => True) (fun result _ => result.2 = start.begun project limit) state := by
  refine ⟨trivial, fun made _ _ => ?_⟩
  rcases made with fault | ⟨⟩
  · rfl
  refine ⟨trivial, fun found _ _ => ?_⟩
  rcases found with failure | ⟨⟨⟩⟩
  · rfl
  · rfl
  · rfl

/-- Once the checks are passed, the work on the project has begun, whatever fails after that. -/
theorem keeps_begun :
    ((prepareChecked setup project entities limit dispatcher).starting before).Keeps world
      (fun _ _ => True)
      (fun result _ => result.2.progress = before.progress.begun project limit) state := by
  have begins : ((onProgress (Progress.prepare setup.workDirectory setup.bucket project
      limit)).starting before).Keeps world (fun _ _ => True)
      (fun result _ => result.2.progress = before.progress.begun project limit) state := by
    rw [Activity.starting_onProgress]
    apply keeps_begun_progress.bind
    intro result now begun
    exact begun
  apply Activity.keeps_bind begins
  · intro _ manager now begun
    have loads : ((onResources (Resource.load setup.workDirectory
        (entities.flatMap (resourcesOf project)))).starting manager).Keeps world (fun _ _ => True)
        (fun result _ => result.2.progress = before.progress.begun project limit) now := by
      rw [Activity.starting_onResources]
      have any : ((Resource.load setup.workDirectory (entities.flatMap
          (resourcesOf project))).starting manager.resources).Keeps world (fun _ _ => True)
          (fun _ _ => True) now := keeps_of_ends fun _ _ _ => trivial
      apply any.bind
      intro result last _
      exact begun
    apply Activity.keeps_bind loads
    · intro _ loaded last begun
      split
      case isTrue =>
        refine ⟨trivial, fun answer final _ => ?_⟩
        rcases answer with failure | ⟨⟩
        · exact begun
        · exact begun
      case isFalse => exact begun
    · intro failure after last begun
      exact begun
  · intro failure after now begun
    exact begun

/--
A preparation that a check refuses changes nothing; any other has begun the work on its
project when it ends, also with a failure.
-/
theorem keeps_prepare_progress :
    ((prepare setup project entities targets limit).starting before).Keeps world
      (fun _ _ => True)
      (fun result _ => match checkAll setup entities targets limit with
        | .error failure => result = (.error failure, before)
        | .ok _ => result.2.progress = before.progress.begun project limit) state := by
  rw [starting_prepare]
  cases checkAll setup entities targets limit with
  | error failure => rfl
  | ok dispatcher => exact keeps_begun

end Begins

end MapReplica.Update
