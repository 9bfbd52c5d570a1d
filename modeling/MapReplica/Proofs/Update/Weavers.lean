import MapReplica.Proofs.Resource.AllOrNothing
import MapReplica.Proofs.Update.Occasions
import MapReplica.Proofs.Update.Preparation

/-!
# Work at the same time

The resources of a preparation are fetched at the same time, and so is a diff applied to
all entities, and so are their lists uploaded. A weaver says how such work is interleaved,
with a failure of one part that ends the others at any moment. With the weaver that does
one part after the other, everything is as `Update` defines it.
-/

namespace MapReplica.Update

open Dialogue

/-- A way to do tasks at the same time. -/
structure Weaver where
  join : {α : Type} → List (Task α) → Task (List α)
  woven : ∀ {α : Type} (tasks : List (Task α)),
    Woven (tasks.map fun task => task.run) (join tasks).run

namespace Weaver

variable {α β : Type}

/-- One task after the other. -/
def inOrder : Weaver where
  join tasks := ExceptT.mk (Dialogue.inOrder (tasks.map fun task => task.run))
  woven _ := woven_inOrder _

/-- One task after the other, all of them to their ends, and then the first failure. -/
def toTheEnd : Weaver where
  join tasks := ExceptT.mk (Dialogue.toTheEnd (tasks.map fun task => task.run))
  woven _ := woven_toTheEnd _

theorem join_inOrder_cons {task : Task α} {rest : List (Task α)} :
    inOrder.join (task :: rest) = do
      let value ← task
      let others ← inOrder.join rest
      return value :: others := by
  refine congrArg (fun next => task.run >>= next) (funext fun outcome => ?_)
  cases outcome with
  | error failure => rfl
  | ok value =>
      refine congrArg (fun next => (inOrder.join rest).run >>= next) (funext fun others => ?_)
      cases others with
      | error failure => rfl
      | ok values => rfl

/-- Every way to weave tasks is that of a weaver. -/
theorem exists_of_woven {tasks : List (Task α)} {whole : Dialogue collaborators _}
    (woven : Woven (tasks.map fun task => task.run) whole) :
    ∃ weaver : Weaver, (weaver.join tasks).run = whole := by
  obtain ⟨ways, same, each⟩ := exists_choice_of_point
    (fun (work : (γ : Type) × List (Task γ)) (way : Task (List work.1)) =>
      Woven (work.2.map fun task => task.run) way.run)
    ⟨α, tasks⟩ (ExceptT.mk whole) woven fun work => ⟨_, inOrder.woven work.2⟩
  exact ⟨⟨fun {γ} others => ways ⟨γ, others⟩, fun others => each ⟨_, others⟩⟩,
    congrArg ExceptT.run same⟩

/-- Work on all items of a list at the same time. -/
def each (weaver : Weaver) (items : List α) (work : α → Task Unit) : Task Unit := do
  let _ ← weaver.join (items.map work)
  return ()

theorem each_inOrder {items : List α} {work : α → Task Unit} :
    inOrder.each items work = Task.forEach items work := by
  induction items with
  | nil => rfl
  | cons item rest ih =>
      rw [Task.forEach, ← ih]
      simp only [each, List.map_cons, join_inOrder_cons, LawfulMonad.bind_assoc, pure_bind]

theorem each_inOrder_append {items others : List α} {work : α → Task Unit} :
    inOrder.each (items ++ others) work =
      inOrder.each items work >>= fun _ => inOrder.each others work := by
  simp only [each_inOrder]
  induction items with
  | nil => rfl
  | cons item rest ih => simp only [List.cons_append, Task.forEach, ih, LawfulMonad.bind_assoc]

theorem run_each {weaver : Weaver} {items : List α} {work : α → Task Unit} :
    (weaver.each items work).run =
      (weaver.join (items.map work)).run >>= fun outcome => .done (outcome.map fun _ => ()) :=
  Task.run_bind_pure

/-- Work on one item after the other, in any order, is work on all of them at the same time. -/
theorem exists_each_of_perm {items others : List α} (perm : items.Perm others)
    (work : α → Task Unit) : ∃ weaver : Weaver, weaver.each items work = inOrder.each others work := by
  have threads : ((others.map work).map fun task => task.run).Perm
      ((items.map work).map fun task => task.run) := (perm.symm.map work).map _
  obtain ⟨whole, woven, same⟩ := (inOrder.woven (others.map work)).exists_of_perm threads
  obtain ⟨weaver, made⟩ := exists_of_woven woven
  refine ⟨weaver, ExceptT.ext ?_⟩
  rw [run_each, run_each, made]
  exact same

/--
Work on items by members that keep to a rule while the others go on: it ends well only if
each of them does, and with a failure of one of them otherwise.
-/
theorem keeps_each {ι σ : Type} {world : Surroundings collaborators σ}
    {allows : σ → Inquiry → Prop} {members : List ι} {items : List α} {work : α → Task Unit}
    {wanted : ι → Except Failure Unit → σ → Prop} {state : σ} (weaver : Weaver)
    (neighbours : Neighbours world ι) (distinct : members.Nodup)
    (keeps : List.Forall₂ (fun member item =>
      neighbours.Keeps allows member (wanted member) (work item).run state) members items)
    (start : neighbours.holds state) :
    (weaver.each items work).run.Keeps world allows
      (fun outcome after => neighbours.holds after ∧
        (outcome = .ok () → ∀ member ∈ members, wanted member (.ok ()) after) ∧
        ∀ failure, outcome = .error failure → ∃ member ∈ members,
          wanted member (.error failure) after) state := by
  have woven := weaver.woven (items.map work)
  rw [List.map_map] at woven
  refine Task.keeps_bind (neighbours.keeps_of_woven woven distinct
    (List.forall₂_map_right_iff.mpr keeps) start) ?_ ?_
  · rintro values after ⟨held, together⟩
    cases together with
    | ended each =>
        refine ⟨held, fun _ member among => ?_, nofun⟩
        obtain ⟨_, _, reached⟩ := exists_of_forall₂ each among
        exact reached
  · rintro failure after ⟨held, together⟩
    cases together with
    | failed among own => exact ⟨held, nofun, fun _ same => ⟨_, among, Except.error.inj same ▸ own⟩⟩

end Weaver

section Weaver

variable (weaver : Weaver) (setup : Setup)

/-! ## Cycles -/

section Cycle

variable (manager : Manager)

/-- Uploads the expired tiles of all entities at the same time. -/
def uploadAllBy (sequence : Nat) : Task Unit :=
  match manager.dispatcher with
  | none => return ()
  | some dispatcher =>
      if dispatcher.targets.isEmpty then return ()
      else do
        let listings ← Task.ofExcept (manager.entities.mapM (listingOf setup manager sequence))
        weaver.each listings dispatcher.dispatch

/-- The work of a cycle, with the entities at the same time. -/
def cycleBy (feed : String) (sequence : Nat) : Task Unit := do
  let diff := diffPath setup.workDirectory sequence
  let merged := mergedPath setup.workDirectory sequence
  Feed.downloadDiff feed sequence diff
  Task.merge diff merged
  weaver.each manager.entities (applyTo setup manager sequence merged)
  if setup.listsTiles then uploadAllBy weaver setup manager sequence

end Cycle

/-- Runs the cycle of the next number, with the entities at the same time, and commits it. -/
def appendNextBy (feed : String) : Activity Manager Unit := do
  let manager ← get
  let sequence := manager.progress.next
  let result ← Task.attempt (cycleBy weaver setup manager feed sequence)
  if result.toOption.isNone then Task.terminateTools
  removeArtifacts setup manager sequence
  Activity.ofExcept result
  onProgress Progress.commit
  modify fun manager => { manager with progress := manager.progress.countDown }

/-- A drive, with a weaver for each occasion on which it runs a cycle. -/
structure WovenDrive where
  drive : Drive
  weavers : Nat → Weaver

/-- The work of a drive, with the entities at the same time in all cycles. -/
def WovenDrive.work (woven : WovenDrive) : Activity Manager Unit :=
  woven.drive.workBy setup fun left => appendNextBy (woven.weavers left) setup woven.drive.feed

variable {setup}

theorem uploadAllBy_inOrder {manager : Manager} :
    uploadAllBy .inOrder setup manager = uploadAll setup manager := by
  funext sequence
  simp only [uploadAllBy, Weaver.each_inOrder]
  rfl

theorem cycleBy_inOrder {manager : Manager} :
    cycleBy .inOrder setup manager = cycle setup manager := by
  funext feed sequence
  simp only [cycleBy, cycle, uploadAllBy_inOrder, Weaver.each_inOrder]

theorem appendNextBy_inOrder {feed : String} :
    appendNextBy .inOrder setup feed = appendNext setup feed := by
  simp only [appendNextBy, appendNext, cycleBy_inOrder]

/-- With the entities one after the other, it is the work of the drive. -/
theorem work_inOrder (drive : Drive) :
    (WovenDrive.mk drive fun _ => .inOrder).work setup = drive.work setup := by
  simp only [WovenDrive.work, appendNextBy_inOrder, workBy_same]

/-! ## Preparations -/

/-- Loads resources into the cache, all at the same time. -/
def loadBy (workDirectory : Path) (resources : List Resource) : Activity Resource.Cache Unit := do
  let fetched ← weaver.join ((Resource.firstsById [] resources).map
    (Resource.fetchEntry workDirectory))
  modify fun cache => cache.extend fetched

/-- The resources that are loaded at the same time are different. -/
theorem nodup_firstsById {resources : List Resource} :
    (Resource.firstsById [] resources).Nodup :=
  Resource.pairwise_firstsById.imp fun different same => different (congrArg Resource.id same)

theorem asks_fetchEntry {permitted : Inquiry → Prop} {workDirectory : Path} {resource : Resource}
    (asks : (Resource.fetch workDirectory resource).run.Asks permitted) :
    (Resource.fetchEntry workDirectory resource).run.Asks permitted :=
  Task.asks_bind asks fun _ => trivial

theorem asks_loadBy {permitted : Inquiry → Prop} {workDirectory : Path} {resources : List Resource}
    (each : ∀ resource ∈ Resource.firstsById [] resources,
      (Resource.fetch workDirectory resource).run.Asks permitted) {cache : Resource.Cache} :
    ((loadBy weaver workDirectory resources).starting cache).Asks permitted := by
  have woven := weaver.woven ((Resource.firstsById [] resources).map
    (Resource.fetchEntry workDirectory))
  refine Activity.asks_bind (Activity.asks_task (woven.asks ?_)) fun _ _ => trivial
  rw [List.map_map]
  exact List.forall_mem_map.mpr fun resource member => asks_fetchEntry (each resource member)

theorem join_fetchEntry_inOrder {workDirectory : Path} {resources : List Resource} :
    Weaver.inOrder.join (resources.map (Resource.fetchEntry workDirectory)) =
      Resource.fetchAll workDirectory resources := by
  refine ExceptT.ext (Eq.trans ?_ Resource.run_fetchAll.symm)
  exact congrArg Dialogue.inOrder List.map_map

theorem loadBy_inOrder {workDirectory : Path} {resources : List Resource} :
    loadBy .inOrder workDirectory resources = Resource.load workDirectory resources := by
  rw [loadBy, Resource.load, join_fetchEntry_inOrder]

end Weaver

end MapReplica.Update
