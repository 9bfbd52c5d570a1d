import MapReplica.Proofs.Update.Preparation
import MapReplica.Proofs.Update.Settling

/-!
# Schedules

A schedule is a sequence of managers, each of which is prepared and then runs a session.
Under steady conditions all of them are prepared for the same order, and what lasts
settles at every commit, whatever fails.
-/

namespace MapReplica.Update

open Dialogue

namespace Conditions

variable {conditions : Conditions} {order : Manager} {ground after : Ground}

/-! ## Preparing -/

/-- The inquiries of a preparation. -/
inductive Preparing (conditions : Conditions) : Inquiry → Prop where
  | bucket : Preparing conditions .bucketExists
  | directory (path : Path) : Preparing conditions (.createDirectory path)
  | get (key : String) : Preparing conditions (.getObject key)
  | write (entity : Entity) (content : Bytes) (member : entity ∈ conditions.entities) :
      Preparing conditions
        (.writeFile (Resource.scriptPathOf conditions.setup.workDirectory
          (entity.scriptKey conditions.project)) content)
  | startQueue : Preparing conditions .startQueue

/-- A resource that an entity needs. -/
def Needed (conditions : Conditions) (resource : Resource) : Prop :=
  ∃ entity ∈ conditions.entities, resource ∈ resourcesOf conditions.project entity

theorem needed_of_mem {resource : Resource}
    (member : resource ∈ Resource.firstsById []
      (conditions.entities.flatMap (resourcesOf conditions.project))) :
        conditions.Needed resource :=
  List.mem_flatMap.mp (Resource.mem_of_mem_firstsById member)

/-- Only the script of an entity is put on the disk. -/
theorem script_of_needed {resource : Resource} (needed : conditions.Needed resource)
    (script : resource.kind = .script) :
    ∃ entity ∈ conditions.entities, resource.id = entity.scriptKey conditions.project := by
  obtain ⟨entity, member, among⟩ := needed
  rcases List.mem_cons.mp among with rfl | area
  · exact ⟨entity, member, rfl⟩
  · obtain ⟨key, _, rfl⟩ := List.mem_map.mp area
    cases script

/-- Loading resources that are needed belongs to a preparation. -/
theorem preparing_of_loading {resources : List Resource}
    (needed : ∀ resource ∈ resources, conditions.Needed resource) {inquiry : Inquiry}
    (asked : Resource.OfLoading conditions.setup.workDirectory resources inquiry) :
    conditions.Preparing inquiry := by
  cases asked with
  | directory path => exact .directory path
  | get resource member => exact .get resource.id
  | write resource content member script =>
      obtain ⟨entity, among, own⟩ := script_of_needed (needed resource member) script
      rw [own]
      exact .write entity content among

theorem asks_fetch {resource : Resource} (needed : conditions.Needed resource) :
    (Resource.fetch conditions.setup.workDirectory resource).run.Asks conditions.Preparing := by
  have asks : (Resource.fetch conditions.setup.workDirectory resource).run.Asks
      (Resource.OfLoading conditions.setup.workDirectory [resource]) :=
    Resource.asks_fetch List.mem_cons_self
  exact asks.mono fun _ => preparing_of_loading (by simpa using needed)

/-- The resources that the entities need. -/
def needs (conditions : Conditions) : List Resource :=
  conditions.entities.flatMap (resourcesOf conditions.project)

/-- Preparing a manager for the project, with all resources loaded at the same time. -/
def preparation (conditions : Conditions) (weaver : Weaver) (limit : Option Nat) :
    Activity Manager Unit :=
  prepareBy (loadBy weaver conditions.setup.workDirectory conditions.needs) conditions.setup
    conditions.project conditions.entities conditions.targets limit

/-- With the resources loaded one after the other, it is the preparation of the project. -/
theorem preparation_inOrder {limit : Option Nat} :
    conditions.preparation .inOrder limit =
      prepare conditions.setup conditions.project conditions.entities conditions.targets limit := by
  rw [preparation, loadBy_inOrder, needs, prepareBy_load]

theorem asks_prepare {weaver : Weaver} {limit : Option Nat} {manager : Manager} :
    ((conditions.preparation weaver limit).starting manager).Asks conditions.Preparing :=
  asks_prepareBy_of (.directory _) .bucket
    (fun _ => asks_loadBy weaver fun _ member => asks_fetch (needed_of_mem member)) .startQueue

theorem Preparing.durable {question : Inquiry} {answer : question.Answer}
    (asked : conditions.Preparing question) (step : conditions.world ground question answer after) :
    after.durable = ground.durable := by
  cases asked with
  | bucket => exact step.1
  | directory path => exact step.1
  | get key => exact step.1.1
  | startQueue => exact step.1
  | write entity content member => exact step.1

/-- A preparation writes only scripts, and these are no files of a cycle. -/
theorem Calm.of_preparing {count : Nat} (calm : conditions.Calm order count ground)
    {question : Inquiry} {answer : question.Answer} (asked : conditions.Preparing question)
    (step : conditions.world ground question answer after) : conditions.Calm order count after := by
  refine calm.of_part (asked.durable step ▸ .refl) fun number path among => ?_
  rw [files_of_spares step, calm.swept number path among]
  intro script written
  cases asked with
  | write entity content member =>
      obtain rfl := List.mem_singleton.mp written
      exact conditions.scriptsApart entity member number path among
  | _ => cases written

theorem settled_of_preparing {question : Inquiry} (asked : conditions.Preparing question) :
    conditions.Settled order ground question := by
  cases asked with
  | bucket => exact settled_of_other fun _ _ => nofun
  | directory path => exact settled_of_other fun _ _ => nofun
  | get key => exact settled_of_other fun _ _ => nofun
  | startQueue => exact settled_of_other fun _ _ => nofun
  | write entity content member => exact settled_of_other fun _ _ => nofun

theorem keeps_calm_prepare {weaver : Weaver} {limit : Option Nat} {manager : Manager} {count : Nat}
    (calm : conditions.Calm order count ground) :
    ((conditions.preparation weaver limit).starting manager).Keeps conditions.world
      (conditions.Settled order)
      (fun _ now => conditions.Calm order count now ∧ now.durable = ground.durable) ground := by
  refine asks_prepare.invariant ⟨calm, rfl⟩ ?_
  rintro now question asked ⟨calm, same⟩
  refine ⟨settled_of_preparing asked, fun answer after step => ⟨calm.of_preparing asked step, ?_⟩⟩
  exact (asked.durable step).trans same

/-! ## What is prepared -/

/-- The resources that are fetched at the same time, of which none relies on anything. -/
def loading (conditions : Conditions) (start : Ground) : Neighbours conditions.world Resource :=
  .alike (fun _ => True) (fun _ _ => True) (fun _ => trivial) (fun _ _ _ _ _ => trivial)
    (fun _ _ _ _ _ _ => trivial) start

section Loading

variable {start : Ground} {resource : Resource}

/-- What a fetch does is not restricted. -/
theorem keeps_loading {α : Type} {dialogue : Dialogue collaborators α} :
    (conditions.loading start).Keeps (fun _ _ => True) resource (fun _ _ => True) dialogue
      ground := by
  have keeps : dialogue.Keeps (disturbed conditions.world fun _ _ => True) (fun _ _ => True)
      (fun _ _ => True) ground := keeps_of_ends fun _ _ _ => trivial
  exact (keeps.relax (fun _ _ _ _ step => step) fun _ _ _ => ⟨trivial, fun _ _ => trivial⟩).mono
    fun _ _ _ _ _ => trivial

theorem keeps_fetchText (needed : conditions.Needed resource) :
    (conditions.loading start).Keeps (fun _ _ => True) resource
      (fun outcome _ => ∀ content, outcome = .ok content →
        Resource.textOf resource.id (conditions.resources resource.id) = .ok content)
      (Resource.fetchText resource.id).run ground := by
  have gets : (conditions.loading start).Keeps (fun _ _ => True) resource
      (fun outcome _ => ∀ body, outcome = .ok (.ok body) → body = conditions.resources resource.id)
      (Task.outcome (Task.getObject resource.id)).run ground := by
    refine ⟨⟨trivial, fun _ _ => trivial⟩, fun answer after step _ _ body same => ?_⟩
    obtain ⟨_, _, _, step, _⟩ := step
    obtain ⟨entity, member, among⟩ := needed
    exact step.2.2 body (Except.ok.inj same) entity member resource among rfl
  unfold Resource.fetchText
  refine Task.keeps_bind gets ?_ fun _ _ _ _ _ _ impossible => by cases impossible
  intro outcome now fixed
  cases outcome with
  | error failure => exact fun _ _ => nofun
  | ok body =>
      intro _ _ content read
      rw [← fixed now trivial body rfl]
      exact read

/-- A resource that is fetched well is as it is loaded. -/
theorem keeps_fetchEntry (needed : conditions.Needed resource) :
    (conditions.loading start).Keeps (fun _ _ => True) resource
      (fun outcome _ => ∀ entry, outcome = .ok entry →
        (do return (resource.id, ← conditions.loadedOf resource)) = Except.ok (ε := Failure) entry)
      (Resource.fetchEntry conditions.setup.workDirectory resource).run ground := by
  have fetches : (conditions.loading start).Keeps (fun _ _ => True) resource
      (fun outcome _ => ∀ loaded, outcome = .ok loaded →
        conditions.loadedOf resource = .ok loaded)
      (Resource.fetch conditions.setup.workDirectory resource).run ground := by
    unfold Resource.fetch
    refine Task.keeps_bind (keeps_fetchText needed) ?_
      fun _ _ _ _ _ _ impossible => by cases impossible
    intro content now fixed
    have text := fixed now trivial content rfl
    unfold loadedOf
    rw [text]
    cases resource.kind with
    | script =>
        refine Task.keeps_bind keeps_loading ?_ fun _ _ _ _ _ _ impossible => by cases impossible
        intro _ _ _ _ _ loaded same
        cases same
        rfl
    | area =>
        refine Task.keeps_ofExcept_bind ?_ fun _ _ _ _ impossible => by cases impossible
        intro area found _ _ loaded same
        cases same
        exact congrArg (Except.map Resource.Loaded.area) found
  refine Task.keeps_bind fetches ?_ fun _ _ _ _ _ _ impossible => by cases impossible
  intro loaded now fixed _ _ entry same
  cases same
  rw [fixed now trivial loaded rfl]
  rfl

/-- Resources that are fetched well at the same time are as they are loaded. -/
theorem keeps_join {weaver : Weaver} :
    (weaver.join ((Resource.firstsById [] conditions.needs).map
      (Resource.fetchEntry conditions.setup.workDirectory))).run.Keeps conditions.world
      (fun _ _ => True)
      (fun outcome _ => ∀ cache, outcome = .ok cache →
        conditions.cache? (Resource.firstsById [] conditions.needs) = .ok cache) ground := by
  have woven := weaver.woven ((Resource.firstsById [] conditions.needs).map
    (Resource.fetchEntry conditions.setup.workDirectory))
  rw [List.map_map] at woven
  refine ((conditions.loading ground).keeps_of_woven woven nodup_firstsById
    (List.forall₂_map_right_iff.mpr (List.forall₂_same.mpr fun resource member =>
      keeps_fetchEntry (needed_of_mem member))) trivial).mono ?_
  rintro outcome now ⟨_, together⟩ cache rfl
  cases together with
  | ended each => exact mapM_of_forall₂ (each.imp fun resource entry made => made entry rfl)

/-- A manager that has loaded all resources of the project. -/
def Loads (conditions : Conditions) (result : Except Failure Unit × Manager) : Prop :=
  result.1 = .ok () →
    conditions.cache? (Resource.firstsById [] conditions.needs) = .ok result.2.resources

variable {weaver : Weaver} {manager : Manager}

theorem keeps_load (bare : manager.resources = []) :
    ((onResources (loadBy weaver conditions.setup.workDirectory conditions.needs)).starting
      manager).Keeps conditions.world (fun _ _ => True) (fun result _ => conditions.Loads result)
      ground := by
  rw [Activity.starting_onResources, bare]
  have loads : ((loadBy weaver conditions.setup.workDirectory conditions.needs).starting []).Keeps
      conditions.world (fun _ _ => True)
      (fun result _ => result.1 = .ok () →
        conditions.cache? (Resource.firstsById [] conditions.needs) = .ok result.2) ground := by
    unfold loadBy
    rw [Activity.starting_bind, Activity.starting_task, Dialogue.bind_assoc]
    refine keeps_join.bind fun outcome now fixed => ?_
    cases outcome with
    | error failure =>
        intro impossible
        cases impossible
    | ok cache =>
        intro _
        rw [fixed cache rfl]
        exact congrArg Except.ok (List.append_nil cache).symm
  refine loads.bind fun result now fixed => ?_
  exact fixed

/-- A manager that is prepared well holds the resources as they are loaded. -/
theorem keeps_loads {limit : Option Nat} :
    ((conditions.preparation weaver limit).starting .fresh).Keeps conditions.world
      (fun _ _ => True) (fun result _ => conditions.Loads result) ground := by
  unfold preparation prepareBy
  have checks : ((Activity.ofExcept (checkOrder conditions.entities limit) :
      Activity Manager Unit).starting .fresh).Keeps conditions.world (fun _ _ => True)
      (fun result _ => result.2.resources = []) ground := rfl
  refine Activity.keeps_bind checks ?_ fun _ _ _ _ impossible => by cases impossible
  intro _ checked now bare
  have serves : ((Activity.ofExcept (Upload.Dispatcher.make conditions.targets
      conditions.setup.queueTarget) : Activity Manager Upload.Dispatcher).starting checked).Keeps
      conditions.world (fun _ _ => True) (fun result _ => result.2.resources = []) now := bare
  refine Activity.keeps_bind serves ?_ fun _ _ _ _ impossible => by cases impossible
  intro dispatcher served now bare
  have begins : ((onProgress (Progress.prepare conditions.setup.workDirectory
      conditions.setup.bucket conditions.project limit)).starting served).Keeps
      conditions.world (fun _ _ => True) (fun result _ => result.2.resources = []) now := by
    rw [Activity.starting_onProgress]
    refine Keeps.bind (keeps_of_ends fun _ _ _ => trivial) fun result last _ => ?_
    exact bare
  refine Activity.keeps_bind begins ?_ fun _ _ _ _ impossible => by cases impossible
  intro _ begun now bare
  refine Activity.keeps_bind (keeps_load bare) ?_ fun _ _ _ _ impossible => by cases impossible
  intro _ loaded now loads
  have fills : ((modify fun manager : Manager =>
      { manager with entities := conditions.entities, dispatcher := some dispatcher } :
        Activity Manager PUnit).starting loaded).Keeps conditions.world (fun _ _ => True)
      (fun result _ => conditions.Loads (.ok (), result.2)) now := loads
  refine Activity.keeps_bind fills ?_ fun _ _ _ _ impossible => by cases impossible
  intro _ filled now loads
  split
  case isFalse => exact loads
  case isTrue =>
    have starts : ((liftM Task.startQueue : Activity Manager Unit).starting filled).Keeps
        conditions.world (fun _ _ => True)
          (fun result _ => conditions.Loads (.ok (), result.2)) now := by
      rw [Activity.starting_task]
      refine Keeps.bind (keeps_of_ends fun _ _ _ => trivial) fun outcome last _ => ?_
      exact loads
    refine Activity.keeps_bind starts ?_ fun _ _ _ _ impossible => by cases impossible
    intro _ started last loads
    exact loads

end Loading

/-- The manager that is prepared, if it can be. -/
def prepared (conditions : Conditions) : Manager :=
  match conditions.order? with
  | .ok order => order
  | .error _ => .fresh

theorem Serves.prepared (serves : conditions.Serves order) : conditions.prepared = order := by
  rw [Conditions.prepared, serves.made]

/-- What was loaded and checked is that of the manager that is prepared. -/
theorem serves_of_loads {outcome : Except Failure Unit} {manager : Manager}
    (loads : conditions.Loads (outcome, manager)) (ok : outcome = .ok ())
    (ready : Prepared conditions.setup conditions.project conditions.entities
      conditions.targets manager) :
    conditions.Serves conditions.prepared ∧ SameOrder conditions.prepared manager := by
  obtain ⟨dispatcher, served, targets⟩ := ready.dispatcher
  have loaded : conditions.cache? (Resource.firstsById []
      (conditions.entities.flatMap (resourcesOf conditions.project))) = .ok manager.resources :=
    loads ok
  have serves : conditions.Serves {
      progress := { project := conditions.project }
      resources := manager.resources
      entities := conditions.entities
      dispatcher := some dispatcher } := by
    refine ⟨ready.checked, ?_⟩
    rw [order?, targets]
    simp only [loaded]
    rfl
  rw [serves.prepared]
  exact ⟨serves, ready.project, rfl, ready.entities, served⟩

theorem keeps_prepared {weaver : Weaver} {limit : Option Nat} :
    ((conditions.preparation weaver limit).starting .fresh).Keeps conditions.world
      (fun _ _ => True)
      (fun result _ => result.1 = .ok () →
        conditions.Serves conditions.prepared ∧ SameOrder conditions.prepared result.2 ∧
          result.2.progress = Manager.fresh.progress.begun conditions.project limit) ground := by
  have ends : ((conditions.preparation weaver limit).starting .fresh).Keeps conditions.world
      (fun _ _ => True)
      (fun result _ => result.1 = .ok () →
        Prepared conditions.setup conditions.project conditions.entities
          conditions.targets result.2 ∧
          result.2.progress = Manager.fresh.progress.begun conditions.project limit) ground := by
    refine keeps_of_ends ?_
    rintro exchanges ⟨outcome, manager⟩ ends rfl
    exact prepared_of_ends_by ends
  refine (keeps_loads.and ends).mono ?_
  rintro ⟨outcome, manager⟩ now ⟨loads, ready⟩ ok
  obtain ⟨serves, same⟩ := serves_of_loads loads ok (ready ok).1
  exact ⟨serves, same, (ready ok).2⟩

/-! ## Schedules -/

/--
The limit with which a manager is prepared, how its resources are loaded, and the drives of
its session.
-/
structure Turn where
  limit : Option Nat
  loading : Weaver
  drives : List WovenDrive

/-- Prepares a manager and, if that went well, runs its session. -/
def turn (conditions : Conditions) (plan : Turn) : Activity Manager Unit := do
  conditions.preparation plan.loading plan.limit
  inTurn (plan.drives.map fun woven => woven.work conditions.setup)

/-- With nothing at the same time, it is a preparation and a session. -/
theorem turn_inOrder {limit : Option Nat} {drives : List Drive} :
    conditions.turn ⟨limit, .inOrder, drives.map fun drive => ⟨drive, fun _ => .inOrder⟩⟩ = (do
      prepare conditions.setup conditions.project conditions.entities conditions.targets limit
      session conditions.setup drives) := by
  simp only [turn, preparation_inOrder, List.map_map, Function.comp_def, work_inOrder, inTurn_work]

/-- Managers one after the other. -/
def schedule (conditions : Conditions) : List Turn → Dialogue collaborators Unit
  | [] => .done ()
  | plan :: rest => (conditions.turn plan).starting .fresh >>= fun _ => schedule conditions rest

/-- A session, however its cycles are woven. -/
theorem keeps_inTurn (serves : conditions.Serves order) {manager : Manager}
    {drives : List WovenDrive} (served : ∀ woven ∈ drives, woven.drive.feed = conditions.feed)
    (same : SameOrder order manager) (quiet : conditions.Quiet order ground) :
    ((inTurn (drives.map fun woven => woven.work conditions.setup)).starting manager).Keeps
      conditions.world (conditions.Settled order) (fun _ now => conditions.Quiet order now)
      ground := by
  have each : ∀ woven ∈ drives, ∀ manager state,
      ((guidance serves).custody {conditions.feed}).free manager state →
        ((woven.work conditions.setup).starting manager).Keeps conditions.world
          (conditions.Settled order) (Ended ((guidance serves).custody {conditions.feed}).free
            ((guidance serves).custody {conditions.feed}).free fun _ => True) state := by
    intro woven member manager state free
    refine Custody.keeps_workBy _ ?_ (served woven member) free
    rw [served woven member]
    exact cycles serves woven.weavers
  refine (Custody.keeps_inTurn _ (List.forall_mem_map.mpr each) ⟨same, quiet⟩).mono ?_
  intro result last ended
  exact (holds_of_ended ended).2

theorem keeps_turn {plan : Turn}
    (served : ∀ woven ∈ plan.drives, woven.drive.feed = conditions.feed)
    (quiet : conditions.Quiet conditions.prepared ground) :
    ((conditions.turn plan).starting .fresh).Keeps conditions.world
      (conditions.Settled conditions.prepared)
      (fun _ now => conditions.Quiet conditions.prepared now) ground := by
  obtain ⟨count, calm⟩ := quiet
  refine Activity.keeps_bind ((keeps_calm_prepare calm).and keeps_prepared) ?_ ?_
  · rintro _ manager now ⟨⟨calm, _⟩, ready⟩
    obtain ⟨serves, same, _⟩ := ready rfl
    exact keeps_inTurn serves served same ⟨count, calm⟩
  · rintro failure manager now ⟨⟨calm, _⟩, _⟩
    exact ⟨count, calm⟩

/-- What lasts settles throughout a schedule. -/
theorem keeps_schedule {plans : List Turn}
    (served : ∀ plan ∈ plans, ∀ woven ∈ plan.drives, woven.drive.feed = conditions.feed)
    (quiet : conditions.Quiet conditions.prepared ground) :
    (conditions.schedule plans).Keeps conditions.world (conditions.Settled conditions.prepared)
      (fun _ now => conditions.Quiet conditions.prepared now) ground := by
  induction plans generalizing ground with
  | nil => exact quiet
  | cons plan rest ih =>
      refine (keeps_turn (served plan List.mem_cons_self) quiet).bind fun _ now quiet => ?_
      exact ih (fun later member => served later (List.mem_cons_of_mem _ member)) quiet

/-- The start, where nothing was done yet. -/
theorem calm_first (durable : ground.durable = conditions.first)
    (swept : conditions.Swept ground.files) : conditions.Calm order 0 ground := by
  refine ⟨?_, conditions.numbered, fun _ impossible =>
    absurd impossible (Nat.not_lt_zero _), ⟨conditions.first, .start, ?_⟩, swept⟩
  · rw [durable]
    exact conditions.stored
  · rw [durable]
    exact .refl

end Conditions

end MapReplica.Update
