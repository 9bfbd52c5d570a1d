import MapReplica.Proofs.Update.Disk
import MapReplica.Proofs.Update.Durable
import MapReplica.Update.Prepare

/-!
# Steady conditions

Conditions under which what lasts depends only on how far a project is: nobody else
writes into the object store or the queue, a diff, a script and an area are the same
whenever they are fetched, and the import tool lists the same tiles whenever it applies
the same diff to an entity. Any request, tool, put or push may fail at any time.
-/

namespace MapReplica.Update

open Dialogue

/-- What lasts, and the files. -/
structure Ground where
  durable : Durable
  files : Files

/--
What an answer says about the objects and jobs before and after it. Nothing that fails
has an effect.
-/
def Durable.Answers (before : Durable) (question : Inquiry) (answer : question.Answer)
    (after : Durable) : Prop :=
  match question, answer with
  | .getObject key, (answer : Except Failure Bytes) =>
      after = before ∧ ∀ body, answer = .ok body → before.objects key = some body
  | .putObject key body, (answer : Except Failure Unit) =>
      after = if answer.toBool then before.put key body else before
  | .push request, (answer : Except Failure Unit) =>
      match answer with
      | .ok _ => before.queues request = false ∧ after = before.push request
      | .error failure =>
          (failure.isAlreadyQueued = true → before.queues request = true) ∧ after = before
  | _, _ => after = before

/-- What stays the same while a project is brought forward, and what it starts from. -/
structure Conditions where
  setup : Setup
  project : String
  entities : List Entity
  targets : List Upload.Target
  feed : String
  /-- The names from the root to the directory in which relative paths start. -/
  directory : List String
  /-- What the feed serves as diffs, by their urls. -/
  served : String → Bytes
  /-- The contents of scripts and areas, by their keys. -/
  resources : String → Bytes
  /-- Whether a text is what a diff is merged into. -/
  merges : Bytes → Bytes → Prop
  /-- The tiles that the import tool lists for a diff of the feed, if it lists any. -/
  expired : Bytes → ApplyArguments → Option Bytes
  /-- The objects and jobs at the start. -/
  first : Durable
  /-- The progress text at the start. -/
  content : List Char
  /-- The number at the start. -/
  start : Nat
  stored : ∃ body, first.objects (Progress.keyOf project) = some body ∧
    Utf8.decode? body = some (String.ofList content)
  numbered : Marker.read? content = some start
  /-- The scripts and areas are in the object store. -/
  kept : ∀ entity ∈ entities, ∀ resource ∈ resourcesOf project entity,
    first.objects resource.id = some (resources resource.id)
  /-- Diffs that can be merged into the same text list the same tiles. -/
  alike : ∀ {source other merged}, merges source merged → merges other merged →
    expired source = expired other
  /-- No script is put where a cycle puts a file. -/
  scriptsApart : ∀ entity ∈ entities, ∀ number,
    ∀ path ∈ artifacts setup.workDirectory project entities number,
      (Resource.scriptPathOf setup.workDirectory (entity.scriptKey project)).resolveFrom directory ≠
        path.resolveFrom directory

namespace Conditions

variable (conditions : Conditions)

/-- Where the object store keeps the progress text. -/
def key : String := Progress.keyOf conditions.project

/-- The place to which a path leads. -/
def place (path : Path) : List String :=
  path.resolveFrom conditions.directory

/-- The files of a cycle. -/
def artifacts (number : Nat) : List Path :=
  Update.artifacts conditions.setup.workDirectory conditions.project conditions.entities number

/-- The diff of a number. -/
def diffs (number : Nat) : Bytes :=
  conditions.served (Diff.joinUrl conditions.feed (Diff.path number))

/-- What fetching, listing and removing come to besides what they do to the disk. -/
def Fixes (before : Files) (question : Inquiry) (answer : question.Answer) (after : Files) : Prop :=
  match question, answer with
  | .getObject key, (answer : Except Failure Bytes) =>
      ∀ body, answer = .ok body → ∀ entity ∈ conditions.entities,
        ∀ resource ∈ resourcesOf conditions.project entity, resource.id = key →
          body = conditions.resources key
  | .fetch url _, (answer : Except Http.Fault Http.Response) =>
      ∀ response number, answer = .ok response → Http.isSuccess response.status = true →
        response.complete = true → url = Diff.joinUrl conditions.feed (Diff.path number) →
          response.body = conditions.served url
  | .readFile path, (answer : Except FileFault Bytes) =>
      answer = .error .notFound → before (conditions.place path) = none
  | .removeFile path, _ => after (conditions.place path) = none
  | .applyDiff arguments, (answer : Except Failure Unit) =>
      answer = .ok () → ∀ source merged list,
        before (conditions.place arguments.diff) = some merged → conditions.merges source merged →
          arguments.list = some list → before (conditions.place list) = none →
            after (conditions.place list) = conditions.expired source arguments
  | _, _ => True

/-- Collaborators under these conditions. -/
def world : Surroundings collaborators Ground :=
  fun before question answer after =>
    before.durable.Answers question answer after.durable ∧
      Stores conditions.directory conditions.merges before.files question answer after.files ∧
      conditions.Fixes before.files question answer after.files

/-! ## What does not depend on failures -/

/-- What the content of a resource is loaded as. -/
def loadedOf (resource : Resource) : Except Failure Resource.Loaded := do
  let content ← Resource.textOf resource.id (conditions.resources resource.id)
  match resource.kind with
  | .script =>
      return .script (Resource.scriptPathOf conditions.setup.workDirectory resource.id)
  | .area => return .area (← Resource.areaOf resource.id content)

/-- The resources as they are loaded. -/
def cache? (resources : List Resource) : Except Failure Resource.Cache :=
  resources.mapM fun resource => do return (resource.id, ← conditions.loadedOf resource)

/-- The manager that is prepared, before it has loaded its number. -/
def order? : Except Failure Manager := do
  let dispatcher ← Upload.Dispatcher.make conditions.targets conditions.setup.queueTarget
  let resources ← conditions.cache? (Resource.firstsById []
    (conditions.entities.flatMap (resourcesOf conditions.project)))
  return {
    progress := { project := conditions.project }
    resources
    entities := conditions.entities
    dispatcher := some dispatcher }

/-- The manager of the project that is prepared for its entities. -/
structure Serves (order : Manager) : Prop where
  checked : Entity.check conditions.entities = .ok ()
  made : conditions.order? = .ok order

/-- The progress text after some commits. -/
def textAt : Nat → List Char
  | 0 => conditions.content
  | count + 1 => Marker.withNumber (textAt count) (conditions.start + count + 1)

variable (order : Manager)

/-- The list of expired tiles of an entity after the diff of a number was applied to it. -/
def listed (number : Nat) (entity : Entity) : Option Bytes :=
  match order.resources.scriptPath (entity.scriptKey order.progress.project) with
  | .ok style =>
      conditions.expired (conditions.diffs number)
        (argumentsFor conditions.setup order number
          (mergedPath conditions.setup.workDirectory number) entity style)
  | .error _ => none

/-- The request for the areas of a list, if there are any. -/
def requestOf (target : Option Queue.Settings) (areas : List Box) : List Effect :=
  match target with
  | none => []
  | some settings => if areas.isEmpty then [] else [.push (Queue.Request.ofAreas areas settings)]

/-- What serving the targets with a list changes. -/
def shipment (dispatcher : Upload.Dispatcher) (listing : Upload.Listing) :
    Option Bytes → List Effect
  | none => []
  | some content =>
      if (Upload.linesOf content).isEmpty then []
      else
        (if dispatcher.toStore then [.put listing.key content] else []) ++
          requestOf dispatcher.toQueue (Upload.boxes listing.area (Upload.linesOf content))

/-- What the uploads of an entity change. -/
def uploadOf (dispatcher : Upload.Dispatcher) (number : Nat) (entity : Entity) : List Effect :=
  match listingOf conditions.setup order number entity with
  | .ok listing => shipment dispatcher listing (conditions.listed order number entity)
  | .error _ => []

/-- What the uploads of a cycle change. -/
def effects (number : Nat) : List Effect :=
  match order.dispatcher with
  | none => []
  | some dispatcher =>
      if conditions.setup.listsTiles && !dispatcher.targets.isEmpty then
        conditions.entities.flatMap (conditions.uploadOf order dispatcher number)
      else []

/--
What may last after some commits. Before each of them all uploads of its number were made,
in some order and some of them perhaps more than once.
-/
inductive Lasts : Nat → Durable → Prop where
  | start : Lasts 0 conditions.first
  | commit {count : Nat} {before uploaded : Durable} (lasts : Lasts count before)
      (part : Durable.Partly (conditions.effects order (conditions.start + count + 1)) before
        uploaded)
      (made : ∀ effect ∈ conditions.effects order (conditions.start + count + 1),
        uploaded.Made effect) :
      Lasts (count + 1)
        (uploaded.put conditions.key (Utf8.encodeChars (conditions.textAt (count + 1))))

/-- No two requests of the cycle of a number have one key. -/
def KeysTell (number : Nat) : Prop :=
  ∀ request other, .push request ∈ conditions.effects order number →
    .push other ∈ conditions.effects order number → request.key = other.key → request = other

/--
What lasts agrees up to a number: all objects, the keys of the jobs, and the set of the jobs
itself unless a key of some cycle up to there stands for two requests.
-/
structure Agree (number : Nat) (durable other : Durable) : Prop where
  objects : durable.objects = other.objects
  keys : ∀ request, durable.queues request = other.queues request
  jobs : (∀ cycle, conditions.start < cycle → cycle ≤ number → conditions.KeysTell order cycle) →
    durable.SameJobs other

/-- A cycle that can be done: its diff can be merged, and all scripts and areas are there. -/
structure Feasible (number : Nat) : Prop where
  merged : ∃ merged, conditions.merges (conditions.diffs number) merged
  styled : ∀ entity ∈ order.entities, ∃ style,
    order.resources.scriptPath (entity.scriptKey order.progress.project) = .ok style
  listed : ∀ dispatcher, order.dispatcher = some dispatcher → conditions.setup.listsTiles = true →
    dispatcher.targets.isEmpty = false → ∀ entity ∈ order.entities, ∃ listing,
      listingOf conditions.setup order number entity = .ok listing

/-- The progress text is only written once all uploads up to its number were made. -/
def Settled (ground : Ground) (inquiry : Inquiry) : Prop :=
  ∀ body, inquiry = .putObject conditions.key body → conditions.Serves order ∧ ∃ count,
    Progress.numberOf? body = some (conditions.start + count) ∧
      conditions.start + count ≤ Number.maxSigned64 ∧
      conditions.Lasts order count (ground.durable.put conditions.key body) ∧
      ∀ index < count, conditions.Feasible order (conditions.start + index + 1)

/-! ## The manager that is prepared -/

variable {conditions order}

/-- What the manager that is prepared was made of. -/
theorem of_order? (made : conditions.order? = .ok order) :
    ∃ dispatcher resources,
      Upload.Dispatcher.make conditions.targets conditions.setup.queueTarget = .ok dispatcher ∧
      conditions.cache? (Resource.firstsById []
        (conditions.entities.flatMap (resourcesOf conditions.project))) = .ok resources ∧
      order = {
        progress := { project := conditions.project }
        resources
        entities := conditions.entities
        dispatcher := some dispatcher } := by
  obtain ⟨dispatcher, targets, made⟩ := exists_of_bind_ok made
  obtain ⟨resources, loaded, made⟩ := exists_of_bind_ok made
  cases made
  exact ⟨dispatcher, resources, targets, loaded, rfl⟩

theorem Serves.project (serves : conditions.Serves order) :
    order.progress.project = conditions.project := by
  obtain ⟨_, _, _, _, rfl⟩ := of_order? serves.made
  rfl

theorem Serves.entities (serves : conditions.Serves order) :
    order.entities = conditions.entities := by
  obtain ⟨_, _, _, _, rfl⟩ := of_order? serves.made
  rfl

end Conditions

end MapReplica.Update
