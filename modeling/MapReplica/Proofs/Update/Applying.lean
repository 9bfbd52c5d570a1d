import Mathlib.Data.List.Nodup
import MapReplica.Proofs.Update.Conditions
import MapReplica.Proofs.Update.Weavers

/-!
# Cycles up to their uploads

Up to its uploads a cycle changes nothing that lasts. Under steady conditions it merges the
diff of its number and lists the tiles of every entity, however the work on the entities is
interleaved, and leaves the files of cycles of other numbers as they are.
-/

namespace MapReplica.Update

open Dialogue

namespace Conditions

variable {conditions : Conditions} {order : Manager} {number : Nat} {ground after : Ground}
variable {question : Inquiry} {answer : question.Answer} {entity : Entity}

/-- There is no file of a cycle. -/
def Swept (conditions : Conditions) (files : Files) : Prop :=
  ∀ number, ∀ path ∈ conditions.artifacts number, files (conditions.place path) = none

/-- There is no file of a cycle of another number. -/
def Elsewhere (conditions : Conditions) (number : Nat) (files : Files) : Prop :=
  ∀ other, other ≠ number → ∀ path ∈ conditions.artifacts other,
    files (conditions.place path) = none

/-- Where the expired tiles of an entity are listed. -/
def listOf (conditions : Conditions) (number : Nat) (entity : Entity) : Path :=
  listPath conditions.setup.workDirectory conditions.project entity.id number

theorem settled_of_spares (spares : question.SparesProgress) :
    conditions.Settled order ground question := by
  rintro body rfl
  exact (spares conditions.project rfl).elim

/-- What is not written stays as it is. -/
theorem files_of_spares (step : conditions.world ground question answer after)
    {place : List String} (spares : ∀ path ∈ question.writes, conditions.place path ≠ place) :
    after.files place = ground.files place :=
  step.2.1.1 place spares

theorem files_of_nothing (step : conditions.world ground question answer after)
    (nothing : question.writes = []) : after.files = ground.files := by
  funext place
  refine files_of_spares step fun path member => ?_
  rw [nothing] at member
  cases member

/-- A cycle leaves the files of cycles of other numbers as they are. -/
theorem elsewhere_of_step (serves : conditions.Serves order)
    (step : conditions.world ground question answer after)
    (asked : OfCycle conditions.setup order conditions.feed number question)
    (elsewhere : conditions.Elsewhere number ground.files) :
    conditions.Elsewhere number after.files := by
  intro other different path member
  rw [files_of_spares step, elsewhere other different path member]
  intro written among
  have own := (OfAppend.cycle asked).writes among
  rw [serves.project, serves.entities] at own
  exact artifacts_disjoint (flat_of_check serves.checked) (flat_of_check serves.checked)
    (Ne.symm different) own member

/-! ## Up to the merge -/

/-- What holds before a diff is applied: nothing lasting has changed, and no tiles are listed. -/
structure Unapplied (conditions : Conditions) (number : Nat) (durable : Durable) (ground : Ground) :
    Prop where
  same : ground.durable = durable
  elsewhere : conditions.Elsewhere number ground.files
  unlisted : ∀ entity ∈ conditions.entities,
    ground.files (conditions.place (conditions.listOf number entity)) = none

/-- The inquiries up to the merge. -/
inductive Preparatory (conditions : Conditions) (number : Nat) : Inquiry → Prop where
  | fetch : Preparatory conditions number
      (.fetch (Diff.joinUrl conditions.feed (Diff.path number)) [])
  | directory (path : Path)
      (outer : (diffPath conditions.setup.workDirectory number).parent? = some path) :
      Preparatory conditions number (.createDirectory path)
  | write (content : Bytes) :
      Preparatory conditions number
        (.writeFile (diffPath conditions.setup.workDirectory number) content)
  | merge :
      Preparatory conditions number
        (.merge (diffPath conditions.setup.workDirectory number)
          (mergedPath conditions.setup.workDirectory number))

theorem Preparatory.ofCycle (asked : conditions.Preparatory number question) :
    OfCycle conditions.setup order conditions.feed number question := by
  cases asked with
  | fetch => exact .fetch
  | directory path outer => exact .directory path outer
  | write content => exact .write content
  | merge => exact .merge

theorem Preparatory.durable (asked : conditions.Preparatory number question)
    (step : conditions.world ground question answer after) : after.durable = ground.durable := by
  cases asked with
  | fetch => exact step.1
  | directory path outer => exact step.1
  | write content => exact step.1
  | merge => exact step.1

theorem Preparatory.spares_list (asked : conditions.Preparatory number question)
    (flat : '/' ∉ entity.id.toList) {path : Path} (written : path ∈ question.writes) :
    conditions.place path ≠ conditions.place (conditions.listOf number entity) := by
  cases asked with
  | fetch => cases written
  | directory path outer => cases written
  | write content =>
      obtain rfl := List.mem_singleton.mp written
      exact (listPath_ne_diffPath flat).symm
  | merge =>
      obtain rfl := List.mem_singleton.mp written
      exact (listPath_ne_mergedPath flat).symm

theorem Preparatory.unapplied (serves : conditions.Serves order)
    (asked : conditions.Preparatory number question) {durable : Durable}
    (unapplied : conditions.Unapplied number durable ground)
    (step : conditions.world ground question answer after) :
    conditions.Unapplied number durable after := by
  refine ⟨(asked.durable step).trans unapplied.same,
    elsewhere_of_step serves step asked.ofCycle unapplied.elsewhere, fun entity member => ?_⟩
  have flat := flat_of_check serves.checked entity member
  rw [files_of_spares step fun _ written => asked.spares_list flat written]
  exact unapplied.unlisted entity member

/-- Preparatory work applies nothing. -/
theorem keeps_unapplied (serves : conditions.Serves order) {α : Type}
    {work : Dialogue collaborators α} (asks : work.Asks (conditions.Preparatory number))
    {durable : Durable} (unapplied : conditions.Unapplied number durable ground) :
    work.Keeps conditions.world (conditions.Settled order)
      (fun _ after => conditions.Unapplied number durable after) ground := by
  refine asks.invariant unapplied fun ground question asked unapplied => ⟨?_, ?_⟩
  · have ofCycle : OfCycle conditions.setup order conditions.feed number question := asked.ofCycle
    exact settled_of_spares ofCycle.spares
  · intro answer after step
    exact asked.unapplied serves unapplied step

/-- An answer of success that came to its end has the diff of the number. -/
theorem keeps_get_diff :
    (Feed.get (Diff.joinUrl conditions.feed (Diff.path number)) []).run.Keeps conditions.world
      (fun _ _ => True)
      (fun outcome _ => ∀ response, outcome = .ok response → response.complete = true →
        response.body = conditions.diffs number) ground := by
  have fetches : (Task.fetch (Diff.joinUrl conditions.feed (Diff.path number)) []).run.Keeps
      conditions.world (fun _ _ => True)
      (fun outcome _ => ∀ response, outcome = .ok (.ok response) →
        Http.isSuccess response.status = true → response.complete = true →
          response.body = conditions.diffs number) ground := by
    refine ⟨trivial, fun answer after step response same success complete => ?_⟩
    exact step.2.2 response number (Except.ok.inj same) success complete rfl
  unfold Feed.get
  refine Task.keeps_bind fetches ?_ fun _ _ _ _ impossible => by cases impossible
  intro reply after fetched
  cases reply with
  | error fault =>
      intro response impossible
      cases impossible
  | ok received =>
      simp only
      split
      case isTrue success =>
        intro response same complete
        cases same
        exact fetched received rfl success complete
      case isFalse =>
        intro response impossible
        cases impossible

/-- A diff that is downloaded well is the diff of the number. -/
theorem keeps_diff {destination : Path} :
    (Feed.downloadDiff conditions.feed number destination).run.Keeps conditions.world
      (fun _ _ => True)
      (fun outcome after => outcome = .ok () →
        after.files (conditions.place destination) = some (conditions.diffs number)) ground := by
  unfold Feed.downloadDiff Feed.download
  refine Task.keeps_bind keeps_get_diff ?_ fun _ _ _ impossible => by cases impossible
  intro response fetched whole
  have parents : (Feed.makeParent destination).run.Keeps conditions.world (fun _ _ => True)
      (fun _ _ => True) fetched :=
    keeps_of_ends fun _ _ _ => trivial
  refine Task.keeps_bind parents ?_ fun _ _ _ impossible => by cases impossible
  intro _ parent _
  have writes : (Task.writeFile destination response.body).run.Keeps conditions.world
      (fun _ _ => True) (fun outcome after => outcome = .ok () →
        after.files (conditions.place destination) = some response.body) parent := by
    refine ⟨trivial, ?_⟩
    rintro (fault | ⟨⟩) after step
    · intro impossible
      cases impossible
    · exact fun _ => step.2.1.2 rfl
  refine Task.keeps_bind writes ?_ fun _ _ _ impossible => by cases impossible
  intro _ written there
  have put := there rfl
  split
  case isTrue => exact Task.keeps_throw.mpr fun impossible => by cases impossible
  case isFalse complete =>
    refine Task.keeps_pure.mpr fun _ => ?_
    rw [put, whole response rfl (by simpa using complete)]

/-- What holds when a diff can be applied: the merged diff of the number lies on the disk. -/
def Merged (conditions : Conditions) (number : Nat) (files : Files) : Prop :=
  ∃ merged, conditions.merges (conditions.diffs number) merged ∧
    files (conditions.place (mergedPath conditions.setup.workDirectory number)) = some merged

/-- A merge of the diff of the number. -/
theorem keeps_merged {input : Path}
    (there : ground.files (conditions.place input) = some (conditions.diffs number)) :
    (Task.merge input (mergedPath conditions.setup.workDirectory number)).run.Keeps conditions.world
      (fun _ _ => True)
      (fun outcome after => outcome = .ok () → conditions.Merged number after.files) ground := by
  refine ⟨trivial, ?_⟩
  rintro (failure | ⟨⟩) after step
  · intro impossible
    cases impossible
  · intro _
    obtain ⟨body, merged, read, related, written⟩ := step.2.1.2 rfl
    cases read.symm.trans there
    exact ⟨merged, related, written⟩

/-! ## Applying a diff -/

/-- What holds while a diff is applied, and after a failure of a cycle before its uploads. -/
structure Spoilt (conditions : Conditions) (number : Nat) (durable : Durable) (ground : Ground) :
    Prop where
  same : ground.durable = durable
  elsewhere : conditions.Elsewhere number ground.files

theorem Unapplied.spoilt {durable : Durable}
    (unapplied : conditions.Unapplied number durable ground) :
    conditions.Spoilt number durable ground :=
  ⟨unapplied.same, unapplied.elsewhere⟩

/-- The inquiry by which the merged diff of a number is applied to an entity. -/
inductive Applies (conditions : Conditions) (order : Manager) (number : Nat) (entity : Entity) :
    Inquiry → Prop where
  | apply (member : entity ∈ conditions.entities) {style : Path}
      (found : order.resources.scriptPath (entity.scriptKey order.progress.project) = .ok style) :
      Applies conditions order number entity (.applyDiff (argumentsFor conditions.setup order number
        (mergedPath conditions.setup.workDirectory number) entity style))

theorem Applies.ofCycle (serves : conditions.Serves order)
    (asked : conditions.Applies order number entity question) :
    OfCycle conditions.setup order conditions.feed number question := by
  cases asked with
  | apply member found => exact .apply entity _ (serves.entities ▸ member) found

theorem Applies.same (asked : conditions.Applies order number entity question)
    (step : conditions.world ground question answer after) : after.durable = ground.durable := by
  cases asked with
  | apply member found => exact step.1

/-- Nothing is written but the list of the entity. -/
theorem Applies.files (serves : conditions.Serves order)
    (asked : conditions.Applies order number entity question)
    (step : conditions.world ground question answer after) {place : List String}
    (other : place ≠ conditions.place (conditions.listOf number entity)) :
    after.files place = ground.files place := by
  cases asked with
  | apply member found =>
      refine files_of_spares step fun path written => ?_
      have own : path = conditions.listOf number entity := by
        rw [mem_list_argumentsFor written, serves.project]
        rfl
      exact own ▸ other.symm

/-- Entities whose tiles are listed at the same place are the same. -/
theorem entity_of_place (serves : conditions.Serves order) {other : Entity}
    (member : entity ∈ conditions.entities) (member' : other ∈ conditions.entities)
    (same : conditions.place (conditions.listOf number entity) =
      conditions.place (conditions.listOf number other)) : entity = other := by
  have flat := flat_of_check serves.checked
  have ids := entity_of_listPath (flat entity member) (flat other member') same
  exact List.inj_on_of_nodup_map (nodup_of_check serves.checked) member member' ids

/-- What an entity relies on while a diff is applied to others: the merged diff and its list. -/
structure Relies (conditions : Conditions) (number : Nat) (entity : Entity)
    (before after : Ground) : Prop where
  merged : after.files (conditions.place (mergedPath conditions.setup.workDirectory number)) =
    before.files (conditions.place (mergedPath conditions.setup.workDirectory number))
  list : entity ∈ conditions.entities →
    after.files (conditions.place (conditions.listOf number entity)) =
      before.files (conditions.place (conditions.listOf number entity))

theorem Applies.merged (serves : conditions.Serves order)
    (asked : conditions.Applies order number entity question)
    (step : conditions.world ground question answer after) :
    after.files (conditions.place (mergedPath conditions.setup.workDirectory number)) =
      ground.files (conditions.place (mergedPath conditions.setup.workDirectory number)) := by
  refine asked.files serves step ?_
  cases asked with
  | apply member found =>
      exact (listPath_ne_mergedPath (flat_of_check serves.checked entity member)).symm

/-- The entities to which a diff is applied at the same time. -/
def applying (serves : conditions.Serves order) (number : Nat) (durable : Durable) :
    Neighbours conditions.world Entity where
  permitted := conditions.Applies order number
  relies := conditions.Relies number
  holds ground := conditions.Spoilt number durable ground ∧ conditions.Merged number ground.files
  refl := ⟨rfl, fun _ => rfl⟩
  trans front back := ⟨back.merged.trans front.merged,
    fun member => (back.list member).trans (front.list member)⟩
  still := by
    rintro entity question answer before after asked ⟨spoilt, merged⟩ step
    refine ⟨⟨(asked.same step).trans spoilt.same, ?_⟩, ?_⟩
    · exact elsewhere_of_step serves step (asked.ofCycle serves) spoilt.elsewhere
    · obtain ⟨text, related, there⟩ := merged
      exact ⟨text, related, (asked.merged serves step).trans there⟩
  spares := by
    rintro entity other question answer before after asked - step different
    refine ⟨asked.merged serves step, fun among => asked.files serves step fun same => ?_⟩
    cases asked with
    | apply member found => exact different (entity_of_place serves among member same)

/-- What an entity has when a diff was applied to it well: its script, and its tiles are listed. -/
structure Listed (conditions : Conditions) (order : Manager) (number : Nat) (entity : Entity)
    (ground : Ground) : Prop where
  styled : ∃ style,
    order.resources.scriptPath (entity.scriptKey order.progress.project) = .ok style
  list : conditions.setup.listsTiles = true →
    ground.files (conditions.place (conditions.listOf number entity)) =
      conditions.listed order number entity

/-- Applying the diff to an entity whose tiles are not listed yet lists them. -/
theorem keeps_apply (serves : conditions.Serves order) {durable : Durable}
    (member : entity ∈ conditions.entities) (merged : conditions.Merged number ground.files)
    (unlisted : ground.files (conditions.place (conditions.listOf number entity)) = none) :
    (applying serves number durable).Keeps (conditions.Settled order) entity
      (fun outcome after => outcome = .ok () → conditions.Listed order number entity after)
      (applyTo conditions.setup order number (mergedPath conditions.setup.workDirectory number)
        entity).run ground := by
  refine Task.keeps_ofExcept_bind (fun style found => ?_) fun failure _ _ => nofun
  have asked : conditions.Applies order number entity _ := .apply member found
  refine ⟨⟨asked, fun _ _ => settled_of_spares (asked.ofCycle serves).spares⟩, ?_⟩
  rintro answer after ⟨before, answered, early, step, late⟩ last later applied
  refine ⟨⟨style, found⟩, fun lists => ?_⟩
  obtain ⟨text, related, there⟩ := merged
  have list : (argumentsFor conditions.setup order number
      (mergedPath conditions.setup.workDirectory number) entity style).list =
        some (conditions.listOf number entity) := by
    simp only [argumentsFor, lists, if_true, serves.project]
    rfl
  rw [later.list member, late.list member, listed, found]
  exact step.2.2 applied _ text _ (early.merged.trans there) related list
    ((early.list member).trans unlisted)

/-- What holds after the diff was applied to all entities. -/
structure Applied (conditions : Conditions) (order : Manager) (number : Nat) (durable : Durable)
    (ground : Ground) : Prop where
  spoilt : conditions.Spoilt number durable ground
  merged : conditions.Merged number ground.files
  listed : ∀ entity ∈ conditions.entities, conditions.Listed order number entity ground

theorem nodup_entities (serves : conditions.Serves order) : conditions.entities.Nodup :=
  (nodup_of_check serves.checked).of_map Entity.id

/-- Applying the diff to all entities at the same time lists the tiles of all. -/
theorem keeps_applies (weaver : Weaver) (serves : conditions.Serves order) {durable : Durable}
    (unapplied : conditions.Unapplied number durable ground)
    (merged : conditions.Merged number ground.files) :
    (weaver.each order.entities (applyTo conditions.setup order number
        (mergedPath conditions.setup.workDirectory number))).run.Keeps conditions.world
      (conditions.Settled order)
      (fun outcome after => conditions.Spoilt number durable after ∧
        (outcome = .ok () → conditions.Applied order number durable after)) ground := by
  rw [serves.entities]
  refine (weaver.keeps_each (applying serves number durable) (nodup_entities serves)
    (List.forall₂_same.mpr fun entity member =>
      keeps_apply serves member merged (unapplied.unlisted entity member))
    ⟨unapplied.spoilt, merged⟩).mono ?_
  rintro outcome after ⟨⟨spoilt, merged⟩, each, _⟩
  exact ⟨spoilt, fun ok => ⟨spoilt, merged, fun entity member => each ok entity member rfl⟩⟩

end Conditions

end MapReplica.Update
