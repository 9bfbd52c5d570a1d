import MapReplica.Proofs.Update.Sharing
import MapReplica.Proofs.Update.Single

/-!
# Every way leads to the same

At each commit of a schedule, whatever failed before it and however the work on its entities
was interleaved, the objects and the set of the jobs are those after a single append to the
same number without any failure.
-/

namespace MapReplica.Update

open Dialogue

/--
What lasts at a commit of a schedule is what lasts after a single append to its number,
which is where the feed is then. There is such an append without any failure that comes to
the same objects and the same set of jobs. However else it is interleaved, it can be made
without any failure, ends well, and comes to the same objects and the same keys of jobs; and
to the same set of jobs, too, unless two requests of one cycle have the same key, of which
the queue keeps only the first.
-/
theorem commit_as_after_single_append (conditions : Conditions) {plans : List Conditions.Turn}
    {start before after : Ground} {body : Bytes}
    {next : Except Failure Unit → Dialogue collaborators Unit}
    (served : ∀ plan ∈ plans, ∀ woven ∈ plan.drives, woven.drive.feed = conditions.feed)
    (first : start.durable = conditions.first) (swept : conditions.Swept start.files)
    (run : Leads conditions.world (conditions.schedule plans) start
      (.ask (P := collaborators) (.putObject conditions.key body) next) before)
    (committed : conditions.world before (.putObject conditions.key body)
      (Except.ok () : Except Failure Unit) after) :
    ∃ number, Progress.numberOf? body = some number ∧
      (∃ loading weavers manager last,
        Leads (conditions.flawless number) ((conditions.single loading weavers).starting .fresh)
          start (.done (.ok (), manager)) last ∧
        last.durable.objects = after.durable.objects ∧ last.durable.SameJobs after.durable) ∧
      ∀ loading weavers,
        (∃ manager last,
          Leads (conditions.flawless number) ((conditions.single loading weavers).starting .fresh)
            start (.done (.ok (), manager)) last) ∧
        ∀ begun outcome manager last, begun.durable = conditions.first →
          conditions.Swept begun.files →
          Leads (conditions.flawless number) ((conditions.single loading weavers).starting .fresh)
            begun (.done (outcome, manager)) last →
          outcome = .ok () ∧
            conditions.Agree conditions.prepared number last.durable after.durable := by
  have keeps := (Conditions.keeps_schedule served ⟨0, Conditions.calm_first first swept⟩).leads run
  obtain ⟨serves, count, number, fits, lasts, feasible⟩ := keeps.1 body rfl
  have put : after.durable = before.durable.put conditions.key body := committed.1
  rw [← put] at lasts
  refine ⟨conditions.start + count, number, ?_, fun loading weavers => ⟨?_, ?_⟩⟩
  · obtain ⟨weavers, left, course, begins, jobs⟩ :=
      Conditions.exists_course_favouring serves fits feasible lasts
    have goes := Conditions.goesFrom_single .inOrder course serves fits rfl begins first swept
    obtain ⟨⟨_, manager⟩, last, single, _, rfl, also, same⟩ := goes.exists_leads
    exact ⟨.inOrder, weavers, manager, last, single, (also.agree lasts).objects, jobs _ same⟩
  · have course := Conditions.course_of_feasible weavers serves fits feasible
    have goes := Conditions.goesFrom_single loading course serves fits rfl trivial first swept
    obtain ⟨⟨_, manager⟩, last, single, _, rfl, _⟩ := goes.exists_leads
    exact ⟨manager, last, single⟩
  · intro begun outcome manager last first swept single
    have course := Conditions.course_of_feasible weavers serves fits feasible
    have goes := Conditions.goesFrom_single loading course serves fits rfl trivial first swept
    obtain ⟨_, ok, also, _⟩ := Keeps.leads goes single
    exact ⟨ok, also.agree lasts⟩

/-! ## A schedule with failures -/

/-- The scripts of the project. -/
def townScript : Bytes := Utf8.encode "-- tables"

/-- The objects of the project at 1. -/
def townObjects (key : String) : Option Bytes :=
  if key = "town/state.txt" then some firstText
  else if key = "town/roads.lua" then some townScript
  else if key = "town/paths.lua" then some townScript
  else none

/-- What the import tool lists, of which only the second text names a tile. -/
def townTiles (arguments : ApplyArguments) : Bytes :=
  if arguments.style = ⟨"work/town/roads.lua"⟩ then Utf8.encode "no tile" else Utf8.encode "1/0/0"

theorem townResources {resource : Resource} {entity : Entity} (member : entity ∈ [roads, paths])
    (among : resource ∈ resourcesOf "town" entity) :
    resource.id = "town/roads.lua" ∨ resource.id = "town/paths.lua" := by
  rcases List.mem_pair.mp member with rfl | rfl
  · exact .inl (congrArg Resource.id (List.mem_singleton.mp among))
  · exact .inr (congrArg Resource.id (List.mem_singleton.mp among))

/--
The project with two entities, whose lists go to the object store and into a queue, and a
feed whose diffs are their urls.
-/
def townConditions : Conditions where
  setup := { townSetup with hasQueue := true, queueSettings := some ⟨"tiles", 0, 1⟩ }
  project := "town"
  entities := [roads, paths]
  targets := [.objectStore, .queue]
  feed := "feed"
  directory := []
  served := Utf8.encode
  resources _ := townScript
  merges := Eq
  expired _ arguments := some (townTiles arguments)
  first := ⟨townObjects, []⟩
  content := "sequenceNumber=1".toList
  start := 1
  stored := ⟨firstText, rfl, Utf8.decode?_encodeChars _⟩
  numbered := by decide
  kept := by
    intro entity member resource among
    rcases townResources member among with own | own
    · rw [own]
      rfl
    · rw [own]
      rfl
  alike := fun _ _ => rfl
  scriptsApart := by
    intro entity member number path among
    have flat := flat_of_check (show Entity.check [roads, paths] = .ok () from rfl)
    rcases List.mem_pair.mp member with rfl | rfl
    · have place : (Resource.scriptPathOf townSetup.workDirectory
          (roads.scriptKey "town")).resolveFrom [] = ["work", "town"] ++ ["roads.lua"] := by
        decide +kernel
      rw [place]
      exact (place_ne_of_getLast? flat among (by decide) (by decide)).symm
    · have place : (Resource.scriptPathOf townSetup.workDirectory
          (paths.scriptKey "town")).resolveFrom [] = ["work", "town"] ++ ["paths.lua"] := by
        decide +kernel
      rw [place]
      exact (place_ne_of_getLast? flat among (by decide) (by decide)).symm

/-- Reads an object, if it is no script that has changed. -/
def townRead (durable : Durable) (key : String) : Except Failure Bytes :=
  match durable.objects key with
  | none => .error (.objectUnread key "missing")
  | some body =>
      if (key = "town/roads.lua" ∨ key = "town/paths.lua") ∧ body ≠ townScript then
        .error (.objectUnread key "changed")
      else .ok body

theorem of_townRead_ok {durable : Durable} {key : String} {body : Bytes}
    (read : townRead durable key = .ok body) :
    durable.objects key = some body ∧
      (key = "town/roads.lua" ∨ key = "town/paths.lua" → body = townScript) := by
  unfold townRead at read
  split at read
  case h_1 => cases read
  case h_2 found there =>
    split at read
    case isTrue => cases read
    case isFalse same =>
      cases read
      exact ⟨there, fun own => not_not.mp fun other => same ⟨own, other⟩⟩

/--
Collaborators of the project. The feed is at 2, the object store takes no object of some
key, and the queue takes one request or none.
-/
def attending (refused : Option String) (queues : Bool) (question : Inquiry) (ground : Ground) :
    question.Answer × Ground :=
  match question with
  | .getObject key => (townRead ground.durable key, ground)
  | .putObject key body =>
      if refused = some key then
        ((.error (.objectUnwritten key "full") : Except Failure Unit), ground)
      else
        ((.ok () : Except Failure Unit), { ground with durable := ground.durable.put key body })
  | .fetch url _ =>
      ((.ok ⟨200, if url = "feed/state.txt" then Utf8.encodeChars (Feed.stateText 2) else
        Utf8.encode url,
        true⟩ : Except Http.Fault Http.Response), ground)
  | .applyDiff arguments =>
      match arguments.list with
      | some path => ((.ok () : Except Failure Unit),
          townConditions.withFile ground path (some (townTiles arguments)))
      | none => ((.ok () : Except Failure Unit), ground)
  | .push request =>
      if queues ∧ ground.durable.jobs.length = 0 then
        ((.ok () : Except Failure Unit), { ground with durable := ground.durable.push request })
      else ((.error (.queue "busy") : Except Failure Unit), ground)
  | question =>
      ((obligingDisk [] ground.files question).1,
        ⟨ground.durable, (obligingDisk [] ground.files question).2⟩)

theorem world_attending (refused : Option String) (queues : Bool) (question : Inquiry)
    (ground : Ground) :
    townConditions.world ground question (attending refused queues question ground).1
      (attending refused queues question ground).2 := by
  cases question with
  | getObject key =>
      refine ⟨⟨rfl, fun body same => (of_townRead_ok same).1⟩, ⟨fun _ _ => rfl, trivial⟩, ?_⟩
      intro body same entity member resource among own
      exact (of_townRead_ok same).2 (own ▸ townResources member among)
  | putObject key body =>
      simp only [attending]
      split
      · exact ⟨rfl, ⟨fun _ _ => rfl, trivial⟩, trivial⟩
      · exact ⟨rfl, ⟨fun _ _ => rfl, trivial⟩, trivial⟩
  | fetch url headers =>
      refine ⟨rfl, ⟨fun _ _ => rfl, trivial⟩, ?_⟩
      intro response number same _ _ diff
      cases same
      have other : url ≠ "feed/state.txt" := by
        rw [diff]
        exact Diff.joinUrl_path_ne_state
      exact if_neg other
  | readFile path =>
      refine ⟨rfl, stores_obligingDisk, fun missing => ?_⟩
      have absent : (obligingDisk [] ground.files (.readFile path)).1 =
          (.error .notFound : Except FileFault Bytes) := missing
      cases there : ground.files (path.resolveFrom []) with
      | none => exact there
      | some content =>
          simp only [obligingDisk, there] at absent
          cases absent
  | removeFile path => exact ⟨rfl, stores_obligingDisk, Function.update_self ..⟩
  | applyDiff arguments =>
      cases listing : arguments.list with
      | none =>
          simp only [attending, listing]
          refine ⟨rfl, ⟨fun _ _ => rfl, trivial⟩, fun _ source merged list _ _ listed => ?_⟩
          cases listing.symm.trans listed
      | some path =>
          simp only [attending, listing]
          refine ⟨rfl, ⟨?_, trivial⟩, fun _ source merged list _ _ listed _ => ?_⟩
          · rw [Inquiry.writes, listing]
            exact Conditions.withFile_spares
          · cases listing.symm.trans listed
            exact Conditions.withFile_self
  | push request =>
      simp only [attending]
      split
      case isTrue takes =>
        have empty := List.length_eq_zero_iff.mp takes.2
        refine ⟨⟨?_, rfl⟩, ⟨fun _ _ => rfl, trivial⟩, trivial⟩
        rw [Durable.queues, empty]
        rfl
      case isFalse =>
        refine ⟨⟨fun impossible => ?_, rfl⟩, ⟨fun _ _ => rfl, trivial⟩, trivial⟩
        cases impossible
  | _ => exact ⟨rfl, stores_obligingDisk, trivial⟩

/-- A batch of the project, whose tasks at the same time all go on to their ends. -/
def townTurn (limit : Option Nat) : Conditions.Turn :=
  ⟨limit, .toTheEnd, [⟨.append "feed", fun _ => .toTheEnd⟩]⟩

/-- Two managers, one after the other, each with a batch. -/
def townPlans : List Conditions.Turn :=
  [townTurn none, townTurn (some 1)]

/-- The start: the project at 1 and an empty disk. -/
def townStart : Ground := ⟨townConditions.first, fun _ => none⟩

/-- The key of the list of an entity at 2. -/
def townList (entity : Entity) : String :=
  Upload.keyOf "town" entity.id 2

/--
The first manager fails to put the list of the first entity. The list of the second one is
put nevertheless, but its request is not taken.
-/
def townFailure : Dialogue collaborators Unit × Ground :=
  (townConditions.schedule townPlans).advance (P := collaborators)
    (attending (some (townList roads)) false) 29 townStart

/-- Then the second one comes to its commit. -/
def townSuccess : Dialogue collaborators Unit × Ground :=
  townFailure.1.advance (P := collaborators) (attending none true) 27 townFailure.2

/-- A later part of a failed attempt took effect, and an earlier one did not. -/
theorem townFailure_partly : townFailure.2.durable.objects (townList roads) = none ∧
    townFailure.2.durable.objects (townList paths) = some (Utf8.encode "1/0/0") := by
  decide +kernel

theorem townSuccess_queued : townSuccess.2.durable.jobs.length = 1 := by
  decide +kernel

theorem townSuccess_putting : putting? townSuccess.1 =
    some ("town/state.txt", Utf8.encode "sequenceNumber=2") := by
  decide +kernel

/--
Although the first attempt uploaded the list of the second entity and not that of the first,
the project ends up as after a single append to 2, with a job in the queue.
-/
theorem townSuccess_as_after_single_append :
    (townFailure.2.durable.objects (townList roads) = none ∧
      townFailure.2.durable.objects (townList paths) = some (Utf8.encode "1/0/0")) ∧
    townSuccess.2.durable.jobs.length = 1 ∧
    ∃ after loading weavers manager last, townConditions.world townSuccess.2
        (.putObject "town/state.txt" (Utf8.encode "sequenceNumber=2"))
        (Except.ok () : Except Failure Unit) after ∧
      Leads (townConditions.flawless 2) ((townConditions.single loading weavers).starting .fresh)
        townStart (.done (.ok (), manager)) last ∧
      last.durable.objects = after.durable.objects ∧ last.durable.SameJobs after.durable := by
  obtain ⟨next, asked⟩ := ask_of_putting? townSuccess_putting
  have failure : Leads townConditions.world (townConditions.schedule townPlans) townStart
      townFailure.1 townFailure.2 :=
    leads_advance (world_attending _ _) 29 _ _
  have success : Leads townConditions.world townFailure.1 townFailure.2 townSuccess.1
      townSuccess.2 :=
    leads_advance (world_attending _ _) 27 _ _
  have run := failure.trans success
  rw [asked] at run
  have committed := world_attending none true
    (.putObject "town/state.txt" (Utf8.encode "sequenceNumber=2")) townSuccess.2
  have served : ∀ plan ∈ townPlans, ∀ woven ∈ plan.drives,
      woven.drive.feed = townConditions.feed := by
    intro plan member woven among
    rcases List.mem_pair.mp member with rfl | rfl
    · rw [List.mem_singleton.mp among]
      rfl
    · rw [List.mem_singleton.mp among]
      rfl
  have swept : townConditions.Swept townStart.files := fun _ _ _ => rfl
  obtain ⟨number, reached, ⟨loading, weavers, manager, last, single, same⟩, _⟩ :=
    commit_as_after_single_append townConditions served rfl swept run committed
  have two : Progress.numberOf? (Utf8.encode "sequenceNumber=2") = some 2 := by decide
  cases reached.symm.trans two
  exact ⟨townFailure_partly, townSuccess_queued, _, loading, weavers, manager, last, committed,
    single, same⟩

end MapReplica.Update
