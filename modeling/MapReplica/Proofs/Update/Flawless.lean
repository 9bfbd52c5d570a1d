import MapReplica.Proofs.Feed.State
import MapReplica.Proofs.Update.Schedule

/-!
# Without any failure

Collaborators may never fail. Then every question of a cycle that can be done has an
answer, and the cycle ends well whatever the answers are.
-/

namespace MapReplica.Update

open Dialogue

namespace Conditions

variable {conditions : Conditions} {order manager : Manager} {reached number : Nat}
variable {ground after : Ground} {α β : Type}

/--
An answer of collaborators that do not fail, where the feed has reached a number. That a
file is missing or that a request waits already is no failure.
-/
def Succeeds (conditions : Conditions) (reached : Nat) (question : Inquiry)
    (answer : question.Answer) : Prop :=
  match question, answer with
  | .bucketExists, (answer : Except Failure Bool) => answer = .ok true
  | .getObject _, (answer : Except Failure Bytes) => answer.toBool = true
  | .putObject _ _, (answer : Except Failure Unit) => answer.toBool = true
  | .fetch url _, (answer : Except Http.Fault Http.Response) =>
      ∃ response, answer = .ok response ∧ Http.isSuccess response.status = true ∧
        response.complete = true ∧
          (url = Diff.joinUrl conditions.feed Feed.stateFile →
            Marker.read? (Feed.textOf response.body) = some reached)
  | .createDirectory _, (answer : Except FileFault Unit) => answer.toBool = true
  | .writeFile _ _, (answer : Except FileFault Unit) => answer.toBool = true
  | .readFile _, (answer : Except FileFault Bytes) =>
      ∀ fault, answer = .error fault → fault = .notFound
  | .removeFile _, (answer : Except FileFault Unit) =>
      ∀ fault, answer = .error fault → fault = .notFound
  | .merge _ _, (answer : Except Failure Unit) => answer.toBool = true
  | .applyDiff _, (answer : Except Failure Unit) => answer.toBool = true
  | .importDump _ _, (answer : Except Failure Unit) => answer.toBool = true
  | .startQueue, (answer : Except Failure Unit) => answer.toBool = true
  | .stopQueue, (answer : Except Failure Unit) => answer.toBool = true
  | .push _, (answer : Except Failure Unit) =>
      ∀ failure, answer = .error failure → failure.isAlreadyQueued = true
  | .reserve _, (answer : Except Failure Unit) => answer.toBool = true
  | .release _, (answer : Except Failure Unit) => answer.toBool = true
  | .terminateTools, _ => True
  | .isCancelled, _ => True
  | .wait, _ => True

/-- Collaborators under these conditions that do not fail. -/
def flawless (conditions : Conditions) (reached : Nat) : Surroundings collaborators Ground :=
  fun before question answer after =>
    conditions.world before question answer after ∧ conditions.Succeeds reached question answer

/-- A question that can be answered without a failure. -/
abbrev Answerable (conditions : Conditions) (reached : Nat) (ground : Ground)
    (question : Inquiry) : Prop :=
  ∃ answer after, conditions.flawless reached ground question answer after

/--
Without any failure, all questions of a task can be answered, and it ends well however
they are.
-/
abbrev Goes (conditions : Conditions) (reached : Nat) (task : Task α) (known : α → Ground → Prop)
    (ground : Ground) : Prop :=
  task.run.Keeps (conditions.flawless reached) (conditions.Answerable reached)
    (fun outcome after => ∃ value, outcome = .ok value ∧ known value after) ground

theorem goes_pure {value : α} {known : α → Ground → Prop} (holds : known value ground) :
    conditions.Goes reached (pure value) known ground :=
  ⟨value, rfl, holds⟩

theorem Goes.bind {task : Task α} {rest : α → Task β} {known : α → Ground → Prop}
    {wanted : β → Ground → Prop} (goes : conditions.Goes reached task known ground)
    (later : ∀ value after, known value after → conditions.Goes reached (rest value) wanted after) :
    conditions.Goes reached (task >>= rest) wanted ground := by
  refine Task.keeps_bind goes ?_ ?_
  · rintro value after ⟨_, same, holds⟩
    cases same
    exact later value after holds
  · rintro failure after ⟨_, impossible, _⟩
    cases impossible

/-- What holds whether or not there are failures holds without any. -/
theorem Goes.also {task : Task α} {known other : α → Ground → Prop}
    {allows : Ground → Inquiry → Prop} (goes : conditions.Goes reached task known ground)
    (keeps : task.run.Keeps conditions.world allows
      (fun outcome after => ∀ value, outcome = .ok value → other value after) ground) :
    conditions.Goes reached task (fun value after => known value after ∧ other value after)
      ground := by
  have fewer : task.run.Keeps (conditions.flawless reached) (fun _ _ => True)
      (fun outcome after => ∀ value, outcome = .ok value → other value after) ground :=
    keeps.relax (fun _ _ _ _ step => step.1) fun _ _ _ => trivial
  refine (goes.and fewer).mono ?_
  rintro outcome after ⟨⟨value, ok, holds⟩, all⟩
  exact ⟨value, ok, holds, all value ok⟩

theorem Goes.mono {task : Task α} {known weaker : α → Ground → Prop}
    (goes : conditions.Goes reached task known ground)
    (weaken : ∀ value after, known value after → weaker value after) :
    conditions.Goes reached task weaker ground :=
  Keeps.mono goes fun _ after ⟨value, ok, holds⟩ => ⟨value, ok, weaken value after holds⟩

theorem goes_ofExcept {outcome : Except Failure α} {value : α} (found : outcome = .ok value) :
    conditions.Goes reached (Task.ofExcept outcome)
      (fun result after => result = value ∧ after = ground)
      ground :=
  ⟨value, found, rfl, rfl⟩

/-- Work on a list goes on from what each part of it leaves in place. -/
theorem goes_forEach {items : List α} {work : α → Task Unit} {holds : Ground → Prop}
    (each : ∀ item ground, holds ground →
      conditions.Goes reached (work item) (fun _ after => holds after) ground)
    (start : holds ground) :
    conditions.Goes reached (Task.forEach items work) (fun _ after => holds after) ground := by
  induction items generalizing ground with
  | nil => exact goes_pure start
  | cons item rest ih => exact Goes.bind (each item ground start) fun _ _ held => ih held

/-! ## At the same time -/

section Amid

variable {permitted : Inquiry → Prop} {stays : Ground → Prop}

/-- Answers to certain questions leave something in place. -/
def Leave (conditions : Conditions) (reached : Nat) (permitted : Inquiry → Prop)
    (stays : Ground → Prop) : Prop :=
  ∀ before question answer after, permitted question → stays before →
    conditions.flawless reached before question answer after → stays after

/-- Parts that go on at the same time, which rely on what all of them leave in place. -/
def amid (leave : conditions.Leave reached permitted stays) :
    Neighbours (conditions.flawless reached) Nat where
  permitted _ := permitted
  relies _ before after := stays before → stays after
  holds := stays
  refl := id
  trans front back kept := back (front kept)
  still asked kept step := leave _ _ _ _ asked kept step
  spares asked _ step _ kept := leave _ _ _ _ asked kept step

/-- Without any failure, all questions of a part can be answered, whatever the others do. -/
def GoesAmid (leave : conditions.Leave reached permitted stays) (task : Task α)
    (known : α → Prop) : Prop :=
  ∀ (part : Nat) (ground : Ground), stays ground →
    (amid leave).Keeps (conditions.Answerable reached) part
      (fun outcome after => stays after ∧ ∃ value, outcome = .ok value ∧ known value) task.run
      ground

variable {leave : conditions.Leave reached permitted stays} {known : α → Prop}

theorem goesAmid_pure {value : α} (holds : known value) :
    conditions.GoesAmid leave (pure value) known :=
  fun _ _ kept _ later => ⟨later kept, value, rfl, holds⟩

theorem goesAmid_ofExcept {outcome : Except Failure α} {value : α} (found : outcome = .ok value) :
    conditions.GoesAmid leave (Task.ofExcept outcome) fun result => result = value :=
  fun _ _ kept _ later => ⟨later kept, value, found, rfl⟩

theorem GoesAmid.bind {task : Task α} {rest : α → Task β} {wanted : β → Prop}
    (goes : conditions.GoesAmid leave task known)
    (next : ∀ value, known value → conditions.GoesAmid leave (rest value) wanted) :
    conditions.GoesAmid leave (task >>= rest) wanted := by
  intro part ground kept
  refine Task.keeps_bind (goes part ground kept) ?_ ?_
  · intro value after reached
    obtain ⟨kept, _, same, holds⟩ := reached after id
    cases same
    exact next value holds part after kept
  · intro failure after reached
    obtain ⟨_, _, impossible, _⟩ := reached after id
    cases impossible

/-- A single question that can be answered wherever the others may have come to. -/
theorem goesAmid_of_goes {task : Task α} {question : Inquiry}
    {next : question.Answer → Dialogue collaborators (Except Failure α)}
    (run : task.run = .ask (P := collaborators) question next)
    (single : ∀ answer, ∃ outcome, next answer = .done outcome) (may : permitted question)
    (goes : ∀ ground, stays ground → conditions.Goes reached task (fun value _ => known value)
      ground) :
    conditions.GoesAmid leave task known := by
  intro part ground kept
  simp only [Goes, run] at goes ⊢
  refine ⟨⟨may, fun after later => (goes after (later kept)).1⟩, ?_⟩
  rintro answer last ⟨asked, answered, early, step, late⟩
  have well := (goes asked (early kept)).2 answer answered step
  obtain ⟨outcome, ends⟩ := single answer
  rw [ends] at well ⊢
  exact fun final later =>
    ⟨later (late (leave _ _ _ _ may (early kept) step)), well⟩

/-- Parts that go on whatever the others do go on together, however they are woven. -/
theorem goes_join (weaver : Weaver) (leave : conditions.Leave reached permitted stays)
    {tasks : List (Task α)}
    (each : ∀ task ∈ tasks, conditions.GoesAmid leave task fun _ => True) (kept : stays ground) :
    conditions.Goes reached (weaver.join tasks) (fun _ _ => True) ground := by
  have parts : List.Forall₂ (fun part (thread : Dialogue collaborators (Except Failure α)) =>
      (amid leave).Keeps (conditions.Answerable reached) part
        (fun outcome after => stays after ∧ ∃ value, outcome = .ok value ∧ True) thread ground)
      (List.range tasks.length) (tasks.map fun task => task.run) := by
    rw [List.forall₂_map_right_iff, List.forall₂_iff_get]
    refine ⟨List.length_range, fun index _ less => ?_⟩
    exact each _ (List.get_mem tasks ⟨index, less⟩) _ ground kept
  refine ((amid leave).keeps_of_woven (weaver.woven tasks) List.nodup_range parts kept).mono ?_
  rintro outcome after ⟨_, together⟩
  cases together with
  | failed among own =>
      obtain ⟨_, _, impossible, _⟩ := own
      cases impossible
  | ended each => exact ⟨_, rfl, trivial⟩

theorem goes_each (weaver : Weaver) (leave : conditions.Leave reached permitted stays)
    {items : List α} {work : α → Task Unit}
    (each : ∀ item ∈ items, conditions.GoesAmid leave (work item) fun _ => True)
    (kept : stays ground) :
    conditions.Goes reached (weaver.each items work) (fun _ _ => True) ground :=
  Goes.bind (goes_join weaver leave (List.forall_mem_map.mpr each) kept) fun _ _ _ =>
    goes_pure trivial

end Amid

/-! ## Questions that change nothing -/

theorem ok_of_toBool {ε : Type} {answer : Except ε Unit} (well : answer.toBool = true) :
    answer = .ok () := by
  cases answer with
  | error fault => cases well
  | ok _ => rfl

theorem goes_createDirectory {path : Path} :
    conditions.Goes reached (Task.createDirectory path) (fun _ after => after = ground) ground := by
  refine ⟨⟨.ok (), ground, ⟨rfl, ⟨fun _ _ => rfl, trivial⟩, trivial⟩, rfl⟩, ?_⟩
  rintro answer after ⟨step, well⟩
  obtain rfl := ok_of_toBool well
  exact ⟨(), rfl, ground_of_idle step rfl step.1⟩

theorem goes_makeParent {path : Path} :
    conditions.Goes reached (Feed.makeParent path) (fun _ after => after = ground) ground := by
  unfold Feed.makeParent
  cases path.parent? with
  | none => exact goes_pure rfl
  | some directory => exact goes_createDirectory

/-- A feed and its diffs can be fetched. -/
theorem goes_get (fits : reached ≤ Number.maxSigned64) {url : String} :
    conditions.Goes reached (Feed.get url [])
      (fun response after => after = ground ∧ response.complete = true ∧
        (url = Diff.joinUrl conditions.feed Feed.stateFile →
          Marker.read? (Feed.textOf response.body) = some reached)) ground := by
  have success : Http.isSuccess 200 = true := by decide
  have fetches : conditions.Goes reached (Task.fetch url [])
      (fun reply after => after = ground ∧ ∃ response, reply = .ok response ∧
        Http.isSuccess response.status = true ∧ response.complete = true ∧
          (url = Diff.joinUrl conditions.feed Feed.stateFile →
            Marker.read? (Feed.textOf response.body) = some reached)) ground := by
    constructor
    -- What a diff is fetched as is fixed, so the text of the feed must lie elsewhere.
    · by_cases own : url = Diff.joinUrl conditions.feed Feed.stateFile
      · refine ⟨.ok ⟨200, Utf8.encodeChars (Feed.stateText reached), true⟩, ground,
          ⟨rfl, ⟨fun _ _ => rfl, trivial⟩, ?_⟩, _, rfl, success, rfl, fun _ => ?_⟩
        · intro response number _ _ _ diff
          exact (Diff.joinUrl_path_ne_state (diff.symm.trans own)).elim
        · rw [Feed.textOf_stateText, Feed.read?_stateText fits]
      · refine ⟨.ok ⟨200, conditions.served url, true⟩, ground,
          ⟨rfl, ⟨fun _ _ => rfl, trivial⟩, ?_⟩, _, rfl, success, rfl, fun same => (own same).elim⟩
        intro response number same _ _ _
        cases same
        rfl
    · rintro answer after ⟨step, well⟩
      exact ⟨answer, rfl, ground_of_idle step rfl step.1, well⟩
  unfold Feed.get
  refine Goes.bind fetches ?_
  rintro _ after ⟨rfl, response, rfl, accepted, complete, state⟩
  simp only [accepted, if_true]
  exact goes_pure ⟨rfl, complete, state⟩

/-! ## Up to the merge -/

/-- The ground with a content of a file, or without the file. -/
def withFile (conditions : Conditions) (ground : Ground) (path : Path) (content : Option Bytes) :
    Ground :=
  { ground with files := Function.update ground.files (conditions.place path) content }

theorem withFile_self {path : Path} {content : Option Bytes} :
    (conditions.withFile ground path content).files (conditions.place path) = content :=
  Function.update_self ..

/-- All other places are spared. -/
theorem withFile_spares {path : Path} {content : Option Bytes} :
    ∀ place, (∀ other ∈ [path], other.resolveFrom conditions.directory ≠ place) →
      (conditions.withFile ground path content).files place = ground.files place := by
  intro place other
  exact Function.update_of_ne (other path (List.mem_singleton_self path)).symm content ground.files

theorem goes_writeFile {path : Path} {content : Bytes} :
    conditions.Goes reached (Task.writeFile path content) (fun _ _ => True) ground := by
  constructor
  · refine ⟨.ok (), conditions.withFile ground path (some content),
      ⟨rfl, ⟨withFile_spares, fun _ => ?_⟩, trivial⟩, rfl⟩
    exact withFile_self
  · rintro answer after ⟨_, well⟩
    obtain rfl := ok_of_toBool well
    exact ⟨(), rfl, trivial⟩

theorem goes_downloadDiff (fits : reached ≤ Number.maxSigned64) {destination : Path} :
    conditions.Goes reached (Feed.downloadDiff conditions.feed number destination)
      (fun _ _ => True) ground := by
  unfold Feed.downloadDiff Feed.download
  refine Goes.bind (goes_get fits) ?_
  rintro response fetched ⟨_, complete, _⟩
  refine Goes.bind goes_makeParent fun _ _ _ => ?_
  refine Goes.bind goes_writeFile fun _ _ _ => ?_
  simp only [complete, Bool.not_true, Bool.false_eq_true, if_false]
  exact goes_pure trivial

theorem goes_merge {input output : Path} {body merged : Bytes}
    (there : ground.files (conditions.place input) = some body)
    (related : conditions.merges body merged) :
    conditions.Goes reached (Task.merge input output) (fun _ _ => True) ground := by
  constructor
  · refine ⟨.ok (), conditions.withFile ground output (some merged),
      ⟨rfl, ⟨withFile_spares, fun _ => ?_⟩, trivial⟩, rfl⟩
    exact ⟨body, merged, there, related, withFile_self⟩
  · rintro answer after ⟨_, well⟩
    obtain rfl := ok_of_toBool well
    exact ⟨(), rfl, trivial⟩

/-! ## Applying a diff -/

/-- A merged diff can be applied, and its tiles are listed. -/
theorem goes_applyDiff {arguments : ApplyArguments} {source merged : Bytes}
    (there : ground.files (conditions.place arguments.diff) = some merged)
    (related : conditions.merges source merged) :
    conditions.Goes reached (Task.applyDiff arguments) (fun _ _ => True) ground := by
  constructor
  · cases listing : arguments.list with
    | none =>
        refine ⟨.ok (), ground, ⟨rfl, ⟨fun _ _ => rfl, trivial⟩, ?_⟩, rfl⟩
        intro _ other again list _ _ listed
        cases listing.symm.trans listed
    | some path =>
        refine ⟨.ok (), conditions.withFile ground path (conditions.expired source arguments),
          ⟨rfl, ⟨?_, trivial⟩, ?_⟩, rfl⟩
        · rw [Inquiry.writes, listing]
          exact withFile_spares
        · intro _ other again list there' related' listed _
          cases listing.symm.trans listed
          cases there.symm.trans there'
          -- The text may be that of another diff as well, whose tiles are then the same.
          rw [conditions.alike related' related]
          exact withFile_self
  · rintro answer after ⟨_, well⟩
    obtain rfl := ok_of_toBool well
    exact ⟨(), rfl, trivial⟩

/-- The questions by which a diff is applied to entities. -/
def AppliesAny (conditions : Conditions) (order : Manager) (number : Nat)
    (question : Inquiry) : Prop :=
  ∃ entity, conditions.Applies order number entity question

/-- A diff that is applied to an entity leaves the merged diff in place. -/
theorem leave_merged (serves : conditions.Serves order) :
    conditions.Leave reached (conditions.AppliesAny order number)
      (fun ground => conditions.Merged number ground.files) := by
  rintro before question answer after ⟨entity, asked⟩ ⟨text, related, there⟩ ⟨step, _⟩
  exact ⟨text, related, (asked.merged serves step).trans there⟩

/-- A merged diff can be applied to an entity while it is applied to others. -/
theorem goesAmid_applyTo
    {leave : conditions.Leave reached (conditions.AppliesAny order number)
      (fun ground => conditions.Merged number ground.files)}
    (serves : conditions.Serves order) (feasible : conditions.Feasible order number)
    {entity : Entity} (member : entity ∈ order.entities) :
    conditions.GoesAmid leave (applyTo conditions.setup order number
      (mergedPath conditions.setup.workDirectory number) entity) fun _ => True := by
  obtain ⟨style, found⟩ := feasible.styled entity member
  unfold applyTo
  rw [found]
  have applies : conditions.Applies order number entity _ :=
    .apply (serves.entities ▸ member) found
  refine goesAmid_of_goes rfl (fun _ => ⟨_, rfl⟩) ⟨entity, applies⟩ ?_
  rintro ground ⟨text, related, there⟩
  exact goes_applyDiff there related

/-- A merged diff can be applied to all entities at the same time. -/
theorem goes_applies (weaver : Weaver) (serves : conditions.Serves order)
    (feasible : conditions.Feasible order number) {durable : Durable}
    (unapplied : conditions.Unapplied number durable ground)
    (merged : conditions.Merged number ground.files) :
    conditions.Goes reached (weaver.each order.entities (applyTo conditions.setup order number
        (mergedPath conditions.setup.workDirectory number)))
      (fun _ after => conditions.Applied order number durable after) ground := by
  have leave : conditions.Leave reached (conditions.AppliesAny order number)
      (fun ground => conditions.Merged number ground.files) := leave_merged serves
  have each : ∀ entity ∈ order.entities, conditions.GoesAmid leave
      (applyTo conditions.setup order number (mergedPath conditions.setup.workDirectory number)
        entity) fun _ => True :=
    fun _ member => goesAmid_applyTo serves feasible member
  have facts := (keeps_applies weaver serves unapplied merged).mono fun outcome after reached =>
    (fun _ ok => reached.2 ok :
      ∀ value, outcome = .ok value → conditions.Applied order number durable after)
  exact ((goes_each weaver leave each merged).also facts).mono
    fun _ _ reached => reached.2

/-! ## Uploads -/

theorem goes_putObject {key : String} {body : Bytes} :
    conditions.Goes reached (Task.putObject key body) (fun _ _ => True) ground := by
  refine ⟨⟨.ok (), ⟨ground.durable.put key body, ground.files⟩,
    ⟨rfl, ⟨fun _ _ => rfl, trivial⟩, trivial⟩, rfl⟩, ?_⟩
  rintro answer after ⟨_, well⟩
  exact ⟨(), ok_of_toBool well, trivial⟩

/-- The queue takes a request or has it already. -/
theorem goes_push {request : Queue.Request} :
    conditions.Goes reached (Task.outcome (Task.push request))
      (fun outcome _ => ∀ failure, outcome = .error failure → failure.isAlreadyQueued = true)
      ground := by
  constructor
  · cases waits : ground.durable.queues request with
    | true =>
        refine ⟨.error (.alreadyQueued ""), ground,
          ⟨⟨fun _ => waits, rfl⟩, ⟨fun _ _ => rfl, trivial⟩, trivial⟩, ?_⟩
        intro failure same
        cases same
        rfl
    | false =>
        refine ⟨.ok (), ⟨ground.durable.push request, ground.files⟩,
          ⟨⟨waits, rfl⟩, ⟨fun _ _ => rfl, trivial⟩, trivial⟩, ?_⟩
        intro failure impossible
        cases impossible
  · rintro answer after ⟨_, well⟩
    exact ⟨answer, rfl, well⟩

/-- A file is read, or it is missing. -/
theorem goes_readFile {path : Path} :
    conditions.Goes reached (Task.readFile path)
      (fun answer _ => ∀ fault, answer = .error fault → fault = .notFound) ground := by
  constructor
  · cases found : ground.files (conditions.place path) with
    | none =>
        refine ⟨.error .notFound, ground, ⟨rfl, ⟨fun _ _ => rfl, ?_⟩, fun _ => found⟩, ?_⟩
        · intro content impossible
          cases impossible
        · intro fault same
          cases same
          rfl
    | some content =>
        refine ⟨.ok content, ground, ⟨rfl, ⟨fun _ _ => rfl, ?_⟩, ?_⟩, ?_⟩
        · intro other same
          cases same
          exact found
        · intro impossible
          cases impossible
        · intro fault impossible
          cases impossible
  · rintro answer after ⟨_, well⟩
    exact ⟨answer, rfl, well⟩

section Uploads

variable {leave : conditions.Leave reached (fun _ => True) fun _ => True}
variable {dispatcher : Upload.Dispatcher} {listing : Upload.Listing}

theorem goesAmid_pushBoxes {settings : Queue.Settings} {areas : List Box} :
    conditions.GoesAmid leave (Upload.pushBoxes settings areas) fun _ => True := by
  unfold Upload.pushBoxes
  split
  case isTrue => exact goesAmid_pure trivial
  case isFalse =>
    refine (goesAmid_of_goes rfl (fun _ => ⟨_, rfl⟩) trivial fun _ _ => goes_push).bind ?_
    rintro (failure | ⟨⟩) well
    · simp only [well failure rfl, if_true]
      exact goesAmid_pure trivial
    · exact goesAmid_pure trivial

theorem goesAmid_enqueue {areas : List Box} :
    conditions.GoesAmid leave (dispatcher.enqueue areas) fun _ => True := by
  unfold Upload.Dispatcher.enqueue
  split
  case h_1 => exact goesAmid_pure trivial
  case h_2 => exact goesAmid_pushBoxes

theorem goesAmid_serve {content : Bytes} :
    conditions.GoesAmid leave (dispatcher.serve listing content) fun _ => True := by
  rw [Upload.Dispatcher.serve_eq]
  split
  case isTrue => exact goesAmid_pure trivial
  case isFalse =>
    split
    case isTrue =>
      refine (goesAmid_of_goes rfl (fun _ => ⟨_, rfl⟩) trivial fun _ _ => goes_putObject).bind ?_
      exact fun _ _ => goesAmid_enqueue
    case isFalse => exact goesAmid_enqueue

/-- A list can be delivered, whatever is done for the other entities. -/
theorem goesAmid_dispatch :
    conditions.GoesAmid leave (dispatcher.dispatch listing) fun _ => True := by
  unfold Upload.Dispatcher.dispatch
  split
  case isTrue => exact goesAmid_pure trivial
  case isFalse =>
    refine (goesAmid_of_goes rfl (fun _ => ⟨_, rfl⟩) trivial fun _ _ => goes_readFile).bind ?_
    rintro (fault | content) well
    · cases well fault rfl
      exact goesAmid_pure trivial
    · exact goesAmid_serve

end Uploads

theorem goes_lastPart (weaver : Weaver) (feasible : conditions.Feasible order number) :
    conditions.Goes reached (conditions.lastPart weaver order number) (fun _ _ => True) ground := by
  rcases conditions.lastPart_cases order number with ⟨_, _, ends⟩ | ⟨dispatcher, delivers, ends⟩
  · rw [ends]
    exact goes_pure trivial
  · obtain ⟨listings, made⟩ := exists_mapM
      (feasible.listed dispatcher delivers.served delivers.lists delivers.targeted)
    have leave : conditions.Leave reached (fun _ => True) fun _ => True :=
      fun _ _ _ _ _ _ _ => trivial
    rw [ends]
    refine Goes.bind (goes_ofExcept made) ?_
    rintro _ _ ⟨rfl, rfl⟩
    exact goes_each weaver leave (fun _ _ => goesAmid_dispatch) trivial

/-! ## Whole cycles -/

/-- A cycle that can be done makes all of its uploads. -/
theorem goes_cycle (weaver : Weaver) (serves : conditions.Serves order)
    (fits : reached ≤ Number.maxSigned64)
    (feasible : conditions.Feasible order number) {durable : Durable}
    (unapplied : conditions.Unapplied number durable ground) :
    conditions.Goes reached (cycleBy weaver conditions.setup order conditions.feed number)
      (fun _ _ => True) ground := by
  have downloads : (Feed.downloadDiff conditions.feed number
      (diffPath conditions.setup.workDirectory number)).run.Keeps conditions.world
      (conditions.Settled order)
      (fun outcome after => ∀ value, outcome = .ok value →
        conditions.Unapplied number durable after ∧
          after.files (conditions.place (diffPath conditions.setup.workDirectory number)) =
            some (conditions.diffs number)) ground := by
    have still := keeps_unapplied serves (asks_download .fetch .directory .write) unapplied
    refine (still.and keeps_diff).mono ?_
    rintro outcome after ⟨unapplied, there⟩ value ok
    exact ⟨unapplied, there ok⟩
  refine Goes.bind ((goes_downloadDiff fits).also downloads) ?_
  rintro _ fetched ⟨_, unapplied, there⟩
  obtain ⟨text, related⟩ := feasible.merged
  have merges : (Task.merge (diffPath conditions.setup.workDirectory number)
      (mergedPath conditions.setup.workDirectory number)).run.Keeps conditions.world
      (conditions.Settled order)
      (fun outcome after => ∀ value, outcome = .ok value →
        conditions.Unapplied number durable after ∧ conditions.Merged number after.files)
      fetched := by
    have asks : (Task.merge (diffPath conditions.setup.workDirectory number)
        (mergedPath conditions.setup.workDirectory number)).run.Asks
        (conditions.Preparatory number) := ⟨.merge, fun _ => trivial⟩
    refine ((keeps_unapplied serves asks unapplied).and (keeps_merged there)).mono ?_
    rintro outcome after ⟨unapplied, merged⟩ value ok
    exact ⟨unapplied, merged ok⟩
  refine Goes.bind ((goes_merge there related).also merges) ?_
  rintro _ after ⟨_, unapplied, merged⟩
  exact Goes.bind (goes_applies weaver serves feasible unapplied merged) fun _ applied _ =>
    goes_lastPart weaver feasible

/-- A removal of a file that may be missing. -/
theorem goes_removeFile {path : Path} :
    conditions.Goes reached (Task.removeFile path) (fun _ after => after.durable = ground.durable)
      ground := by
  refine ⟨⟨.ok (), conditions.withFile ground path none,
    ⟨rfl, ⟨withFile_spares, fun _ => withFile_self⟩, withFile_self⟩, ?_⟩, ?_⟩
  · intro fault impossible
    cases impossible
  · rintro answer after ⟨step, _⟩
    exact ⟨(), rfl, step.1⟩

theorem goes_removeArtifacts :
    conditions.Goes reached (Update.removeArtifacts conditions.setup order number)
      (fun _ after => after.durable = ground.durable) ground :=
  goes_forEach (fun _ _ same => goes_removeFile.mono fun _ _ still => still.trans same) rfl

end Conditions

end MapReplica.Update
