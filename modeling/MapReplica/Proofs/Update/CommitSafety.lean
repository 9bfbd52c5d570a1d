import MapReplica.Proofs.Update.Orderly
import MapReplica.Proofs.Update.Preparation

/-!
# Safety of commits

As long as nobody else writes the progress text of a project, what a manager knows of it
is what lies in the object store. So every commit replaces a text by one whose number is
the next, and comes right after a complete attempt at that number.
-/

namespace MapReplica.Update

open Dialogue

/--
What was said so far, and the texts that were the progress text of a project, the newest
first.
-/
structure Scene where
  past : List (Exchange collaborators)
  texts : List Bytes

/--
What an answer makes of the progress texts of a project if nobody else writes them. A put
that failed may have taken effect.
-/
def Writes (project : String) (texts : List Bytes) :
    (question : Inquiry) → question.Answer → List Bytes → Prop
  | .getObject key, (answer : Except Failure Bytes), after =>
      after = texts ∧
        ∀ body, key = Progress.keyOf project → answer = .ok body → texts.head? = some body
  | .putObject key body, (answer : Except Failure Unit), after =>
      (key = Progress.keyOf project ∧ after = body :: texts) ∨
        ((key = Progress.keyOf project → answer.toBool = false) ∧ after = texts)
  | _, _, after => after = texts

/-- Collaborators that answer anything, but let nobody else write the progress text of a project. -/
def alone (project : String) : Surroundings collaborators Scene :=
  fun scene question answer after =>
    after.past = scene.past ++ [⟨question, answer⟩] ∧
      Writes project scene.texts question answer after.texts

/-- Each text has the number after that of the text before it. -/
def Consecutive (texts : List Bytes) : Prop :=
  texts.IsChain fun newer older => ∃ sequence, Progress.numberOf? older = some sequence ∧
    Progress.numberOf? newer = some (sequence + 1)

/-- The text that is known after some exchanges is the newest. -/
def Faithful (project : String) (past : List (Exchange collaborators))
    (texts : List Bytes) : Prop :=
  ∀ body, phaseOf project past = .knows body → texts.head? = some body

variable {setup : Setup} {order : Manager} {feeds : Set String} {project : String}
variable {past : List (Exchange collaborators)} {texts after : List Bytes} {question : Inquiry}
variable {answer : question.Answer}

/-- Only a put of its own key changes the texts of a project. -/
theorem same_of_writes (spares : ∀ body, question ≠ .putObject (Progress.keyOf project) body)
    (writes : Writes project texts question answer after) : after = texts := by
  cases question with
  | getObject key => exact writes.1
  | putObject key body =>
      rcases writes with ⟨rfl, -⟩ | ⟨-, same⟩
      · exact (spares body rfl).elim
      · exact same
  | _ => exact writes

theorem faithful_of_writes (faithful : Faithful project past texts)
    (writes : Writes project texts question answer after) :
    Faithful project (past ++ [⟨question, answer⟩]) after := by
  intro body phase
  rw [phaseOf_append_singleton] at phase
  cases question with
  | reserve _ =>
      obtain ⟨failure⟩ | ⟨⟨⟩⟩ := answer
      · cases phase
      · cases phase
  | release _ => cases phase
  | getObject key =>
      obtain ⟨rfl, current⟩ := writes
      cases answer with
      | error failure => exact faithful body phase
      | ok read =>
          by_cases own : key = Progress.keyOf project
          · cases (if_pos own).symm.trans phase
            exact current body own rfl
          · exact faithful body ((if_neg own).symm.trans phase)
  | putObject key written =>
      rcases writes with ⟨own, rfl⟩ | ⟨failed, rfl⟩
      · replace phase := (if_pos own).symm.trans phase
        cases answer with
        | error failure => cases phase
        | ok _ =>
            cases phase
            rfl
      · by_cases own : key = Progress.keyOf project
        · replace phase := (if_pos own).symm.trans phase
          rw [failed own] at phase
          cases phase
        · exact faithful body ((if_neg own).symm.trans phase)
  | _ =>
      cases writes
      exact faithful body phase

/-- What a text that may be written replaces: the newest text has the number before it. -/
theorem replaced_of_orderly {key : String} {body : Bytes}
    (faithful : Faithful order.progress.project past texts) (own : key = order.progress.key)
    (orderly : Orderly setup order feeds past (.putObject key body)) :
    ∃ old sequence feed earlier attempt, texts.head? = some old ∧ feed ∈ feeds ∧
      Progress.numberOf? old = some sequence ∧ Progress.numberOf? body = some (sequence + 1) ∧
      past = earlier ++ attempt ∧ Attempt setup order (sequence + 1) feed attempt := by
  rcases orderly with
    ⟨old, sequence, feed, earlier, attempt, _, served, phase, number, next, split,
      attempted⟩ | spares
  · exact ⟨old, sequence, feed, earlier, attempt, faithful old phase, served, number, next, split,
      attempted⟩
  · exact (spares order.progress.project own).elim

/-- What is asked in order keeps the texts consecutive. -/
theorem consecutive_of_writes (faithful : Faithful order.progress.project past texts)
    (orderly : Orderly setup order feeds past question)
    (writes : Writes order.progress.project texts question answer after)
    (consecutive : Consecutive texts) : Consecutive after := by
  cases question with
  | getObject key => exact writes.1 ▸ consecutive
  | putObject key body =>
      rcases writes with ⟨own, rfl⟩ | ⟨_, rfl⟩
      · obtain ⟨old, sequence, feed, earlier, attempt, newest, _, number, next, _⟩ :=
          replaced_of_orderly faithful own orderly
        obtain ⟨older, rfl⟩ := List.head?_eq_some_iff.mp newest
        exact .cons_cons ⟨sequence, number, next⟩ consecutive
      · exact consecutive
  | _ =>
      cases writes
      exact consecutive

/-- What holds at every moment of an orderly run while nobody else writes the progress text. -/
theorem safe_of_leads {α : Type} {dialogue rest : Dialogue collaborators α}
    {wanted : α → List (Exchange collaborators) → Prop} {scene last : Scene}
    (run : Leads (alone order.progress.project) dialogue scene rest last)
    (keeps : dialogue.Keeps recorded (Orderly setup order feeds) wanted scene.past)
    (faithful : Faithful order.progress.project scene.past scene.texts)
    (consecutive : Consecutive scene.texts) :
    rest.Keeps recorded (Orderly setup order feeds) wanted last.past ∧
      Faithful order.progress.project last.past last.texts ∧ Consecutive last.texts := by
  induction run with
  | start dialogue scene => exact ⟨keeps, faithful, consecutive⟩
  | step answered _ ih =>
      obtain ⟨past, writes⟩ := answered
      refine ih (keeps.2 _ _ past) ?_ (consecutive_of_writes faithful keeps.1 writes consecutive)
      rw [past]
      exact faithful_of_writes faithful writes

/--
Commit safety. However the collaborators answer in a session of a prepared manager, and
however often a drive fails, nobody else writing the progress text: the texts that it
ever was are consecutive, and a text is written only over one with the number before it,
right after a complete attempt at its number with the feed of one of the drives.
-/
theorem commit_replaces_predecessor_after_attempt {targets : List Upload.Target}
    {entities : List Entity} {limit : Option Nat} {before manager : Manager}
    {preparation : List (Exchange collaborators)}
    (prepares : Ends ((prepare setup project entities targets limit).starting before) preparation
      (.ok (), manager))
    {drives : List Drive} {first : Option Bytes} {scene : Scene}
    {rest : Dialogue collaborators (Except Failure Unit × Manager)}
    (run : Leads (alone project) ((session setup drives).starting manager) ⟨[], first.toList⟩ rest
      scene) :
    Prepared setup project entities targets manager ∧ Consecutive scene.texts ∧
      ∀ body next,
        rest = .ask (P := collaborators) (.putObject (Progress.keyOf project) body) next →
          ∃ old sequence feed earlier attempt, scene.texts.head? = some old ∧
            Progress.numberOf? old = some sequence ∧
            Progress.numberOf? body = some (sequence + 1) ∧ feed ∈ drives.map Drive.feed ∧
            scene.past = earlier ++ attempt ∧
            Attempt setup manager (sequence + 1) feed attempt := by
  have prepared := (prepared_of_ends prepares).1
  obtain rfl := prepared.project
  have served : ∀ drive ∈ drives, drive.feed ∈ {feed | feed ∈ drives.map Drive.feed} :=
    fun drive member => List.mem_map_of_mem member
  have alone : Consecutive first.toList := by
    cases first with
    | none => exact .nil
    | some text => exact .singleton text
  have orderly : ((session setup drives).starting manager).Keeps recorded
      (Orderly setup manager {feed | feed ∈ drives.map Drive.feed})
      (Outside manager (Free manager)) [] :=
    orderly_session served (.refl manager) rfl
  obtain ⟨keeps, faithful, consecutive⟩ :=
    safe_of_leads run orderly (fun _ known => Phase.noConfusion known) alone
  refine ⟨prepared, consecutive, ?_⟩
  rintro body next rfl
  obtain ⟨old, sequence, feed, earlier, attempt, newest, served, number, next, split, attempted⟩ :=
    replaced_of_orderly faithful rfl keeps.1
  exact ⟨old, sequence, feed, earlier, attempt, newest, number, next, served, split, attempted⟩

/-! ## A session -/

/--
Collaborators that do all that they are asked. Every object is the newest text, and the
feed is at 2.
-/
def obliging (texts : List Bytes) : (question : Inquiry) → question.Answer
  | .bucketExists => (.ok true : Except Failure Bool)
  | .getObject key =>
      match texts with
      | [] => (.error (.objectUnread key "missing") : Except Failure Bytes)
      | newest :: _ => (.ok newest : Except Failure Bytes)
  | .putObject _ _ => (.ok () : Except Failure Unit)
  | .fetch _ _ =>
      (.ok { status := 200, body := Utf8.encode "sequenceNumber=2", complete := true } :
        Except Http.Fault Http.Response)
  | .createDirectory _ => (.ok () : Except FileFault Unit)
  | .writeFile _ _ => (.ok () : Except FileFault Unit)
  | .readFile _ => (.error .notFound : Except FileFault Bytes)
  | .removeFile _ => (.ok () : Except FileFault Unit)
  | .merge _ _ => (.ok () : Except Failure Unit)
  | .applyDiff _ => (.ok () : Except Failure Unit)
  | .importDump _ _ => (.ok () : Except Failure Unit)
  | .terminateTools => ()
  | .startQueue => (.ok () : Except Failure Unit)
  | .stopQueue => (.ok () : Except Failure Unit)
  | .push _ => (.ok () : Except Failure Unit)
  | .reserve _ => (.ok () : Except Failure Unit)
  | .release _ => (.ok () : Except Failure Unit)
  | .isCancelled => false
  | .wait => ()

/-- Obliging collaborators whose objects are all the newest of some texts, with a record. -/
def noting (texts : List Bytes) (question : Inquiry) (past : List (Exchange collaborators)) :
    question.Answer × List (Exchange collaborators) :=
  (obliging texts question, past ++ [Inquiry.answered question (obliging texts question)])

theorem leads_noting {α : Type} (texts : List Bytes) (count : Nat)
    (dialogue : Dialogue collaborators α) (past : List (Exchange collaborators)) :
    Leads recorded dialogue past (dialogue.advance (noting texts) count past).1
      (dialogue.advance (noting texts) count past).2 :=
  leads_advance (fun _ _ => rfl) count dialogue past

/-- The texts after a put that succeeds. -/
def putInto (project : String) (texts : List Bytes) : Inquiry → List Bytes
  | .putObject key body => if key = Progress.keyOf project then body :: texts else texts
  | _ => texts

theorem writes_obliging (project : String) (texts : List Bytes) (question : Inquiry) :
    Writes project texts question (obliging texts question) (putInto project texts question) := by
  cases question with
  | getObject key =>
      refine ⟨rfl, fun body _ read => ?_⟩
      cases texts with
      | nil => cases read
      | cons newest _ =>
          cases read
          rfl
  | putObject key body =>
      by_cases own : key = Progress.keyOf project
      · exact .inl ⟨own, if_pos own⟩
      · exact .inr ⟨fun other => (own other).elim, if_neg own⟩
  | _ => rfl

/-- What a dialogue is about to write into the object store. -/
def putting? {α : Type} : Dialogue collaborators α → Option (String × Bytes)
  | .ask (Inquiry.putObject key body) _ => some (key, body)
  | _ => none

theorem ask_of_putting? {α : Type} {dialogue : Dialogue collaborators α} {key : String}
    {body : Bytes} (putting : putting? dialogue = some (key, body)) :
    ∃ next, dialogue = .ask (P := collaborators) (.putObject key body) next := by
  unfold putting? at putting
  split at putting
  case h_1 key body next =>
    cases putting
    exact ⟨next, rfl⟩
  case h_2 => cases putting

/-- The setup of a project, whose lists of expired tiles go to the object store. -/
def townSetup : Setup :=
  { workDirectory := ⟨"work"⟩, bucket := "maps", listsTiles := true, hasQueue := false
    queueSettings := none }

/-- An entity of the project. -/
def roads : Entity :=
  { id := "roads", script := "roads.lua", zoomLevels := none, areaKey := none }

/-- Another entity of the project. -/
def paths : Entity :=
  { id := "paths", script := "paths.lua", zoomLevels := none, areaKey := none }

/-- The manager that is prepared for the project with the first entity. -/
def townManager : Manager :=
  { progress := { project := "town" }
    resources := [("town/roads.lua", .script ⟨"work/town/roads.lua"⟩)]
    entities := [roads]
    dispatcher := some { toStore := true, toQueue := none } }

/-- A progress text. -/
def firstText : Bytes := Utf8.encode "sequenceNumber=1"

/-- Obliging collaborators whose lists of expired tiles hold one tile, with a record. -/
def expiring (question : Inquiry) (past : List (Exchange collaborators)) :
    question.Answer × List (Exchange collaborators) :=
  let answer : question.Answer :=
    match question with
    | .readFile _ => (.ok (Utf8.encode "1/0/0") : Except FileFault Bytes)
    | question => obliging [firstText] question
  (answer, past ++ [Inquiry.answered question answer])

theorem leads_expiring {α : Type} (count : Nat) (dialogue : Dialogue collaborators α)
    (past : List (Exchange collaborators)) :
    Leads recorded dialogue past (dialogue.advance expiring count past).1
      (dialogue.advance expiring count past).2 :=
  leads_advance (fun _ _ => rfl) count dialogue past

/-- Obliging collaborators, with a record of what was said and the progress texts of a project. -/
def obligingly (project : String) (question : Inquiry) (scene : Scene) : question.Answer × Scene :=
  (obliging scene.texts question,
    ⟨scene.past ++ [Inquiry.answered question (obliging scene.texts question)],
      putInto project scene.texts question⟩)

theorem leads_obligingly {α : Type} (project : String) (count : Nat)
    (dialogue : Dialogue collaborators α) (scene : Scene) :
    Leads (alone project) dialogue scene (dialogue.advance (obligingly project) count scene).1
      (dialogue.advance (obligingly project) count scene).2 :=
  leads_advance (fun question scene => ⟨rfl, writes_obliging project scene.texts question⟩) count
    dialogue scene

/-- The first batch of the project up to its commit. -/
def townBatch : Dialogue collaborators (Except Failure Unit × Manager) × Scene :=
  ((session townSetup [.append "feed"]).starting townManager).advance (P := collaborators)
    (obligingly "town") 12 ⟨[], [firstText]⟩

theorem townBatch_putting : putting? townBatch.1 =
    some (Progress.keyOf "town", Utf8.encode "sequenceNumber=2") := by
  decide +kernel

/-- The manager of the project can be prepared. -/
theorem townManager_prepared : ∃ preparation,
    Ends ((prepare townSetup "town" [roads] [.objectStore] none).starting {}) preparation
      (.ok (), townManager) := by
  have run := leads_noting [firstText] 5
    ((prepare townSetup "town" [roads] [.objectStore] none).starting {}) []
  obtain ⟨exchanges, _, ends⟩ := ends_of_leads run rfl
  exact ⟨exchanges, ends⟩

/-- A batch from 1 to 2 comes to its commit. -/
theorem townBatch_commits_after_attempt :
    ∃ old sequence feed earlier attempt, townBatch.2.texts.head? = some old ∧
      Progress.numberOf? old = some sequence ∧
      Progress.numberOf? (Utf8.encode "sequenceNumber=2") = some (sequence + 1) ∧
      feed ∈ [Drive.append "feed"].map Drive.feed ∧ townBatch.2.past = earlier ++ attempt ∧
      Attempt townSetup townManager (sequence + 1) feed attempt := by
  obtain ⟨preparation, prepares⟩ := townManager_prepared
  obtain ⟨next, asked⟩ := ask_of_putting? townBatch_putting
  have run : Leads (alone "town") ((session townSetup [.append "feed"]).starting townManager)
      ⟨[], (some firstText).toList⟩ townBatch.1 townBatch.2 :=
    leads_obligingly "town" 12 _ _
  exact (commit_replaces_predecessor_after_attempt prepares run).2.2 _ next asked

end MapReplica.Update
