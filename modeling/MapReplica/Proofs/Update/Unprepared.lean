import MapReplica.Proofs.Update.Calls
import MapReplica.Proofs.Update.CommitSafety

/-!
# Managers that were never prepared

A preparation that a check refuses leaves no trace. One that fails later leaves a manager
that is at work on the project, but has no entities: its next cycle applies nothing and
can be committed. So a manager that was never prepared well writes no progress text of a
project exactly if no preparation for this project came further than its checks.
-/

namespace MapReplica.Update

open Dialogue

/-- A preparation that fails by the checks with which it begins. -/
def Assignment.Refused (setup : Setup) (assignment : Assignment) : Prop :=
  ∃ failure, checkAll setup assignment.entities assignment.targets assignment.limit =
    .error failure

/-- Every call that prepares is one of some assignments, and fails. -/
def Failing {σ : Type} (assignments : Set Assignment) (call : Call) (_ : Manager) (_ : σ)
    (outcome : Except Failure Unit) : Prop :=
  ∀ assignment, call = .prepare assignment → assignment ∈ assignments ∧ outcome.toBool = false

variable {setup : Setup} {assignments : Set Assignment} {project : String}
variable {manager : Manager} {past : List (Exchange collaborators)}

/-! ## Managers of other projects -/

/-- A call keeps a manager away from a project unless it prepares the manager for it. -/
theorem keeps_elsewhere {call : Call} {outcome : Except Failure Unit}
    (refused : ∀ assignment ∈ assignments, assignment.project = project →
      assignment.Refused setup)
    (admitted : Failing assignments call manager past outcome)
    (elsewhere : manager.progress.project ≠ project) :
    ((call.work setup).starting manager).Keeps recorded (fun _ _ => True)
      (fun result _ => result.1 = outcome → result.2.progress.project ≠ project) past := by
  cases prepared : call.assignment? with
  | none =>
      apply (keeps_same_call prepared (.refl manager)).mono
      intro result now same _
      rwa [same.project]
  | some assignment =>
      obtain ⟨⟩ | _ | _ | _ := call <;> cases prepared
      obtain ⟨member, -⟩ := admitted assignment rfl
      apply keeps_prepare_progress.mono
      intro result now begun _
      split at begun
      case h_1 failure _ =>
        rw [begun]
        exact elsewhere
      case h_2 dispatcher passed =>
        rw [begun]
        intro own
        obtain ⟨failure, fails⟩ := refused assignment member own
        cases passed.symm.trans fails

/-- No call of a manager that is away from a project writes its progress text. -/
theorem asks_elsewhere {call : Call} (elsewhere : manager.progress.project ≠ project) :
    ((call.work setup).starting manager).Asks
      fun inquiry : Inquiry => ∀ body, inquiry ≠ .putObject (Progress.keyOf project) body := by
  cases prepared : call.assignment? with
  | none =>
      apply (asks_call prepared (.refl manager)).mono
      rintro inquiry asked body rfl
      rcases asked.puts with own | spares
      · exact elsewhere (Progress.keyOf_injective own).symm
      · exact spares project rfl
  | some assignment =>
      obtain ⟨⟩ | _ | _ | _ := call <;> cases prepared
      apply asks_prepare.mono
      rintro inquiry asked body rfl
      cases asked with
      | load asked => cases asked

/-! ## Managers without entities -/

/-- Every dialogue can come to its end. -/
theorem exists_ends {α : Type} (dialogue : Dialogue collaborators α) :
    ∃ exchanges value, Ends dialogue exchanges value := by
  obtain ⟨exchanges, value, ends, -⟩ := exists_ends_answering (obliging []) dialogue
  exact ⟨exchanges, value, ends⟩

theorem exists_ends_makeParent (path : Path) :
    ∃ exchanges, Ends (Feed.makeParent path).run exchanges (.ok ()) := by
  unfold Feed.makeParent
  split
  case h_1 => exact ⟨[], Task.ends_pure_ok_iff.mpr ⟨rfl, rfl⟩⟩
  case h_2 => exact ⟨_, ends_answer_iff.mpr ⟨.ok (), rfl, rfl⟩⟩

theorem exists_placed (path : Path) (content : Bytes) :
    ∃ exchanges, Feed.Placed path content exchanges (.ok ()) := by
  cases outer : path.parent? with
  | none => exact ⟨_, .alone outer (.ok ())⟩
  | some directory => exact ⟨_, .inDirectory outer (.ok ())⟩

theorem exists_ends_downloadDiff (feed : String) (sequence : Nat) (destination : Path) :
    ∃ exchanges, Ends (Feed.downloadDiff feed sequence destination).run exchanges (.ok ()) := by
  obtain ⟨exchanges, placed⟩ := exists_placed destination []
  have answered : Feed.Answered (Diff.joinUrl feed (Diff.path sequence))
      (.ok ⟨200, [], true⟩) (.ok ⟨200, [], true⟩) := .accepted (by decide)
  exact ⟨_, Feed.ends_download_iff.mpr (.whole answered placed rfl)⟩

/-- A cycle without entities can do all of its work. -/
theorem exists_ends_cycle (setup : Setup) (bare : manager.entities = []) (feed : String)
    (sequence : Nat) :
    ∃ exchanges, Ends (cycle setup manager feed sequence).run exchanges (.ok ()) := by
  obtain ⟨fetched, hdownload⟩ :=
    exists_ends_downloadDiff feed sequence (diffPath setup.workDirectory sequence)
  have uploads : Ends (if setup.listsTiles then uploadAll setup manager sequence
      else pure () : Task Unit).run [] (.ok ()) := by
    unfold uploadAll
    split
    case isTrue =>
      split
      case h_1 => exact .done _
      case h_2 dispatcher _ =>
        split
        case isTrue => exact .done _
        case isFalse =>
          rw [bare]
          exact .done _
    case isFalse => exact .done _
  have merges : Ends (Task.merge (diffPath setup.workDirectory sequence)
      (mergedPath setup.workDirectory sequence)).run _ (.ok ()) := ends_question_iff.mpr rfl
  have applies : Ends (Task.forEach manager.entities (applyTo setup manager sequence
      (mergedPath setup.workDirectory sequence))).run [] (.ok ()) := by
    rw [bare]
    exact .done _
  exact ⟨_, Task.ends_bind_ok hdownload
    (Task.ends_bind_ok merges (Task.ends_bind_ok applies uploads))⟩

/-- A cycle without entities can come to its commit. -/
theorem exists_commit (setup : Setup) (bare : manager.entities = []) (feed : String)
    (past : List (Exchange collaborators)) :
    ∃ next last, Leads recorded ((appendNext setup feed).starting manager) past
      (.ask (P := collaborators) (.putObject manager.progress.key
        (Utf8.encodeChars manager.progress.nextContent)) next) last := by
  obtain ⟨worked, hcycle⟩ := exists_ends_cycle setup bare feed manager.progress.next
  obtain ⟨cleared, outcome, hclean⟩ := exists_ends (cleanUp setup manager (.ok ())).run
  obtain rfl := ok_of_ends_cleanUp hclean
  rw [starting_appendNext]
  exact ⟨_, _, (leads_of_ends hcycle).bind.trans (leads_of_ends hclean).bind⟩

/-- A preparation that passes its checks can fail and leave the manager at work on the project. -/
theorem exists_failing_prepare {assignment : Assignment} {dispatcher : Upload.Dispatcher}
    (passed : checkAll setup assignment.entities assignment.targets assignment.limit =
      .ok dispatcher) :
    ∃ last, Leads recorded (((Call.prepare assignment).work setup).starting manager) past
      (.done (.error (.bucketMissing setup.bucket), { manager with
        progress := manager.progress.begun assignment.project assignment.limit })) last := by
  have ends : Ends (((Call.prepare assignment).work setup).starting manager)
      [Inquiry.answered (.createDirectory (Progress.directoryOf setup.workDirectory
        assignment.project)) (Except.ok ()), Inquiry.answered .bucketExists (Except.ok false)]
      (.error (.bucketMissing setup.bucket), { manager with
        progress := manager.progress.begun assignment.project assignment.limit }) := by
    rw [Call.work, starting_prepare, passed]
    exact .ask (.ask (.done _))
  exact ⟨_, leads_of_ends ends⟩

/-! ## What is written -/

/--
A manager of which every preparation was one of some assignments and failed never comes to
write the progress text of a project exactly if the project has a name and each of these
assignments that is for it is refused by a check.
-/
theorem writes_nothing_unprepared_iff :
    (∀ manager past, History recorded setup (Failing assignments) .fresh [] manager past →
      ∀ call rest last, Leads recorded ((Call.work setup call).starting manager) past rest last →
        ∀ body next,
          rest ≠ .ask (P := collaborators) (.putObject (Progress.keyOf project) body) next) ↔
      project ≠ "" ∧
        ∀ assignment ∈ assignments, assignment.project = project → assignment.Refused setup := by
  constructor
  · intro never
    have bare : ∀ manager past, History recorded setup (Failing assignments) .fresh [] manager past →
        manager.entities = [] → manager.progress.project ≠ project := by
      rintro manager past history bare rfl
      obtain ⟨next, last, run⟩ := exists_commit setup bare "" past
      exact never manager past history (.next "") _ last run _ next rfl
    constructor
    · rintro rfl
      exact bare .fresh [] .start rfl rfl
    · intro assignment member own
      cases passed : checkAll setup assignment.entities assignment.targets assignment.limit with
      | error failure => exact ⟨failure, passed⟩
      | ok dispatcher =>
          exfalso
          obtain ⟨past, fails⟩ : ∃ last, Leads recorded
              (((Call.prepare assignment).work setup).starting .fresh) [] _ last :=
            exists_failing_prepare passed
          have admitted : Failing assignments (.prepare assignment) .fresh
              ([] : List (Exchange collaborators)) (.error (.bucketMissing setup.bucket)) := by
            rintro _ ⟨⟩
            exact ⟨member, rfl⟩
          exact bare _ past (.call .start fails admitted) rfl own
  · rintro ⟨named, refused⟩ manager past history call rest last run body next rfl
    have elsewhere : manager.progress.project ≠ project := by
      apply history.invariant named.symm
      intro call manager past outcome admitted elsewhere
      exact keeps_elsewhere refused admitted elsewhere
    exact ((asks_elsewhere elsewhere).leads run).1 body rfl

/-! ## A commit without a script -/

/-- What the manager of the town is to be prepared for. -/
def townAssignment : Assignment :=
  { project := "town", entities := [roads], targets := [.objectStore], limit := none }

/-- The preparation for the town while its script is missing. -/
def townRefusal : Dialogue collaborators (Except Failure Unit × Manager) ×
    List (Exchange collaborators) :=
  (((Call.prepare townAssignment).work townSetup).starting .fresh).advance
    (P := collaborators) (noting []) 3 []

/-- The manager that is left by this preparation. -/
def townBare : Manager := { progress := { project := "town" } }

/-- A batch with this manager, up to its commit. -/
def townBareBatch : Dialogue collaborators (Except Failure Unit × Manager) ×
    List (Exchange collaborators) :=
  (((Call.drive (.append "feed")).work townSetup).starting townBare).advance
    (P := collaborators) (noting [firstText]) 9 townRefusal.2

/-- Whether a diff was applied in an exchange. -/
def isApplied (exchange : Exchange collaborators) : Bool :=
  match exchange.question with
  | Inquiry.applyDiff _ => true
  | _ => false

/--
While the script of the town is missing, its manager cannot be prepared, and the next
batch commits the next number without having applied anything.
-/
theorem townBareBatch_commits_unapplied :
    ∃ manager past, History recorded townSetup (Failing {townAssignment}) .fresh [] manager past ∧
      ∃ next last, Leads recorded (((Call.drive (.append "feed")).work townSetup).starting manager)
        past (.ask (P := collaborators) (.putObject (Progress.keyOf "town")
          (Utf8.encode "sequenceNumber=2")) next) last ∧
        last.all (fun exchange => !isApplied exchange) = true := by
  have fails : Leads recorded (((Call.prepare townAssignment).work townSetup).starting .fresh) []
      (.done (.error (.resourceMissing "town/roads.lua"
        "Failed to get object 'town/roads.lua': missing"), townBare)) townRefusal.2 :=
    leads_noting [] 3 _ []
  have admitted : Failing {townAssignment} (.prepare townAssignment) .fresh
      ([] : List (Exchange collaborators)) (.error (.resourceMissing "town/roads.lua"
        "Failed to get object 'town/roads.lua': missing")) := by
    rintro _ ⟨⟩
    exact ⟨rfl, rfl⟩
  have putting : putting? townBareBatch.1 =
      some (Progress.keyOf "town", Utf8.encode "sequenceNumber=2") := by decide +kernel
  obtain ⟨next, asked⟩ := ask_of_putting? putting
  refine ⟨townBare, townRefusal.2, .call .start fails admitted, next, townBareBatch.2, ?_, ?_⟩
  · rw [← asked]
    exact leads_noting [firstText] 9 _ _
  · decide +kernel

end MapReplica.Update
