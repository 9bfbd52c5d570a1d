import MapReplica.Proofs.Update.CommitSafety
import MapReplica.Proofs.Update.Courses

/-!
# Limits and counters

A manager counts the puts of its progress text that succeeded, and the commits that it
was prepared for are counted down by them and by nothing else. The limit is that of all
calls after the preparation together: drives never commit more than it allows, and once
it is used up they only look how far the project and its feed are.
-/

namespace MapReplica.Update

open Dialogue

variable {setup : Setup} {manager after between : Manager} {project feed : String}
variable {begins : Manager → Prop} {exchanges front back : List (Exchange collaborators)}

/-! ## Commits -/

/-- The inquiries that write the progress text of a project. -/
def Commits (project : String) : Inquiry → Prop
  | .putObject key _ => key = Progress.keyOf project
  | _ => False

/-- Whether the progress text of a project was written in an exchange. -/
def isCommit (project : String) : Exchange collaborators → Bool
  | ⟨.putObject key _, (answer : Except Failure Unit)⟩ =>
      key == Progress.keyOf project && answer.toBool
  | _ => false

/-- How often the progress text of a project was written. -/
def commitsIn (project : String) (exchanges : List (Exchange collaborators)) : Nat :=
  exchanges.countP (isCommit project)

theorem commitsIn_append :
    commitsIn project (front ++ back) = commitsIn project front + commitsIn project back :=
  List.countP_append

theorem isCommit_of_not_commits {exchange : Exchange collaborators}
    (other : ¬ Commits project exchange.question) : isCommit project exchange = false := by
  obtain ⟨question, answer⟩ := exchange
  cases question with
  | putObject key body =>
      exact Bool.and_eq_false_imp.mpr fun own => absurd (eq_of_beq own) other
  | _ => rfl

/-- Work that does not write the progress text makes no commit. -/
theorem commitsIn_of_asks {α : Type} {dialogue : Dialogue collaborators α} {value : α}
    (asks : dialogue.Asks fun inquiry => ¬ Commits project inquiry)
    (ends : Ends dialogue exchanges value) : commitsIn project exchanges = 0 := by
  rw [commitsIn, List.countP_eq_zero]
  intro exchange member
  rw [isCommit_of_not_commits (asks.of_ends ends exchange member)]
  exact Bool.false_ne_true

theorem not_commits_of_spares {inquiry : Inquiry} (spares : inquiry.SparesProgress) :
    ¬ Commits project inquiry := by
  cases inquiry with
  | putObject key body => exact spares project
  | _ => exact id

theorem not_commits_of_aside {inquiry : Inquiry} (aside : Aside inquiry) :
    ¬ Commits project inquiry := by
  cases aside with
  | _ => exact id

theorem commitsIn_of_closed (closed : Closed setup manager exchanges) :
    commitsIn project exchanges = 0 := by
  unfold Closed at closed
  split at closed
  case isTrue =>
    obtain ⟨answer, rfl⟩ := closed
    rfl
  case isFalse =>
    rw [closed]
    rfl

/-- Writing the progress text of a manager is a commit if it succeeds. -/
theorem commitsIn_commit {body : Bytes} {answer : Except Failure Unit} :
    commitsIn manager.progress.project
        [Inquiry.answered (.putObject manager.progress.key body) answer] =
      if answer.toBool then 1 else 0 := by
  have own : isCommit manager.progress.project
      (Inquiry.answered (.putObject manager.progress.key body) answer) = answer.toBool := by
    show (manager.progress.key == Progress.keyOf manager.progress.project && answer.toBool) = _
    rw [Progress.key, beq_self_eq_true, Bool.true_and]
  rw [commitsIn, List.countP_singleton, own]

theorem commitsIn_of_spares
    (spare : ∀ exchange ∈ exchanges, Inquiry.SparesProgress exchange.question) :
    commitsIn project exchanges = 0 := by
  rw [commitsIn, List.countP_eq_zero]
  intro exchange member
  rw [isCommit_of_not_commits (not_commits_of_spares (spare exchange member))]
  exact Bool.false_ne_true

/-- A cycle counts a commit exactly if its put succeeded. -/
theorem commitsIn_of_ends_appendNext {outcome : Except Failure Unit}
    (ends : Ends ((appendNext setup feed).starting manager) exchanges (outcome, after)) :
    (after = manager ∧ commitsIn manager.progress.project exchanges = 0) ∨
      (after = { manager with progress := manager.progress.advanced.countDown } ∧
        commitsIn manager.progress.project exchanges = 1) := by
  generalize reached : (outcome, after) = result at ends
  cases cycled_of_ends ends with
  | failed works clears =>
      refine .inl ⟨congrArg Prod.snd reached, ?_⟩
      rw [← List.singleton_append, commitsIn_append, commitsIn_append,
        commitsIn_of_spares (spares_of_cycle works), commitsIn_of_spares (spares_of_cleared clears)]
      rfl
  | committed answer works clears =>
      rw [commitsIn_append, commitsIn_append, commitsIn_of_spares (spares_of_cycle works),
        commitsIn_of_spares (spares_of_cleared clears), commitsIn_commit]
      cases answer with
      | error failure => exact .inl ⟨congrArg Prod.snd reached, rfl⟩
      | ok _ => exact .inr ⟨congrArg Prod.snd reached, rfl⟩

/-! ## Counters -/

/-- A manager that was prepared for a number of commits, if the commits left are limited. -/
def Limited (manager : Manager) : Prop :=
  ∀ remaining, manager.progress.remaining = some remaining →
    ∃ requested, manager.progress.requested = some requested ∧ remaining ≤ requested

/-- A manager whose counters say that some commits were made since another. -/
structure Counted (manager : Manager) (count : Nat) (after : Manager) : Prop where
  project : after.progress.project = manager.progress.project
  requested : after.progress.requested = manager.progress.requested
  remaining : after.progress.remaining = manager.progress.remaining.map (· - count)
  commits : after.progress.commits = manager.progress.commits + count

theorem Counted.refl (manager : Manager) : Counted manager 0 manager :=
  ⟨rfl, rfl, by cases manager.progress.remaining <;> rfl, rfl⟩

theorem Counted.trans {first second : Nat} (front : Counted manager first between)
    (back : Counted between second after) : Counted manager (first + second) after := by
  refine ⟨back.project.trans front.project, back.requested.trans front.requested, ?_, ?_⟩
  · rw [back.remaining, front.remaining, Option.map_map]
    refine congrArg (manager.progress.remaining.map ·) (funext fun remaining => ?_)
    exact Nat.sub_sub remaining first second
  · rw [back.commits, front.commits, Nat.add_assoc]

theorem Counted.limited {count : Nat} (counted : Counted manager count after)
    (limited : Limited manager) : Limited after := by
  intro remaining left
  rw [counted.remaining] at left
  obtain ⟨before, some, rfl⟩ := Option.map_eq_some_iff.mp left
  obtain ⟨requested, prepared, fits⟩ := limited before some
  exact ⟨requested, counted.requested.trans prepared, Nat.le_trans (Nat.sub_le before count) fits⟩

theorem Rereads.counted (rereads : Rereads manager after) : Counted manager 0 after := by
  obtain ⟨_, _, _, _, rfl⟩ := rereads
  exact ⟨rfl, rfl, (Counted.refl manager).remaining, rfl⟩

/-- A commit is counted, and counted down if commits are limited. -/
theorem counted_advanced (limited : Limited manager) :
    Counted manager 1 { manager with progress := manager.progress.advanced.countDown } := by
  cases left : manager.progress.remaining with
  | none =>
      have same : manager.progress.advanced.countDown = manager.progress.advanced := by
        simp only [Progress.countDown, Progress.advanced, left]
      rw [same]
      exact ⟨rfl, rfl, by simp [Progress.advanced, left], rfl⟩
  | some remaining =>
      obtain ⟨requested, prepared, -⟩ := limited remaining left
      have down : manager.progress.advanced.countDown =
          { manager.progress.advanced with remaining := some (remaining - 1) } := by
        simp only [Progress.countDown, Progress.advanced, left, prepared]
      rw [down]
      exact ⟨rfl, rfl, by simp [left], rfl⟩

/-- A part of a call makes no commit and leaves the counters, or is a cycle with its commit. -/
theorem commitsIn_part (part : Part setup begins manager exchanges after) :
    (commitsIn manager.progress.project exchanges = 0 ∧ Counted manager 0 after) ∨
      (commitsIn manager.progress.project exchanges = 1 ∧ begins manager ∧
        after = { manager with progress := manager.progress.advanced.countDown }) := by
  cases part with
  | @aside _ exchange aside =>
      refine .inl ⟨?_, .refl manager⟩
      rw [commitsIn, List.countP_singleton, isCommit_of_not_commits (not_commits_of_aside aside)]
      rfl
  | load ends =>
      exact .inl ⟨commitsIn_of_asks (asks_loadBoth id id) ends,
        (rereads_of_ends_loadBoth ends).counted⟩
  | cycle begun ends =>
      rcases commitsIn_of_ends_appendNext ends with ⟨rfl, nothing⟩ | ⟨advanced, one⟩
      · exact .inl ⟨nothing, .refl after⟩
      · exact .inr ⟨one, begun, advanced⟩
  | close closed =>
      exact .inl ⟨commitsIn_of_closed closed, rfl, rfl, (Counted.refl manager).remaining, rfl⟩

/-- The counters say what was committed in a part of a call. -/
theorem counted_of_part (limited : Limited manager)
    (part : Part setup begins manager exchanges after) :
    Counted manager (commitsIn manager.progress.project exchanges) after := by
  rcases commitsIn_part part with ⟨nothing, counted⟩ | ⟨one, -, rfl⟩
  · rw [nothing]
    exact counted
  · rw [one]
    exact counted_advanced limited

/-- The counters say what was committed in a course. -/
theorem counted_of_course (limited : Limited manager)
    (course : Course setup begins manager exchanges after) :
    Counted manager (commitsIn manager.progress.project exchanges) after := by
  induction course with
  | nil manager => exact .refl manager
  | cons part _ ih =>
      have front := counted_of_part limited part
      have back := ih (front.limited limited)
      rw [front.project] at back
      rw [commitsIn_append]
      exact front.trans back

/-- A part that begins no cycle with nothing left to do commits no more than is left. -/
theorem commitsIn_part_le {remaining : Nat} (left : manager.progress.remaining = some remaining)
    (part : Part setup Unfinished manager exchanges after) :
    commitsIn manager.progress.project exchanges ≤ remaining := by
  rcases commitsIn_part part with ⟨nothing, -⟩ | ⟨one, unfinished, -⟩
  · rw [nothing]
    exact Nat.zero_le remaining
  · have limit : (manager.progress.remaining == some 0) = false :=
      (Bool.or_eq_false_iff.mp unfinished).1
    rw [one]
    apply Nat.one_le_iff_ne_zero.mpr
    rintro rfl
    rw [left] at limit
    cases limit

/-- Drives commit no more than is left. -/
theorem commitsIn_course_le {remaining : Nat} (limited : Limited manager)
    (left : manager.progress.remaining = some remaining)
    (course : Course setup Unfinished manager exchanges after) :
    commitsIn manager.progress.project exchanges ≤ remaining := by
  induction course generalizing remaining with
  | nil manager => exact Nat.zero_le remaining
  | @cons manager between after front back part _ ih =>
      have counted := counted_of_part limited part
      have here := commitsIn_part_le left part
      have later : between.progress.remaining =
          some (remaining - commitsIn manager.progress.project front) := by
        rw [counted.remaining, left]
        rfl
      have further := ih (counted.limited limited) later
      rw [counted.project] at further
      rw [commitsIn_append]
      omega

/-! ## Histories -/

/-- The calls that are drives. -/
def Driving {σ : Type} (call : Call) (_ : Manager) (_ : σ) (_ : Except Failure Unit) : Prop :=
  ∃ drive, call = .drive drive

variable {first : Manager} {past : List (Exchange collaborators)}

/-- The counters say what was committed in a history without preparations. -/
theorem counted_of_history (limited : Limited first)
    (history : History recorded setup Unpreparing first [] manager past) :
    Counted first (commitsIn first.progress.project past) manager := by
  induction history with
  | start => exact .refl first
  | call earlier run admitted ih =>
      obtain ⟨exchanges, rfl, ends⟩ := ends_of_leads run rfl
      have further := counted_of_course (ih.limited limited) (course_of_ends_call admitted ends)
      rw [ih.project] at further
      rw [commitsIn_append]
      exact ih.trans further

theorem History.unpreparing (history : History recorded setup Driving first [] manager past) :
    History recorded setup Unpreparing first [] manager past := by
  induction history with
  | start => exact .start
  | call earlier run admitted ih =>
      obtain ⟨drive, rfl⟩ := admitted
      exact .call ih run rfl

/-- Drives commit no more than the limit, all of them together. -/
theorem commitsIn_history_le {allowed : Nat} (limited : Limited first)
    (limit : first.progress.remaining = some allowed)
    (history : History recorded setup Driving first [] manager past) :
    commitsIn first.progress.project past ≤ allowed := by
  induction history with
  | start => exact Nat.zero_le allowed
  | @call manager after state last call outcome earlier run admitted ih =>
      obtain ⟨drive, rfl⟩ := admitted
      obtain ⟨exchanges, rfl, ends⟩ := ends_of_leads run rfl
      have counted := counted_of_history limited earlier.unpreparing
      have left : manager.progress.remaining =
          some (allowed - commitsIn first.progress.project state) := by
        rw [counted.remaining, limit]
        rfl
      have further := commitsIn_course_le (counted.limited limited) left (course_of_ends_work ends)
      rw [counted.project] at further
      rw [commitsIn_append]
      omega

/-- A call that prepares nothing begins no cycle with more commits left than were asked for. -/
theorem limited_course {call : Call} (limited : Limited manager)
    (unprepared : call.assignment? = none) {result : Except Failure Unit × Manager}
    (ends : Ends ((call.work setup).starting manager) exchanges result) :
    Course setup Limited manager exchanges result.2 := by
  obtain ⟨within, -⟩ := (course_of_ends_call unprepared ends).invariant limited
    fun _ _ _ part limited => (counted_of_part limited part).limited limited
  exact within.mono fun _ kept => kept.2

/--
At no moment of a further drive were more commits made than the limit: however the drive goes
on, it ends with no more.
-/
theorem commitsIn_leads_le {allowed : Nat} (limited : Limited first)
    (limit : first.progress.remaining = some allowed)
    (driven : History recorded setup Driving first [] manager past) {drive : Drive}
    {rest : Dialogue collaborators (Except Failure Unit × Manager)}
    {last : List (Exchange collaborators)}
    (run : Leads recorded ((drive.work setup).starting manager) past rest last) :
    commitsIn first.progress.project last ≤ allowed := by
  obtain ⟨later, ⟨outcome, after⟩, whole⟩ := run.exists_end (obliging [])
  have called : Leads recorded (((Call.drive drive).work setup).starting manager) past
      (.done (outcome, after)) (last ++ later) := whole
  have history : History recorded setup Driving first [] after (last ++ later) :=
    .call driven called ⟨drive, rfl⟩
  have within := commitsIn_history_le limited limit history
  rw [commitsIn_append] at within
  exact Nat.le_trans (Nat.le_add_right _ _) within

/-- The inquiries of a drive that looks how far a project and its feed are. -/
inductive Looks (project feed : String) : Inquiry → Prop where
  | reserve : Looks project feed (.reserve project)
  | release : Looks project feed (.release project)
  | load : Looks project feed (.getObject (Progress.keyOf project))
  | fetch : Looks project feed (.fetch (Diff.joinUrl feed Feed.stateFile) [])

/-- Once the limit is used up, a batch only looks how far the project and its feed are. -/
theorem looks_append (limit : manager.progress.remaining = some 0) :
    ((append setup feed).starting manager).Asks (Looks manager.progress.project feed) := by
  have finished : ∀ {between : Manager} {cycles : Nat}, between.progress.remaining = some 0 →
      ((appendUpTo setup feed cycles).starting between).Asks
        (Looks manager.progress.project feed) := by
    intro between cycles limit
    cases cycles with
    | zero => trivial
    | succ cycles =>
        have finished : between.progress.isFinished = true := by
          rw [Progress.isFinished, Progress.hasReachedLimit, limit]
          rfl
        rw [appendUpTo, Activity.starting_get_bind, if_pos finished]
        trivial
  apply asks_locked .reserve .release
  apply Activity.asks_bind_of_ends (asks_loadBoth .load .fetch)
  intro exchanges _ between ends
  rw [Activity.starting_get_bind]
  apply finished
  rw [(rereads_of_ends_loadBoth ends).counted.remaining, limit]
  rfl

/-- Once the limit is used up, a step does nothing. -/
theorem looks_step (limit : manager.progress.remaining = some 0) :
    ((step setup feed).starting manager).Asks (Looks manager.progress.project feed) := by
  have reached : manager.progress.hasReachedLimit = true := by
    rw [Progress.hasReachedLimit, limit]
    rfl
  apply asks_locked .reserve .release
  rw [stepOnce, Activity.starting_get_bind, if_pos reached]
  trivial

variable {entities : List Entity} {targets : List Upload.Target} {limit : Option Nat}
variable {before begun : Manager} {preparation : List (Exchange collaborators)}

/-- A preparation asks for the limit and leaves as many commits. -/
theorem limited_of_prepares
    (prepares : Ends ((prepare setup project entities targets limit).starting before) preparation
      (.ok (), begun)) :
    begun.progress.project = project ∧ begun.progress.requested = limit ∧
      begun.progress.remaining = limit ∧ Limited begun := by
  have start := (prepared_of_ends prepares).2
  have asked : begun.progress.requested = limit := congrArg Progress.requested start
  have left : begun.progress.remaining = limit := congrArg Progress.remaining start
  refine ⟨congrArg Progress.project start, asked, left, fun remaining own => ?_⟩
  exact ⟨remaining, asked.trans (left.symm.trans own), Nat.le_refl remaining⟩

/--
Limit and counters. After a preparation, whatever was called and however it ended: the
commits that are left are those asked for less the puts of the progress text that
succeeded, the commits are counted by these puts, and no cycle begins with more commits
left than were asked for. Drives alone never commit more than the limit, at no moment and
all together; and once it is used up, a batch or a step asks for the lock and how far the
project and its feed are, and for nothing else.
-/
theorem limit_bounds_history
    (prepares : Ends ((prepare setup project entities targets limit).starting before) preparation
      (.ok (), begun))
    (history : History recorded setup Unpreparing begun [] manager past) :
    (manager.progress.requested = limit ∧
      manager.progress.remaining =
        limit.map (fun allowed => allowed - min (commitsIn project past) allowed) ∧
      manager.progress.commits = begun.progress.commits + commitsIn project past) ∧
    (∀ call : Call, call.assignment? = none → ∀ exchanges result,
      Ends ((call.work setup).starting manager) exchanges result →
        Course setup Limited manager exchanges result.2) ∧
    ∀ allowed, limit = some allowed →
      (History recorded setup Driving begun [] manager past → ∀ (drive : Drive) rest last,
        Leads recorded ((drive.work setup).starting manager) past rest last →
          commitsIn project last ≤ allowed) ∧
      (allowed ≤ commitsIn project past → ∀ feed,
        ((append setup feed).starting manager).Asks (Looks project feed) ∧
          ((step setup feed).starting manager).Asks (Looks project feed)) := by
  obtain ⟨rfl, asked, left, limited⟩ := limited_of_prepares prepares
  have counted := counted_of_history limited history
  refine ⟨⟨counted.requested.trans asked, ?_, counted.commits⟩,
    fun call unprepared _ _ ends => limited_course (counted.limited limited) unprepared ends, ?_⟩
  · rw [counted.remaining, left]
    refine congrArg (limit.map ·) (funext fun allowed => ?_)
    omega
  · rintro allowed rfl
    refine ⟨fun driven _ _ _ run => commitsIn_leads_le limited left driven run,
      fun spent feed => ?_⟩
    have none : manager.progress.remaining = some 0 := by
      rw [counted.remaining, left, Option.map_some, Nat.sub_eq_zero_of_le spent]
    rw [← counted.project]
    exact ⟨looks_append none, looks_step none⟩

/-- The manager that is prepared for a single commit of the town. -/
def singleManager : Manager :=
  { townManager with
    progress := { project := "town", remaining := some 1, requested := some 1 } }

theorem singleManager_prepared : ∃ preparation,
    Ends ((prepare townSetup "town" [roads] [.objectStore] (some 1)).starting {}) preparation
      (.ok (), singleManager) := by
  have run := leads_noting [firstText] 5
    ((prepare townSetup "town" [roads] [.objectStore] (some 1)).starting {}) []
  obtain ⟨exchanges, _, ends⟩ := ends_of_leads run rfl
  exact ⟨exchanges, ends⟩

/-- A batch of the town with a limit of one commit. -/
def singleBatch : Dialogue collaborators (Except Failure Unit × Manager) ×
    List (Exchange collaborators) :=
  (((Call.drive (.append "feed")).work townSetup).starting singleManager).advance
    (P := collaborators) (noting [firstText]) 20 []

/-- After its only commit the manager asks for the lock and how far its feed is, and no more. -/
theorem singleBatch_uses_limit : ∃ outcome manager,
    singleBatch.1 = .done (outcome, manager) ∧ commitsIn "town" singleBatch.2 = 1 ∧
      manager.progress.remaining = some 0 ∧ manager.progress.commits = 1 ∧
      ((append townSetup "feed").starting manager).Asks (Looks "town" "feed") ∧
      ∀ (drive : Drive) rest last,
        Leads recorded ((drive.work townSetup).starting manager) singleBatch.2 rest last →
          commitsIn "town" last ≤ 1 := by
  obtain ⟨preparation, prepares⟩ := singleManager_prepared
  have ended : singleBatch.1.value?.isSome = true := by decide +kernel
  obtain ⟨⟨outcome, manager⟩, value⟩ := Option.isSome_iff_exists.mp ended
  have done := eq_done_of_value? value
  have committed : commitsIn "town" singleBatch.2 = 1 := by decide +kernel
  have run : Leads recorded (((Call.drive (.append "feed")).work townSetup).starting singleManager)
      [] singleBatch.1 singleBatch.2 :=
    leads_noting [firstText] 20 _ []
  rw [done] at run
  have driven : History recorded townSetup Driving singleManager [] manager singleBatch.2 :=
    .call .start run ⟨_, rfl⟩
  obtain ⟨⟨-, left, commits⟩, -, limit⟩ := limit_bounds_history prepares driven.unpreparing
  obtain ⟨bound, looks⟩ := limit 1 rfl
  rw [committed] at left commits looks
  exact ⟨outcome, manager, done, committed, left, commits, (looks (Nat.le_refl 1) "feed").1,
    bound driven⟩

end MapReplica.Update
