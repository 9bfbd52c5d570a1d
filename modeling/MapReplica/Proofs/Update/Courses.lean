import MapReplica.Proofs.Update.Calls

/-!
# Courses of drives

What a drive asks from its start to its end, as equations and as a grammar. Work within
the lock lies between taking the lock and giving it back, and rounds are steps that are
kept apart by the question whether the work was asked to end. So a complete run of a
drive is a course of single exchanges, loads and cycles, and a drive begins a cycle only
with a manager that has something left to do.
-/

namespace MapReplica.Update

open Dialogue

variable {setup : Setup} {manager after : Manager} {feed : String} {α : Type}
variable {exchanges : List (Exchange collaborators)}

/-! ## Equations -/

/-- The outcome of work and of giving the lock back. -/
def settled (outcome : Except Failure α) (released : Except Failure Unit) : Except Failure α :=
  match outcome, released with
  | .error failure, _ => .error failure
  | .ok _, .error failure => .error failure
  | .ok value, .ok () => .ok value

/-- What follows the work within the lock: the lock is given back, whatever the work came to. -/
def givingBack (project : String) (result : Except Failure α × Manager) :
    Dialogue collaborators (Except Failure α × Manager) :=
  .ask (P := collaborators) (.release project) fun released =>
    .done (settled result.1 released, result.2)

theorem starting_locked {work : Activity Manager α} :
    (locked work).starting manager =
      .ask (P := collaborators) (.reserve manager.progress.project)
        fun (reserved : Except Failure Unit) =>
          match reserved with
          | .error failure => .done (.error failure, manager)
          | .ok _ => work.starting manager >>= givingBack manager.progress.project := by
  simp only [locked, Activity.starting_bind, Activity.starting_get, done_bind,
    Activity.starting_task, Activity.starting_attempt, Activity.starting_taskAttempt,
    Dialogue.bind_assoc]
  refine congrArg (Dialogue.ask (P := collaborators) _) (funext fun reserved => ?_)
  obtain failure | ⟨⟨⟩⟩ := reserved
  · rfl
  refine congrArg (work.starting manager >>= ·) (funext fun result => ?_)
  refine congrArg (Dialogue.ask (P := collaborators) _) (funext fun released => ?_)
  obtain ⟨outcome, after⟩ := result
  cases outcome with
  | error failure => rfl
  | ok value => cases released <;> rfl

/-- How rounds go on after a step. -/
def afterStep (rest : Manager → Dialogue collaborators (Except Failure Rounds × Manager))
    (result : Except Failure Outcome × Manager) :
    Dialogue collaborators (Except Failure Rounds × Manager) :=
  match result.1 with
  | .ok .appended => rest result.2
  | .ok .limitReached => .done (.ok .ended, result.2)
  | .ok .upToDate => .ask (P := collaborators) .wait fun _ => rest result.2
  | .error _ => .ask (P := collaborators) .wait fun _ => rest result.2

theorem starting_rounds_succ {horizon : Nat} :
    (rounds setup feed (horizon + 1)).starting manager =
      .ask (P := collaborators) .isCancelled fun (cancelled : Bool) =>
        if cancelled then .done (.ok .ended, manager)
        else (step setup feed).starting manager >>=
          afterStep (rounds setup feed horizon).starting := by
  rw [rounds, Activity.starting_bind]
  refine congrArg (Dialogue.ask (P := collaborators) _) (funext fun cancelled => ?_)
  cases cancelled with
  | true => rfl
  | false =>
      show Activity.starting (_ >>= _) manager = _
      rw [Activity.starting_bind, Activity.starting_attempt, Dialogue.bind_assoc]
      refine congrArg ((step setup feed).starting manager >>= ·) (funext fun result => ?_)
      obtain ⟨failure | ⟨⟨⟩ | ⟨⟩ | ⟨⟩⟩, after⟩ := result
      · rfl
      · rfl
      · rfl
      · rfl

/-- A manager whose queue was stopped. -/
def Manager.stopped (manager : Manager) : Manager :=
  { manager with queueStarted := false }

/-- The end of the work of a manager: tools are ended, and a queue that was started is stopped. -/
def closing (setup : Setup) (manager : Manager) (rest : Dialogue collaborators α) :
    Dialogue collaborators α :=
  .ask (P := collaborators) .terminateTools fun _ =>
    if manager.queueStarted && setup.hasQueue then
      .ask (P := collaborators) .stopQueue fun _ => rest
    else rest

theorem closing_bind {β : Type} {dialogue : Dialogue collaborators α}
    {rest : α → Dialogue collaborators β} :
    (closing setup manager dialogue >>= rest) = closing setup manager (dialogue >>= rest) := by
  refine congrArg (Dialogue.ask (P := collaborators) _) (funext fun _ => ?_)
  split
  · rfl
  · rfl

theorem starting_stop :
    (stop setup).starting manager = closing setup manager (.done (.ok (), manager.stopped)) := by
  rw [stop, Activity.starting_bind]
  refine congrArg (Dialogue.ask (P := collaborators) _) (funext fun _ => ?_)
  obtain ⟨progress, resources, entities, dispatcher, started⟩ := manager
  obtain ⟨workDirectory, bucket, listsTiles, hasQueue, queueSettings⟩ := setup
  cases started with
  | false => rfl
  | true =>
      cases hasQueue with
      | false => rfl
      | true => rfl

/-- What follows rounds: if they ended, the work ends. -/
def afterRounds (setup : Setup) (result : Except Failure Rounds × Manager) :
    Dialogue collaborators (Except Failure Rounds × Manager) :=
  match result.1 with
  | .ok .ended => closing setup result.2 (.done (.ok .ended, result.2.stopped))
  | _ => .done result

theorem starting_forever {horizon : Nat} :
    (forever setup feed horizon).starting manager =
      (rounds setup feed horizon).starting manager >>= afterRounds setup := by
  rw [forever, Activity.starting_bind]
  refine congrArg ((rounds setup feed horizon).starting manager >>= ·) (funext fun result => ?_)
  obtain ⟨failure | ⟨⟨⟩ | ⟨⟩⟩, after⟩ := result
  · rfl
  · show Activity.starting (_ >>= _) after = _
    rw [Activity.starting_bind, starting_stop, closing_bind]
    rfl
  · rfl

/-! ## Loads -/

/-- A manager that has read other texts than another, and is the same otherwise. -/
def Rereads (manager after : Manager) : Prop :=
  ∃ content start current remote,
    after = { manager with progress := { manager.progress with content, start, current, remote } }

theorem Rereads.refl (manager : Manager) : Rereads manager manager :=
  ⟨_, _, _, _, rfl⟩

theorem Rereads.trans {first second third : Manager} (front : Rereads first second)
    (back : Rereads second third) : Rereads first third := by
  obtain ⟨_, _, _, _, rfl⟩ := front
  obtain ⟨_, _, _, _, rfl⟩ := back
  exact ⟨_, _, _, _, rfl⟩

theorem Rereads.sameOrder (rereads : Rereads manager after) : SameOrder manager after := by
  obtain ⟨_, _, _, _, rfl⟩ := rereads
  exact ⟨rfl, rfl, rfl, rfl⟩

theorem rereads_readProject {answer : Except Failure Bytes} :
    Rereads manager { manager with progress := (readProject manager.progress answer).2 } := by
  unfold readProject
  split
  · exact .refl manager
  · split
    · exact .refl manager
    · split
      · exact .refl manager
      · exact ⟨_, _, _, _, rfl⟩

/-- Loading changes what was read, and nothing else. -/
theorem rereads_of_ends_loadBoth {outcome : Except Failure Unit}
    (ends : Ends ((loadBoth feed).starting manager) exchanges (outcome, after)) :
    Rereads manager after := by
  have loads : ∀ {said outcome' after'},
      Ends ((onProgress Progress.load).starting manager) said (outcome', after') →
        Rereads manager after' := by
    intro said outcome' after' ends
    rw [Activity.starting_onProgress, starting_load] at ends
    obtain ⟨answer, _, _, ends⟩ := ends_ask_iff.mp ends
    cases ends
    exact rereads_readProject
  have fetches : ∀ {between said outcome' after'},
      Ends ((onProgress (Progress.loadRemote feed)).starting between) said (outcome', after') →
        Rereads between after' := by
    intro between said outcome' after' ends
    rw [Activity.starting_onProgress, starting_loadRemote, Dialogue.bind_assoc] at ends
    obtain ⟨_, fetched, _, _, _, ends⟩ := ends_bind_iff.mp ends
    obtain ⟨_, remote, read, _⟩ := readFeed_eq feed between.progress fetched
    rw [done_bind, read] at ends
    cases ends
    exact ⟨_, _, _, _, rfl⟩
  rcases Activity.of_ends_bind ends with ⟨_, -, front⟩ | ⟨_, _, between, _, -, front, back⟩
  · exact loads front
  · exact (loads front).trans (fetches back)

/-! ## Questions -/

/-- Loading asks for the text of the project and for the text of the feed. -/
theorem asks_loadBoth {permitted : Inquiry → Prop}
    (load : permitted (.getObject manager.progress.key))
    (fetch : permitted (.fetch (Diff.joinUrl feed Feed.stateFile) [])) :
    ((loadBoth feed).starting manager).Asks permitted := by
  apply Activity.asks_bind
  · rw [Activity.starting_onProgress, starting_load]
    exact ⟨load, fun _ => trivial⟩
  · intro _ after
    rw [Activity.starting_onProgress, starting_loadRemote, Dialogue.bind_assoc]
    exact (asks_state fetch).bind fun _ => trivial

theorem asks_locked {permitted : Inquiry → Prop} {work : Activity Manager α}
    (reserve : permitted (.reserve manager.progress.project))
    (release : permitted (.release manager.progress.project))
    (works : (work.starting manager).Asks permitted) :
    ((locked work).starting manager).Asks permitted := by
  rw [starting_locked]
  refine ⟨reserve, fun reserved => ?_⟩
  cases reserved with
  | error failure => trivial
  | ok _ => exact works.bind fun _ => ⟨release, fun _ => trivial⟩

theorem asks_afterRounds {permitted : Inquiry → Prop} {result : Except Failure Rounds × Manager}
    (terminate : permitted .terminateTools) (stopQueue : permitted .stopQueue) :
    (afterRounds setup result).Asks permitted := by
  unfold afterRounds
  split
  · refine ⟨terminate, fun _ => ?_⟩
    split
    case isTrue => exact ⟨stopQueue, fun _ => trivial⟩
    case isFalse => trivial
  · trivial

/-! ## Rounds -/

/-- The outcomes of a step after which rounds wait before they go on. -/
def Pauses : Except Failure Outcome → Prop
  | .error _ => True
  | .ok outcome => outcome = .upToDate

/--
The complete runs of rounds. Before every step it is asked whether the work is to end, and
after one that failed or had nothing to do the next step is waited for.
-/
inductive Rounded (setup : Setup) (feed : String) :
    Nat → Manager → List (Exchange collaborators) → Rounds → Manager → Prop where
  | cutOff (manager : Manager) : Rounded setup feed 0 manager [] .running manager
  | cancelled (horizon : Nat) (manager : Manager) :
      Rounded setup feed (horizon + 1) manager [Inquiry.answered .isCancelled true] .ended manager
  | limited (horizon : Nat) {manager after : Manager} {said : List (Exchange collaborators)}
      (limited : Ends ((step setup feed).starting manager) said (.ok .limitReached, after)) :
      Rounded setup feed (horizon + 1) manager (Inquiry.answered .isCancelled false :: said) .ended
        after
  | appended {horizon : Nat} {manager between after : Manager} {reached : Rounds}
      {said later : List (Exchange collaborators)}
      (appended : Ends ((step setup feed).starting manager) said (.ok .appended, between))
      (rest : Rounded setup feed horizon between later reached after) :
      Rounded setup feed (horizon + 1) manager
        (Inquiry.answered .isCancelled false :: (said ++ later)) reached after
  | paused {horizon : Nat} {manager between after : Manager} {reached : Rounds}
      {said later : List (Exchange collaborators)} {outcome : Except Failure Outcome}
      (stepped : Ends ((step setup feed).starting manager) said (outcome, between))
      (pauses : Pauses outcome) (rest : Rounded setup feed horizon between later reached after) :
      Rounded setup feed (horizon + 1) manager
        (Inquiry.answered .isCancelled false :: (said ++ Inquiry.answered .wait () :: later))
        reached after

/-- Rounds never fail, and their complete runs are as said. -/
theorem rounded_of_ends {horizon : Nat} {outcome : Except Failure Rounds}
    (ends : Ends ((rounds setup feed horizon).starting manager) exchanges (outcome, after)) :
    ∃ reached, outcome = .ok reached ∧
      Rounded setup feed horizon manager exchanges reached after := by
  induction horizon generalizing manager exchanges with
  | zero =>
      cases ends
      exact ⟨.running, rfl, .cutOff _⟩
  | succ horizon ih =>
      rw [starting_rounds_succ] at ends
      obtain ⟨cancelled, later, rfl, asked⟩ := ends_ask_iff.mp ends
      cases cancelled with
      | true =>
          cases asked
          exact ⟨.ended, rfl, .cancelled _ _⟩
      | false =>
          obtain ⟨said, ⟨stepped, between⟩, rest, rfl, hstep, ends⟩ := ends_bind_iff.mp asked
          have pauses : Pauses stepped → Ends (.ask (P := collaborators) .wait fun _ =>
              (rounds setup feed horizon).starting between) rest (outcome, after) →
              ∃ reached, outcome = .ok reached ∧ Rounded setup feed (horizon + 1) manager
                (Inquiry.answered .isCancelled false :: (said ++ rest)) reached after := by
            intro pauses ends
            obtain ⟨⟨⟩, later, rfl, further⟩ := ends_ask_iff.mp ends
            obtain ⟨reached, rfl, rounded⟩ := ih further
            exact ⟨reached, rfl, .paused hstep pauses rounded⟩
          obtain failure | ⟨⟨⟩ | ⟨⟩ | ⟨⟩⟩ := stepped
          · exact pauses trivial ends
          · obtain ⟨reached, rfl, rounded⟩ := ih ends
            exact ⟨reached, rfl, .appended hstep rounded⟩
          · exact pauses rfl ends
          · cases ends
            rw [List.append_nil]
            exact ⟨.ended, rfl, .limited _ hstep⟩

/--
The exchanges at the end of the work of a manager: its tools are ended, and its queue is
stopped if it was started, whatever comes of it.
-/
def Closed (setup : Setup) (manager : Manager) (exchanges : List (Exchange collaborators)) : Prop :=
  if manager.queueStarted && setup.hasQueue then
    ∃ answer, exchanges =
      [Inquiry.answered .terminateTools (), Inquiry.answered .stopQueue answer]
  else exchanges = [Inquiry.answered .terminateTools ()]

theorem closed_of_ends {rest : α} {value : α}
    (ends : Ends (closing setup manager (.done rest)) exchanges value) :
    value = rest ∧ Closed setup manager exchanges := by
  obtain ⟨⟨⟩, later, rfl, asked⟩ := ends_ask_iff.mp ends
  unfold Closed
  split at asked
  case isTrue stops =>
    obtain ⟨answer, _, rfl, stopped⟩ := ends_ask_iff.mp asked
    obtain ⟨rfl, rfl⟩ := ends_done_iff.mp stopped
    rw [if_pos stops]
    exact ⟨rfl, answer, rfl⟩
  case isFalse stays =>
    obtain ⟨rfl, rfl⟩ := ends_done_iff.mp asked
    rw [if_neg stays]
    exact ⟨rfl, rfl⟩

/-- Continuous work never fails: it is rounds, and the end of the work once these ended. -/
theorem rounded_of_ends_forever {horizon : Nat} {outcome : Except Failure Rounds}
    (ends : Ends ((forever setup feed horizon).starting manager) exchanges (outcome, after)) :
    (outcome = .ok .running ∧ Rounded setup feed horizon manager exchanges .running after) ∨
      ∃ said closed last, outcome = .ok .ended ∧ exchanges = said ++ closed ∧
        after = last.stopped ∧ Rounded setup feed horizon manager said .ended last ∧
        Closed setup last closed := by
  rw [starting_forever] at ends
  obtain ⟨said, ⟨reached, last⟩, closed, rfl, hrounds, ends⟩ := ends_bind_iff.mp ends
  obtain ⟨reached, rfl, rounded⟩ := rounded_of_ends hrounds
  cases reached with
  | running =>
      cases ends
      rw [List.append_nil]
      exact .inl ⟨rfl, rounded⟩
  | ended =>
      obtain ⟨same, closes⟩ := closed_of_ends ends
      cases same
      exact .inr ⟨said, closed, last, rfl, rfl, rfl, rounded, closes⟩

/-! ## Courses -/

/-- The inquiries of single exchanges between loads, cycles and the end of the work. -/
inductive Aside : Inquiry → Prop where
  | reserve (project : String) : Aside (.reserve project)
  | release (project : String) : Aside (.release project)
  | cancelled : Aside .isCancelled
  | wait : Aside .wait

/--
One part of a call: a single exchange, the loads, a cycle with its commit, or the end of
the work. A cycle is begun only with a manager as wanted.
-/
inductive Part (setup : Setup) (begins : Manager → Prop) :
    Manager → List (Exchange collaborators) → Manager → Prop where
  | aside (manager : Manager) {exchange : Exchange collaborators}
      (aside : Aside exchange.question) : Part setup begins manager [exchange] manager
  | load {feed : String} {manager after : Manager} {exchanges : List (Exchange collaborators)}
      {outcome : Except Failure Unit}
      (ends : Ends ((loadBoth feed).starting manager) exchanges (outcome, after)) :
      Part setup begins manager exchanges after
  | cycle {feed : String} {manager after : Manager} {exchanges : List (Exchange collaborators)}
      {outcome : Except Failure Unit} (wanted : begins manager)
      (ends : Ends ((appendNext setup feed).starting manager) exchanges (outcome, after)) :
      Part setup begins manager exchanges after
  | close {manager : Manager} {exchanges : List (Exchange collaborators)}
      (closed : Closed setup manager exchanges) :
      Part setup begins manager exchanges manager.stopped

/-- What was said from one manager to another, part by part. -/
inductive Course (setup : Setup) (begins : Manager → Prop) :
    Manager → List (Exchange collaborators) → Manager → Prop where
  | nil (manager : Manager) : Course setup begins manager [] manager
  | cons {manager between after : Manager} {front back : List (Exchange collaborators)}
      (part : Part setup begins manager front between)
      (rest : Course setup begins between back after) :
      Course setup begins manager (front ++ back) after

section Course

variable {begins wanted : Manager → Prop} {between : Manager}
variable {front back : List (Exchange collaborators)}

theorem Part.mono (part : Part setup begins manager exchanges after)
    (weaken : ∀ manager, begins manager → wanted manager) :
    Part setup wanted manager exchanges after := by
  cases part with
  | aside _ aside => exact .aside _ aside
  | load ends => exact .load ends
  | cycle begun ends => exact .cycle (weaken _ begun) ends
  | close closed => exact .close closed

theorem Course.mono (course : Course setup begins manager exchanges after)
    (weaken : ∀ manager, begins manager → wanted manager) :
    Course setup wanted manager exchanges after := by
  induction course with
  | nil manager => exact .nil manager
  | cons part _ ih => exact .cons (part.mono weaken) ih

theorem Part.course (part : Part setup begins manager exchanges after) :
    Course setup begins manager exchanges after := by
  rw [← List.append_nil exchanges]
  exact .cons part (.nil after)

theorem Course.trans (course : Course setup begins manager front between)
    (further : Course setup begins between back after) :
    Course setup begins manager (front ++ back) after := by
  induction course with
  | nil manager => exact further
  | cons part _ ih =>
      rw [List.append_assoc]
      exact .cons part (ih further)

theorem Course.aside {exchange : Exchange collaborators} (aside : Aside exchange.question)
    (course : Course setup begins manager exchanges after) :
    Course setup begins manager (exchange :: exchanges) after :=
  .cons (.aside manager aside) course

/-- What a drive begins a cycle with: something is left to do. -/
def Unfinished (manager : Manager) : Prop :=
  manager.progress.isFinished = false

/-! ### Within the lock -/

theorem course_of_ends_appendUpTo {cycles : Nat} {outcome : Except Failure Unit}
    (ends : Ends ((appendUpTo setup feed cycles).starting manager) exchanges (outcome, after)) :
    Course setup Unfinished manager exchanges after := by
  induction cycles generalizing manager exchanges with
  | zero =>
      cases ends
      exact .nil _
  | succ cycles ih =>
      rw [appendUpTo, Activity.starting_get_bind] at ends
      split at ends
      case isTrue =>
        cases ends
        exact .nil _
      case isFalse unfinished =>
        have begun : Unfinished manager := (Bool.not_eq_true _).mp unfinished
        rcases Activity.of_ends_bind ends with ⟨_, -, front⟩ | ⟨_, _, _, _, rfl, front, back⟩
        · exact (Part.cycle begun front).course
        · exact .cons (.cycle begun front) (ih back)

theorem course_of_ends_appendAll {outcome : Except Failure Unit}
    (ends : Ends ((appendAll setup feed).starting manager) exchanges (outcome, after)) :
    Course setup Unfinished manager exchanges after := by
  rcases Activity.of_ends_bind ends with ⟨_, -, front⟩ | ⟨_, _, _, _, rfl, front, back⟩
  · exact (Part.load front).course
  · rw [Activity.starting_get_bind] at back
    exact .cons (.load front) (course_of_ends_appendUpTo back)

/-- The limit is looked at before the loads, which leave it as it is. -/
theorem unfinished_of_rereads (limit : manager.progress.hasReachedLimit = false)
    (rereads : Rereads manager after) (behind : after.progress.isUpToDate = false) :
    Unfinished after := by
  obtain ⟨_, _, _, _, rfl⟩ := rereads
  exact Bool.or_eq_false_iff.mpr ⟨limit, behind⟩

theorem course_of_ends_stepOnce {outcome : Except Failure Outcome}
    (ends : Ends ((stepOnce setup feed).starting manager) exchanges (outcome, after)) :
    Course setup Unfinished manager exchanges after := by
  rw [stepOnce, Activity.starting_get_bind] at ends
  split at ends
  case isTrue =>
    cases ends
    exact .nil _
  case isFalse limit =>
    rcases Activity.of_ends_bind ends with ⟨_, -, front⟩ | ⟨_, _, between, _, rfl, front, back⟩
    · exact (Part.load front).course
    refine .cons (.load front) ?_
    rw [Activity.starting_get_bind] at back
    split at back
    case isTrue =>
      cases back
      exact .nil _
    case isFalse behind =>
      have begun : Unfinished between :=
        unfinished_of_rereads ((Bool.not_eq_true _).mp limit) (rereads_of_ends_loadBoth front)
          ((Bool.not_eq_true _).mp behind)
      rcases Activity.of_ends_bind back with ⟨_, -, cycle⟩ | ⟨_, _, _, _, rfl, cycle, rest⟩
      · exact (Part.cycle begun cycle).course
      · cases rest
        exact .cons (.cycle begun cycle) (.nil _)

/-! ### Outside of the lock -/

theorem course_of_ends_locked {work : Activity Manager α} {result : Except Failure α × Manager}
    (ends : Ends ((locked work).starting manager) exchanges result)
    (works : ∀ said outcome between, Ends (work.starting manager) said (outcome, between) →
      Course setup begins manager said between) :
    Course setup begins manager exchanges result.2 := by
  rw [starting_locked] at ends
  obtain ⟨reserved, later, rfl, asked⟩ := ends_ask_iff.mp ends
  refine .aside (.reserve _) ?_
  cases reserved with
  | error failure =>
      cases asked
      exact .nil _
  | ok _ =>
      obtain ⟨said, ⟨outcome, between⟩, _, rfl, hwork, given⟩ := ends_bind_iff.mp asked
      obtain ⟨released, _, rfl, rest⟩ := ends_ask_iff.mp given
      cases rest
      exact (works said outcome between hwork).trans (.aside (.release _) (.nil _))

theorem course_of_ends_step {result : Except Failure Outcome × Manager}
    (ends : Ends ((step setup feed).starting manager) exchanges result) :
    Course setup Unfinished manager exchanges result.2 :=
  course_of_ends_locked ends fun _ _ _ => course_of_ends_stepOnce

theorem course_of_rounded {horizon : Nat} {reached : Rounds}
    (rounded : Rounded setup feed horizon manager exchanges reached after) :
    Course setup Unfinished manager exchanges after := by
  induction rounded with
  | cutOff manager => exact .nil manager
  | cancelled horizon manager => exact .aside .cancelled (.nil manager)
  | limited horizon limited => exact .aside .cancelled (course_of_ends_step limited)
  | appended appended _ ih => exact .aside .cancelled ((course_of_ends_step appended).trans ih)
  | paused stepped _ _ ih =>
      exact .aside .cancelled ((course_of_ends_step stepped).trans (.aside .wait ih))

theorem course_of_ends_forever {horizon : Nat} {result : Except Failure Rounds × Manager}
    (ends : Ends ((forever setup feed horizon).starting manager) exchanges result) :
    Course setup Unfinished manager exchanges result.2 := by
  obtain ⟨outcome, after⟩ := result
  rcases rounded_of_ends_forever ends with
    ⟨-, rounded⟩ | ⟨said, closed, last, -, rfl, rfl, rounded, closes⟩
  · exact course_of_rounded rounded
  · exact (course_of_rounded rounded).trans (Part.close closes).course

/-- Work whose value is dropped ends as it does with its value. -/
theorem ends_of_dropped {work : Activity Manager α} {result : Except Failure Unit × Manager}
    (ends : Ends ((do let _ ← work; return () : Activity Manager Unit).starting manager) exchanges
      result) :
    ∃ outcome, Ends (work.starting manager) exchanges (outcome, result.2) := by
  obtain ⟨outcome, after⟩ := result
  rcases Activity.of_ends_bind ends with ⟨_, -, front⟩ | ⟨_, _, _, _, rfl, front, back⟩
  · exact ⟨_, front⟩
  · cases back
    rw [List.append_nil]
    exact ⟨_, front⟩

/-- Every complete run of a drive is a course in which cycles begin with something left to do. -/
theorem course_of_ends_work {drive : Drive} {result : Except Failure Unit × Manager}
    (ends : Ends ((drive.work setup).starting manager) exchanges result) :
    Course setup Unfinished manager exchanges result.2 := by
  cases drive with
  | append feed => exact course_of_ends_locked ends fun _ _ _ => course_of_ends_appendAll
  | step feed =>
      obtain ⟨_, stepped⟩ := ends_of_dropped ends
      exact course_of_ends_step stepped
  | forever feed horizon =>
      obtain ⟨_, worked⟩ := ends_of_dropped ends
      exact course_of_ends_forever worked

/-- Every complete run of a call that prepares nothing is a course. -/
theorem course_of_ends_call {call : Call} {result : Except Failure Unit × Manager}
    (unprepared : call.assignment? = none)
    (ends : Ends ((call.work setup).starting manager) exchanges result) :
    Course setup (fun _ => True) manager exchanges result.2 := by
  cases call with
  | prepare assignment => cases unprepared
  | drive way => exact (course_of_ends_work ends).mono fun _ _ => trivial
  | next feed => exact (Part.cycle trivial ends).course
  | stop =>
      rw [Call.work, starting_stop] at ends
      obtain ⟨rfl, closed⟩ := closed_of_ends ends
      exact (Part.close closed).course

/-- What every part keeps holds at the end of a course, and whenever a cycle is begun in it. -/
theorem Course.invariant {holds : Manager → Prop}
    (course : Course setup begins manager exchanges after) (start : holds manager)
    (keeps : ∀ manager exchanges after, Part setup begins manager exchanges after →
      holds manager → holds after) :
    Course setup (fun between => begins between ∧ holds between) manager exchanges after ∧
      holds after := by
  induction course with
  | nil manager => exact ⟨.nil manager, start⟩
  | cons part _ ih =>
      obtain ⟨further, last⟩ := ih (keeps _ _ _ part start)
      refine ⟨.cons ?_ further, last⟩
      cases part with
      | aside _ aside => exact .aside _ aside
      | load ends => exact .load ends
      | cycle begun ends => exact .cycle ⟨begun, start⟩ ends
      | close closed => exact .close closed

end Course

end MapReplica.Update
