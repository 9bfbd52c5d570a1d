import MapReplica.Proofs.Progress.Marker
import MapReplica.Proofs.Update.Occasions

/-!
# Drives

A drive is one of the three ways to bring a project forward. A session is a sequence of
drives with one manager, each of which may fail. Every drive is put together from loads
and cycles, and only one that holds the lock has any part of it done. So what holds
outside of the lock, within it and of a manager that has loaded its number holds
throughout a session, if each load and each cycle keeps to it.
-/

namespace MapReplica.Update

open Dialogue

/-- A manager that has the project, the resources, the entities and the targets of another. -/
structure SameOrder (order manager : Manager) : Prop where
  project : manager.progress.project = order.progress.project
  resources : manager.resources = order.resources
  entities : manager.entities = order.entities
  dispatcher : manager.dispatcher = order.dispatcher

theorem SameOrder.refl (manager : Manager) : SameOrder manager manager :=
  ⟨rfl, rfl, rfl, rfl⟩

theorem SameOrder.trans {first second third : Manager} (front : SameOrder first second)
    (back : SameOrder second third) : SameOrder first third :=
  ⟨back.project.trans front.project, back.resources.trans front.resources,
    back.entities.trans front.entities, back.dispatcher.trans front.dispatcher⟩

theorem SameOrder.onProgress {order manager : Manager} (same : SameOrder order manager)
    {progress : Progress} (project : progress.project = manager.progress.project) :
    SameOrder order { manager with progress } :=
  ⟨project.trans same.project, same.resources, same.entities, same.dispatcher⟩

/-! ## Reading -/

/-- What reading the text of a project comes to, by the answer of the object store. -/
def readProject (progress : Progress) (answer : Except Failure Bytes) :
    Except Failure Unit × Progress :=
  match answer with
  | .error failure => (.error failure, progress)
  | .ok body =>
      match Progress.textOf progress.key body with
      | .error failure => (.error failure, progress)
      | .ok content =>
          match Progress.sequenceOf progress.key content with
          | .error failure => (.error failure, progress)
          | .ok sequence => (.ok (), progress.loaded content sequence)

/-- What reading the text of a feed comes to, by what was fetched. -/
def readFeed (feed : String) (progress : Progress) (fetched : Except Failure (List Char)) :
    Except Failure Unit × Progress :=
  match fetched with
  | .error failure => (.error failure, progress)
  | .ok content =>
      match Progress.sequenceOf feed content with
      | .error failure => (.error failure, progress)
      | .ok sequence => (.ok (), { progress with remote := sequence })

theorem starting_load {progress : Progress} :
    Progress.load.starting progress =
      .ask (P := collaborators) (.getObject progress.key) fun answer =>
        .done (readProject progress answer) := by
  have asked : (liftM (Task.getObject progress.key) : Activity Progress Bytes).starting progress =
      .ask (P := collaborators) (.getObject progress.key) fun answer =>
        .done (answer, progress) := rfl
  simp only [Progress.load, Activity.starting_bind, Activity.starting_get, done_bind, asked]
  refine congrArg (Dialogue.ask (P := collaborators) _) (funext fun answer => ?_)
  unfold readProject
  cases answer with
  | error failure => rfl
  | ok body =>
      simp only [Activity.starting_ofExcept, Dialogue.bind, done_bind]
      cases Progress.textOf progress.key body with
      | error failure => rfl
      | ok content =>
          simp only
          cases Progress.sequenceOf progress.key content with
          | error failure => rfl
          | ok sequence => rfl

theorem starting_loadRemote {feed : String} {progress : Progress} :
    (Progress.loadRemote feed).starting progress =
      (Feed.state feed).run >>= fun fetched => .done (readFeed feed progress fetched) := by
  simp only [Progress.loadRemote, Activity.starting_bind, Activity.starting_task, bind_assoc]
  refine congrArg _ (funext fun fetched => ?_)
  unfold readFeed
  cases fetched with
  | error failure => rfl
  | ok content =>
      simp only [done_bind, Activity.starting_ofExcept]
      cases Progress.sequenceOf feed content with
      | error failure => rfl
      | ok sequence => rfl

theorem read?_of_sequenceOf {source : String} {content : List Char} {sequence : Nat}
    (read : Progress.sequenceOf source content = .ok sequence) :
    Marker.read? content = some sequence := by
  unfold Progress.sequenceOf at read
  cases number : Marker.read? content with
  | none =>
      rw [number] at read
      cases read
  | some found =>
      rw [number] at read
      cases read
      rfl

theorem decode?_of_textOf {source : String} {body : Bytes} {content : List Char}
    (read : Progress.textOf source body = .ok content) :
    Utf8.decode? body = some (String.ofList content) := by
  unfold Progress.textOf at read
  cases decoded : Utf8.decode? body with
  | none =>
      rw [decoded] at read
      cases read
  | some text =>
      rw [decoded] at read
      cases read
      rw [String.ofList_toList]

/-- A text that was read well was decoded, and its number was found. -/
theorem of_readProject_ok {progress after : Progress} {answer : Except Failure Bytes}
    (read : readProject progress answer = (.ok (), after)) :
    ∃ body content sequence, answer = .ok body ∧
      Utf8.decode? body = some (String.ofList content) ∧ Marker.read? content = some sequence ∧
      after = progress.loaded content sequence := by
  unfold readProject at read
  cases answer with
  | error failure => cases read
  | ok body =>
      cases text : Progress.textOf progress.key body with
      | error failure =>
          simp only [text] at read
          cases read
      | ok content =>
          cases number : Progress.sequenceOf progress.key content with
          | error failure =>
              simp only [text, number] at read
              cases read
          | ok sequence =>
              simp only [text, number] at read
              cases read
              exact ⟨body, content, sequence, rfl, decode?_of_textOf text,
                read?_of_sequenceOf number, rfl⟩

/-- The text of a feed that was read well has the number that is remembered. -/
theorem of_readFeed_ok {feed : String} {progress after : Progress}
    {fetched : Except Failure (List Char)}
    (read : readFeed feed progress fetched = (.ok (), after)) :
    ∃ sequence : Nat, sequence ≤ Number.maxSigned64 ∧
      after = { progress with remote := sequence } := by
  unfold readFeed at read
  cases fetched with
  | error failure => cases read
  | ok content =>
      cases number : Progress.sequenceOf feed content with
      | error failure =>
          simp only [number] at read
          cases read
      | ok sequence =>
          simp only [number] at read
          cases read
          exact ⟨sequence, Marker.read?_le (read?_of_sequenceOf number), rfl⟩

/-- A text that can be decoded and has a number is read well. -/
theorem readProject_ok {progress : Progress} {body : Bytes} {content : List Char} {sequence : Nat}
    (decoded : Utf8.decode? body = some (String.ofList content))
    (number : Marker.read? content = some sequence) :
    readProject progress (.ok body) = (.ok (), progress.loaded content sequence) := by
  have text : Progress.textOf progress.key body = .ok content := by
    rw [Progress.textOf, decoded]
    exact congrArg Except.ok String.toList_ofList
  have read : Progress.sequenceOf progress.key content = .ok sequence := by
    rw [Progress.sequenceOf, number]
  simp only [readProject, text, read]

theorem readFeed_ok {feed : String} {progress : Progress} {content : List Char} {sequence : Nat}
    (number : Marker.read? content = some sequence) :
    readFeed feed progress (.ok content) = (.ok (), { progress with remote := sequence }) := by
  have read : Progress.sequenceOf feed content = .ok sequence := by
    rw [Progress.sequenceOf, number]
  simp only [readFeed, read]

/-- Reading the text of a project never changes the project. -/
theorem readProject_project {progress : Progress} {answer : Except Failure Bytes} :
    (readProject progress answer).2.project = progress.project := by
  unfold readProject
  split
  · rfl
  · split
    · rfl
    · split
      · rfl
      · rfl

/--
Reading the text of a feed changes only the number of the feed, which is in range after
a success.
-/
theorem readFeed_eq (feed : String) (progress : Progress) (fetched : Except Failure (List Char)) :
    ∃ outcome remote, readFeed feed progress fetched = (outcome, { progress with remote }) ∧
      (outcome = .ok () → remote ≤ Number.maxSigned64) := by
  unfold readFeed
  cases fetched with
  | error failure => exact ⟨.error failure, progress.remote, rfl, nofun⟩
  | ok content =>
      cases read : Progress.sequenceOf feed content with
      | error failure => exact ⟨.error failure, progress.remote, by simp only [read], nofun⟩
      | ok sequence =>
          refine ⟨.ok (), sequence, by simp only [read], fun _ => ?_⟩
          exact Int.ofNat_le.mpr (Marker.read?_le (read?_of_sequenceOf read))

theorem asks_state {permitted : Inquiry → Prop} {feed : String}
    (fetch : permitted (.fetch (Diff.joinUrl feed Feed.stateFile) [])) :
    (Feed.state feed).run.Asks permitted := by
  unfold Feed.state
  refine Task.asks_bind ?_ fun response => ?_
  · refine Task.asks_bind ⟨fetch, fun _ => trivial⟩ fun reply => ?_
    cases reply with
    | error fault => trivial
    | ok response =>
        simp only
        split
        case isTrue => trivial
        case isFalse => trivial
  · refine Task.asks_bind ?_ fun body => trivial
    unfold Feed.bodyOf
    split
    case isTrue => trivial
    case isFalse => trivial

/-- The inquiries between the steps of rounds, and at their end. -/
inductive Idle : Inquiry → Prop where
  | cancelled : Idle .isCancelled
  | wait : Idle .wait
  | terminate : Idle .terminateTools
  | stopQueue : Idle .stopQueue

/-! ## Conduct -/

/--
What holds when an activity ended: something after a success, and something else after a
failure, which is one that can come up.
-/
def Ended {σ α : Type} (well failed : Manager → σ → Prop) (fails : Failure → Prop) :
    Except Failure α × Manager → σ → Prop
  | (.ok _, manager), state => well manager state
  | (.error failure, manager), state => failed manager state ∧ fails failure

section Ended

variable {σ α : Type} {holds : Manager → σ → Prop} {fails : Failure → Prop}
variable {result : Except Failure α × Manager} {state : σ}

theorem ended_of_holds (still : holds result.2 state)
    (fits : ∀ failure, result.1 = .error failure → fails failure) :
    Ended holds holds fails result state := by
  obtain ⟨outcome, manager⟩ := result
  cases outcome with
  | ok value => exact still
  | error failure => exact ⟨still, fits failure rfl⟩

theorem holds_of_ended (ended : Ended holds holds fails result state) : holds result.2 state := by
  obtain ⟨outcome, manager⟩ := result
  cases outcome with
  | ok value => exact ended
  | error failure => exact ended.1

end Ended

/--
What holds of a manager and the state outside of the lock, within it, and of a manager
that has read both numbers, and which failures can come up, such that all that a drive is
put together from besides its cycles keeps to a rule and to these.
-/
structure Custody {σ : Type} (world : Surroundings collaborators σ) (allows : σ → Inquiry → Prop)
    (order : Manager) (feeds : Set String) where
  free : Manager → σ → Prop
  held : Manager → σ → Prop
  ready : Manager → σ → Prop
  fails : Failure → Prop
  same_of_free : ∀ {manager state}, free manager state → SameOrder order manager
  same_of_held : ∀ {manager state}, held manager state → SameOrder order manager
  held_of_ready : ∀ {manager state}, ready manager state → held manager state
  stopped : ∀ {manager state}, free manager state →
    free { manager with queueStarted := false } state
  idle : ∀ {manager state inquiry}, Idle inquiry → free manager state →
    allows state inquiry ∧
      ∀ answer after, world state inquiry answer after → free manager after
  reserve : ∀ {manager state}, free manager state →
    allows state (.reserve order.progress.project) ∧
      ∀ (answer : Except Failure Unit) after,
        world state (.reserve order.progress.project) answer after →
          (answer = .ok () → held manager after) ∧
            ∀ failure, answer = .error failure → free manager after ∧ fails failure
  release : ∀ {manager state}, held manager state →
    allows state (.release order.progress.project) ∧
      ∀ (answer : Except Failure Unit) after,
        world state (.release order.progress.project) answer after →
          free manager after ∧ ∀ failure, answer = .error failure → fails failure
  load : ∀ {manager state feed}, feed ∈ feeds → held manager state →
    ((loadBoth feed).starting manager).Keeps world allows (Ended ready held fails) state

namespace Custody

variable {σ : Type} {world : Surroundings collaborators σ} {allows : σ → Inquiry → Prop}
variable {setup : Setup} {order manager : Manager} {feeds : Set String} {state : σ} {α β : Type}

/-- The rule of sequence, where both parts fail alike. -/
theorem keeps_bind {first : Activity Manager α} {rest : α → Activity Manager β}
    {middle well failed : Manager → σ → Prop} {fails : Failure → Prop}
    (hfirst : (first.starting manager).Keeps world allows (Ended middle failed fails) state)
    (hrest : ∀ value after now, middle after now →
      ((rest value).starting after).Keeps world allows (Ended well failed fails) now) :
    ((first >>= rest).starting manager).Keeps world allows (Ended well failed fails) state := by
  apply Activity.keeps_bind hfirst
  · intro value after now reached
    exact hrest value after now reached
  · intro failure after now reached
    exact reached

theorem keeps_get {rest : Manager → Activity Manager β}
    {wanted : Except Failure β × Manager → σ → Prop}
    (hrest : ((rest manager).starting manager).Keeps world allows wanted state) :
    ((get >>= rest).starting manager).Keeps world allows wanted state := by
  rw [Activity.starting_bind]
  exact hrest

/-- An activity whose failure is an outcome does not fail. -/
theorem keeps_attempt {activity : Activity Manager α} {holds : Manager → σ → Prop}
    {fails : Failure → Prop}
    (keeps : (activity.starting manager).Keeps world allows (Ended holds holds fails) state) :
    (activity.attempt.starting manager).Keeps world allows (Ended holds holds fails) state := by
  rw [Activity.starting_attempt]
  apply keeps.bind
  intro result now reached
  exact holds_of_ended reached

variable (custody : Custody world allows order feeds)

/-- On every occasion the cycle of a manager that has read both numbers keeps to the rule. -/
def Cycles (next : Nat → Activity Manager Unit) : Prop :=
  ∀ left manager state, custody.ready manager state → manager.progress.isUpToDate = false →
    ((next left).starting manager).Keeps world allows
      (Ended custody.ready custody.held custody.fails) state

variable {next : Nat → Activity Manager Unit}

/-! ### Within the lock -/

/-- Cycles within the lock. -/
theorem keeps_appendUpToBy {cycles : Nat} (each : custody.Cycles next)
    (ready : custody.ready manager state) :
    ((appendUpToBy next cycles).starting manager).Keeps world allows
      (Ended custody.held custody.held custody.fails) state := by
  induction cycles generalizing manager state with
  | zero => exact custody.held_of_ready ready
  | succ cycles ih =>
      apply keeps_get
      cases finished : manager.progress.isFinished with
      | true => exact custody.held_of_ready ready
      | false =>
          have behind := (Bool.or_eq_false_iff.mp finished).2
          apply keeps_bind (each cycles manager state ready behind)
          intro _ after now next
          exact ih next

theorem keeps_appendAllBy {feed : String} (each : custody.Cycles next) (served : feed ∈ feeds)
    (held : custody.held manager state) :
    ((appendAllBy next feed).starting manager).Keeps world allows
      (Ended custody.held custody.held custody.fails) state := by
  apply keeps_bind (custody.load served held)
  intro _ after now ready
  exact keeps_get (custody.keeps_appendUpToBy each ready)

theorem keeps_stepOnceBy {feed : String} (left : Nat) (each : custody.Cycles next)
    (served : feed ∈ feeds) (held : custody.held manager state) :
    ((stepOnceBy next feed left).starting manager).Keeps world allows
      (Ended custody.held custody.held custody.fails) state := by
  apply keeps_get
  cases limit : manager.progress.hasReachedLimit with
  | true => exact held
  | false =>
      apply keeps_bind (custody.load served held)
      intro _ after now ready
      apply keeps_get
      cases reached : after.progress.isUpToDate with
      | true => exact custody.held_of_ready ready
      | false =>
          apply keeps_bind (each left after now ready reached)
          intro _ final last next
          exact custody.held_of_ready next

/-! ### Outside of the lock -/

/-- Work within the lock starts and ends outside of it. -/
theorem keeps_locked {work : Activity Manager α} (free : custody.free manager state)
    (within : ∀ now, custody.held manager now → (work.starting manager).Keeps world allows
      (Ended custody.held custody.held custody.fails) now) :
    ((locked work).starting manager).Keeps world allows
      (Ended custody.free custody.free custody.fails) state := by
  simp only [locked, Activity.starting_bind, Activity.starting_get, done_bind,
    Activity.starting_task, Activity.starting_attempt, Activity.starting_taskAttempt,
    Dialogue.bind_assoc, (custody.same_of_free free).project]
  obtain ⟨asked, reserved⟩ := custody.reserve free
  refine ⟨asked, fun answer entered step => ?_⟩
  obtain ⟨granted, refused⟩ := reserved answer entered step
  obtain failure | ⟨⟨⟩⟩ := answer
  · exact refused failure rfl
  apply (within entered (granted rfl)).bind
  rintro ⟨outcome, after⟩ now ended
  obtain ⟨asked, released⟩ := custody.release (holds_of_ended ended)
  refine ⟨asked, fun answer left step => ?_⟩
  -- Whatever the work and the release came to, the lock counts as given back.
  obtain ⟨outside, kept⟩ := released answer left step
  cases outcome with
  | error failure => exact ⟨outside, ended.2⟩
  | ok value =>
      cases answer with
      | error failure => exact ⟨outside, kept failure rfl⟩
      | ok _ => exact outside

/-- A question outside of the lock whose answer is no failure. -/
theorem keeps_idle {inquiry : Inquiry} (idle : Idle inquiry) (free : custody.free manager state) :
    ((liftM (ExceptT.lift (Task.ask inquiry) : Task inquiry.Answer) :
        Activity Manager inquiry.Answer).starting manager).Keeps world allows
      (Ended custody.free custody.free custody.fails) state := by
  obtain ⟨allowed, still⟩ := custody.idle idle free
  exact ⟨allowed, fun answer after step => still answer after step⟩

theorem keeps_roundsBy {feed : String} {horizon : Nat} (each : custody.Cycles next)
    (served : feed ∈ feeds) (free : custody.free manager state) :
    ((roundsBy next feed horizon).starting manager).Keeps world allows
      (Ended custody.free custody.free custody.fails) state := by
  induction horizon generalizing manager state with
  | zero => exact free
  | succ horizon ih =>
      apply keeps_bind (custody.keeps_idle .cancelled free)
      intro cancelled after now free
      cases cancelled with
      | true => exact free
      | false =>
          apply keeps_bind (keeps_attempt (custody.keeps_locked free fun _ held =>
            custody.keeps_stepOnceBy _ each served held))
          intro outcome last later free
          have waits : ((do Task.wait; roundsBy next feed horizon :
              Activity Manager Rounds).starting last).Keeps world allows
                (Ended custody.free custody.free custody.fails) later :=
            keeps_bind (custody.keeps_idle .wait free) fun _ _ _ free => ih free
          rcases outcome with failure | ⟨⟨⟩ | ⟨⟩ | ⟨⟩⟩
          · exact waits
          · exact ih free
          · exact waits
          · exact free

/-- The end of the work stays outside of the lock. -/
theorem keeps_stop (free : custody.free manager state) :
    ((stop setup).starting manager).Keeps world allows
      (Ended custody.free custody.free custody.fails) state := by
  apply keeps_bind (custody.keeps_idle .terminate free)
  intro _ after now free
  apply keeps_get
  cases started : after.queueStarted with
  | false => exact free
  | true =>
      cases queue : setup.hasQueue with
      | false => exact custody.stopped free
      | true =>
          obtain ⟨allowed, still⟩ := custody.idle .stopQueue free
          exact ⟨allowed, fun answer last step => custody.stopped (still answer last step)⟩

theorem keeps_foreverBy {feed : String} {horizon : Nat} (each : custody.Cycles next)
    (served : feed ∈ feeds) (free : custody.free manager state) :
    ((foreverBy setup next feed horizon).starting manager).Keeps world allows
      (Ended custody.free custody.free custody.fails) state := by
  apply keeps_bind (custody.keeps_roundsBy each served free)
  intro reached after now free
  cases reached with
  | running => exact free
  | ended => exact keeps_bind (custody.keeps_stop free) fun _ _ _ free => free

/-- A drive that starts outside of the lock keeps to the rule and ends outside of the lock. -/
theorem keeps_workBy {drive : Drive} (each : custody.Cycles next) (served : drive.feed ∈ feeds)
    (free : custody.free manager state) :
    ((drive.workBy setup next).starting manager).Keeps world allows
      (Ended custody.free custody.free custody.fails) state := by
  cases drive with
  | append feed =>
      exact custody.keeps_locked free fun _ held => custody.keeps_appendAllBy each served held
  | step feed =>
      exact keeps_bind (custody.keeps_locked free fun _ held =>
        custody.keeps_stepOnceBy _ each served held) fun _ _ _ free => free
  | forever feed horizon =>
      exact keeps_bind (custody.keeps_foreverBy each served free) fun _ _ _ free => free

/-- Activities that keep to the rule and end outside of the lock do so in turn. -/
theorem keeps_inTurn {works : List (Activity Manager Unit)}
    (each : ∀ work ∈ works, ∀ manager state, custody.free manager state →
      (work.starting manager).Keeps world allows
        (Ended custody.free custody.free custody.fails) state)
    (free : custody.free manager state) :
    ((inTurn works).starting manager).Keeps world allows
      (Ended custody.free custody.free custody.fails) state := by
  induction works generalizing manager state with
  | nil => exact free
  | cons work rest ih =>
      apply keeps_bind (keeps_attempt (each work List.mem_cons_self manager state free))
      intro _ after now free
      exact ih (fun later member => each later (List.mem_cons_of_mem _ member)) free

end Custody

/-- A custody with which the cycles of drives keep to the rule as well. -/
structure Conduct {σ : Type} (world : Surroundings collaborators σ) (allows : σ → Inquiry → Prop)
    (setup : Setup) (order : Manager) (feeds : Set String)
    extends Custody world allows order feeds where
  appendNext : ∀ {manager state feed}, feed ∈ feeds → ready manager state →
    manager.progress.isUpToDate = false →
      ((appendNext setup feed).starting manager).Keeps world allows (Ended ready held fails) state

namespace Conduct

variable {σ : Type} {world : Surroundings collaborators σ} {allows : σ → Inquiry → Prop}
variable {setup : Setup} {order manager : Manager} {feeds : Set String} {state : σ}
variable (conduct : Conduct world allows setup order feeds)

theorem cycles {feed : String} (served : feed ∈ feeds) :
    conduct.toCustody.Cycles fun _ => Update.appendNext setup feed :=
  fun _ _ _ ready behind => conduct.appendNext served ready behind

theorem keeps_step {feed : String} (served : feed ∈ feeds) (free : conduct.free manager state) :
    ((step setup feed).starting manager).Keeps world allows
      (Ended conduct.free conduct.free conduct.fails) state := by
  refine conduct.keeps_locked free fun now held => ?_
  rw [← stepOnceBy_same]
  exact conduct.keeps_stepOnceBy 0 (conduct.cycles served) served held

/-- The end of the work stays outside of the lock. -/
theorem keeps_stop (free : conduct.free manager state) :
    ((stop setup).starting manager).Keeps world allows
      (Ended conduct.free conduct.free conduct.fails) state :=
  conduct.toCustody.keeps_stop free

theorem keeps_forever {feed : String} {horizon : Nat} (served : feed ∈ feeds)
    (free : conduct.free manager state) :
    ((forever setup feed horizon).starting manager).Keeps world allows
      (Ended conduct.free conduct.free conduct.fails) state := by
  rw [← foreverBy_same]
  exact conduct.keeps_foreverBy (conduct.cycles served) served free

/-- A drive that starts outside of the lock keeps to the rule and ends outside of the lock. -/
theorem keeps_work {drive : Drive} (served : drive.feed ∈ feeds)
    (free : conduct.free manager state) :
    ((drive.work setup).starting manager).Keeps world allows
      (Ended conduct.free conduct.free conduct.fails) state := by
  rw [← workBy_same drive]
  exact conduct.keeps_workBy (conduct.cycles served) served free

theorem keeps_session {drives : List Drive} (served : ∀ drive ∈ drives, drive.feed ∈ feeds)
    (free : conduct.free manager state) :
    ((session setup drives).starting manager).Keeps world allows
      (Ended conduct.free conduct.free conduct.fails) state := by
  rw [← inTurn_work drives]
  refine conduct.keeps_inTurn (List.forall_mem_map.mpr fun drive member _ _ free => ?_) free
  exact conduct.keeps_work (served drive member) free

end Conduct

/-! ## Results -/

section Results

variable {σ α : Type} (order : Manager)

/-- Within the lock, with something known of the manager and of the state if all went well. -/
structure Within (inside : σ → Prop) (known : Manager → σ → Prop)
    (result : Except Failure α × Manager) (state : σ) : Prop where
  same : SameOrder order result.2
  held : inside state
  known : ∀ value, result.1 = .ok value → known result.2 state

/-- After a failure nothing else is known. -/
theorem Within.failed {inside : σ → Prop} {known : Manager → σ → Prop} {manager : Manager}
    {state : σ} {failure : Failure} (same : SameOrder order manager) (held : inside state) :
    Within order inside known ((.error failure : Except Failure α), manager) state :=
  ⟨same, held, fun _ impossible => by cases impossible⟩

/-- Outside of the lock, with the same order. -/
structure Outside (outside : σ → Prop) (result : Except Failure α × Manager)
    (state : σ) : Prop where
  same : SameOrder order result.2
  free : outside state

end Results

/--
What holds outside of the lock, within it, and of a manager that has loaded its number,
such that all that a drive is put together from besides its cycles keeps to a rule and to
these.
-/
structure Guidance {σ : Type} (world : Surroundings collaborators σ) (allows : σ → Inquiry → Prop)
    (order : Manager) where
  outside : σ → Prop
  inside : σ → Prop
  known : Manager → σ → Prop
  held : ∀ {manager state}, SameOrder order manager → known manager state → inside state
  idle : ∀ {state inquiry}, Idle inquiry → outside state →
    allows state inquiry ∧ ∀ answer after, world state inquiry answer after → outside after
  reserve : ∀ {state}, outside state → allows state (.reserve order.progress.project) ∧
    ∀ (answer : Except Failure Unit) after,
      world state (.reserve order.progress.project) answer after →
        (answer = .ok () → inside after) ∧ (answer.toBool = false → outside after)
  release : ∀ {state}, inside state → allows state (.release order.progress.project) ∧
    ∀ answer after, world state (.release order.progress.project) answer after → outside after
  load : ∀ {manager state}, SameOrder order manager → inside state →
    allows state (.getObject order.progress.key) ∧
      ∀ answer after, world state (.getObject order.progress.key) answer after →
        inside after ∧ ∀ progress, readProject manager.progress answer = (.ok (), progress) →
          known { manager with progress } after
  fetch : ∀ {manager state url headers}, SameOrder order manager → known manager state →
    allows state (.fetch url headers) ∧
      ∀ answer after, world state (.fetch url headers) answer after → known manager after
  remote : ∀ {manager state}, known manager state → ∀ remote,
    known { manager with progress := { manager.progress with remote } } state

namespace Guidance

variable {σ : Type} {world : Surroundings collaborators σ} {allows : σ → Inquiry → Prop}
variable {order manager : Manager} {feeds : Set String} {state : σ}
variable (guidance : Guidance world allows order)

/-! ### Within the lock -/

/-- A load within the lock: if it succeeds, the number is known. -/
theorem keeps_load (same : SameOrder order manager) (held : guidance.inside state) :
    ((onProgress Progress.load).starting manager).Keeps world allows
      (Within order guidance.inside guidance.known) state := by
  have key : manager.progress.key = order.progress.key := congrArg Progress.keyOf same.project
  rw [Activity.starting_onProgress, starting_load, key]
  obtain ⟨allowed, answered⟩ := guidance.load same held
  refine ⟨allowed, fun answer after step => ?_⟩
  obtain ⟨still, known⟩ := answered answer after step
  exact ⟨same.onProgress readProject_project, still, fun _ read => known _ (Prod.ext read rfl)⟩

/-- Reading the number of the feed within the lock: if it succeeds, the number is in range. -/
theorem keeps_loadRemote {feed : String} (same : SameOrder order manager)
    (known : guidance.known manager state) :
    ((onProgress (Progress.loadRemote feed)).starting manager).Keeps world allows
      (Within order guidance.inside fun after now =>
        guidance.known after now ∧ after.progress.remote ≤ Number.maxSigned64) state := by
  rw [Activity.starting_onProgress, starting_loadRemote, Dialogue.bind_assoc]
  have asks : (Feed.state feed).run.Asks fun inquiry =>
      ∃ url headers, inquiry = Inquiry.fetch url headers :=
    asks_state ⟨_, _, rfl⟩
  have reads : (Feed.state feed).run.Keeps world allows (fun _ now => guidance.known manager now)
      state := by
    refine asks.invariant known fun _ _ fetches known => ?_
    obtain ⟨url, headers, rfl⟩ := fetches
    exact guidance.fetch same known
  refine reads.bind fun fetched now known => ?_
  obtain ⟨outcome, remote, read, range⟩ := readFeed_eq feed manager.progress fetched
  rw [done_bind, read]
  exact ⟨same.onProgress rfl, guidance.held same known,
    fun _ ok => ⟨guidance.remote known remote, range ok⟩⟩

/-- Both loads within the lock. -/
theorem keeps_loadBoth {feed : String} (same : SameOrder order manager)
    (held : guidance.inside state) :
    ((loadBoth feed).starting manager).Keeps world allows
      (Within order guidance.inside fun after now =>
        guidance.known after now ∧ after.progress.remote ≤ Number.maxSigned64) state := by
  apply Activity.keeps_bind (guidance.keeps_load same held)
  · intro _ after now loaded
    exact guidance.keeps_loadRemote loaded.same (loaded.known () rfl)
  · intro failure after now loaded
    exact .failed order loaded.same loaded.held

/-- What guides drives is a custody in which any failure can come up. -/
def custody (feeds : Set String) : Custody world allows order feeds where
  free manager state := SameOrder order manager ∧ guidance.outside state
  held manager state := SameOrder order manager ∧ guidance.inside state
  ready manager state := SameOrder order manager ∧ guidance.known manager state ∧
    manager.progress.remote ≤ Number.maxSigned64
  fails _ := True
  same_of_free free := free.1
  same_of_held held := held.1
  held_of_ready ready := ⟨ready.1, guidance.held ready.1 ready.2.1⟩
  stopped free := ⟨⟨free.1.project, free.1.resources, free.1.entities, free.1.dispatcher⟩, free.2⟩
  idle := by
    rintro manager state inquiry idle ⟨same, free⟩
    obtain ⟨allowed, still⟩ := guidance.idle idle free
    exact ⟨allowed, fun answer after step => ⟨same, still answer after step⟩⟩
  reserve := by
    rintro manager state ⟨same, free⟩
    obtain ⟨allowed, reserved⟩ := guidance.reserve free
    refine ⟨allowed, fun answer after step => ?_⟩
    obtain ⟨granted, refused⟩ := reserved answer after step
    refine ⟨fun ok => ⟨same, granted ok⟩, ?_⟩
    rintro failure rfl
    exact ⟨⟨same, refused rfl⟩, trivial⟩
  release := by
    rintro manager state ⟨same, held⟩
    obtain ⟨allowed, released⟩ := guidance.release held
    exact ⟨allowed, fun answer after step =>
      ⟨⟨same, released answer after step⟩, fun _ _ => trivial⟩⟩
  load := by
    rintro manager state feed - ⟨same, held⟩
    apply (guidance.keeps_loadBoth same held).mono
    rintro ⟨outcome, after⟩ now loaded
    cases outcome with
    | ok value => exact ⟨loaded.same, loaded.known value rfl⟩
    | error failure => exact ⟨⟨loaded.same, loaded.held⟩, trivial⟩

/-- A cycle that keeps to what is known, however often it is run. -/
theorem cycles {next : Nat → Activity Manager Unit}
    (each : ∀ left manager state, SameOrder order manager → guidance.known manager state →
      manager.progress.remote ≤ Number.maxSigned64 → manager.progress.isUpToDate = false →
        ((next left).starting manager).Keeps world allows
          (Within order guidance.inside fun after now =>
            guidance.known after now ∧ after.progress.remote = manager.progress.remote) state) :
    (guidance.custody feeds).Cycles next := by
  rintro left manager state ⟨same, known, range⟩ behind
  apply (each left manager state same known range behind).mono
  rintro ⟨outcome, after⟩ now appended
  cases outcome with
  | ok value =>
      obtain ⟨next, remote⟩ := appended.known value rfl
      exact ⟨appended.same, next, remote ▸ range⟩
  | error failure => exact ⟨⟨appended.same, appended.held⟩, trivial⟩

/-! ### Outside of the lock -/

theorem outside_of_ended {α : Type} {result : Except Failure α × Manager}
    (ended : Ended (guidance.custody feeds).free (guidance.custody feeds).free
      (guidance.custody feeds).fails result state) :
    Outside order guidance.outside result state :=
  ⟨(holds_of_ended ended).1, (holds_of_ended ended).2⟩

end Guidance

/-- A guidance with which the cycles of drives keep to the rule as well. -/
structure Steering {σ : Type} (world : Surroundings collaborators σ) (allows : σ → Inquiry → Prop)
    (setup : Setup) (order : Manager) (feeds : Set String)
    extends Guidance world allows order where
  appendNext : ∀ {manager state feed}, feed ∈ feeds → SameOrder order manager →
    known manager state → manager.progress.remote ≤ Number.maxSigned64 →
    manager.progress.isUpToDate = false →
      ((appendNext setup feed).starting manager).Keeps world allows
        (Within order inside fun after now =>
          known after now ∧ after.progress.remote = manager.progress.remote) state

namespace Steering

variable {σ : Type} {world : Surroundings collaborators σ} {allows : σ → Inquiry → Prop}
variable {setup : Setup} {order manager : Manager} {feeds : Set String} {state : σ}
variable (steering : Steering world allows setup order feeds)

/-- What steers drives is a conduct in which any failure can come up. -/
def conduct : Conduct world allows setup order feeds where
  toCustody := steering.custody feeds
  appendNext := by
    intro manager state feed served ready behind
    have each : (steering.custody feeds).Cycles fun _ => Update.appendNext setup feed :=
      steering.cycles fun _ _ _ same known range behind =>
        steering.appendNext served same known range behind
    exact each 0 manager state ready behind

theorem keeps_work {drive : Drive} (served : drive.feed ∈ feeds) (same : SameOrder order manager)
    (free : steering.outside state) :
    ((drive.work setup).starting manager).Keeps world allows (Outside order steering.outside)
      state :=
  (steering.conduct.keeps_work served ⟨same, free⟩).mono fun _ _ => steering.outside_of_ended

/-- A session that starts outside of the lock keeps to the rule and ends outside of the lock. -/
theorem keeps_session {drives : List Drive} (served : ∀ drive ∈ drives, drive.feed ∈ feeds)
    (same : SameOrder order manager) (free : steering.outside state) :
    ((session setup drives).starting manager).Keeps world allows (Outside order steering.outside)
      state :=
  (steering.conduct.keeps_session served ⟨same, free⟩).mono fun _ _ => steering.outside_of_ended

end Steering

end MapReplica.Update
