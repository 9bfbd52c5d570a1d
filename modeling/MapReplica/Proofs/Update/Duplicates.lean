import MapReplica.Proofs.Dialogue.Continuations
import MapReplica.Proofs.Update.CommitSafety
import MapReplica.Proofs.Update.Courses
import MapReplica.Proofs.Upload.Requests

/-!
# Duplicate requests

A request that waits in the queue already counts as delivered, and nothing tells it
apart from one that was delivered: whatever drives report, ask and write is the same.
The answer to a push is looked at in one place only, so all that is said of it follows
from this place by the rule of sequence. Any other failure of a push ends its attempt:
tools are ended, files are removed, the lock is given back, and nothing is committed.
-/

namespace MapReplica

open Dialogue

/-! ## What follows a push -/

/-- The inquiries that put nothing into the queue. -/
def Inquiry.Pushless : Inquiry → Prop
  | .push _ => False
  | _ => True

/-- Answers that are the same, up to whether a request had been queued before. -/
def SameUpToDuplicates : (inquiry : Inquiry) → inquiry.Answer → inquiry.Answer → Prop
  | .push _, answer, other => Upload.Accepted answer ∧ Upload.Accepted other ∨ answer = other
  | _, answer, other => answer = other

/--
Work goes on alike after all answers to a push that count as delivered, and as wanted
after every failure that does not.
-/
def Settles {α : Type} (refused : Failure → Dialogue collaborators α → Prop) :
    (inquiry : Inquiry) → (inquiry.Answer → Dialogue collaborators α) → Prop
  | .push _, next =>
      (∀ answer other, Upload.Accepted answer → Upload.Accepted other →
        next answer = next other) ∧
      ∀ failure : Failure, failure.isAlreadyQueued = false → refused failure (next (.error failure))
  | _, _ => True

section Settles

variable {α β : Type} {refused : Failure → Dialogue collaborators α → Prop}
variable {inquiry : Inquiry} {next : inquiry.Answer → Dialogue collaborators α}

theorem Settles.same (settles : Settles refused inquiry next) {answer other : inquiry.Answer}
    (same : SameUpToDuplicates inquiry answer other) : next answer = next other := by
  cases inquiry with
  | push request =>
      rcases same with ⟨accepted, given⟩ | rfl
      · exact settles.1 answer other accepted given
      · rfl
  | _ => exact congrArg next same

theorem Settles.mono {weaker : Failure → Dialogue collaborators α → Prop}
    (settles : Settles refused inquiry next)
    (weaken : ∀ failure left, refused failure left → weaker failure left) :
    Settles weaker inquiry next := by
  cases inquiry with
  | push request =>
      exact ⟨settles.1, fun failure fresh => weaken failure _ (settles.2 failure fresh)⟩
  | _ => trivial

/-- The rule of sequence: what follows a refused push is followed by the rest. -/
theorem Settles.bind {later : Failure → Dialogue collaborators β → Prop}
    {rest : α → Dialogue collaborators β} (settles : Settles refused inquiry next)
    (carry : ∀ failure left, refused failure left → later failure (left >>= rest)) :
    Settles later inquiry fun answer => next answer >>= rest := by
  cases inquiry with
  | push request =>
      refine ⟨fun answer other accepted given => ?_, fun failure fresh => ?_⟩
      · exact congrArg (· >>= rest) (settles.1 answer other accepted given)
      · exact carry failure _ (settles.2 failure fresh)
  | _ => trivial

theorem settles_bind {later : Failure → Dialogue collaborators β → Prop}
    {first : Dialogue collaborators α} {rest : α → Dialogue collaborators β}
    (hfirst : first.Throughout (Settles refused))
    (carry : ∀ failure left, refused failure left → later failure (left >>= rest))
    (hrest : ∀ exchanges value, Ends first exchanges value →
      (rest value).Throughout (Settles later)) :
    (first >>= rest).Throughout (Settles later) :=
  hfirst.bind (fun _ _ settles => settles.bind carry) hrest

/-- Work that puts nothing into the queue. -/
theorem settles_of_pushless {dialogue : Dialogue collaborators α}
    (asks : dialogue.Asks Inquiry.Pushless) : dialogue.Throughout (Settles refused) := by
  apply asks.throughout
  intro inquiry next pushless
  cases inquiry with
  | push request => exact pushless.elim
  | _ => trivial

end Settles

namespace Task

variable {α β : Type}

/-- A task in which a push that is refused is the failure of the task. -/
def FailsByPush (task : Task α) : Prop :=
  task.run.Throughout (Settles fun failure left => left = .done (.error failure))

theorem failsByPush_of_pushless {task : Task α} (asks : task.run.Asks Inquiry.Pushless) :
    FailsByPush task :=
  settles_of_pushless asks

theorem failsByPush_ofExcept {outcome : Except Failure α} : FailsByPush (ofExcept outcome) :=
  trivial

theorem failsByPush_bind {first : Task α} {rest : α → Task β} (hfirst : FailsByPush first)
    (hrest : ∀ value, FailsByPush (rest value)) : FailsByPush (first >>= rest) := by
  unfold FailsByPush
  rw [ExceptT.run_bind]
  apply settles_bind hfirst
  · rintro failure _ rfl
    rfl
  · intro exchanges outcome _
    cases outcome with
    | ok value => exact hrest value
    | error failure => trivial

theorem failsByPush_forEach {items : List α} {work : α → Task Unit}
    (each : ∀ item, FailsByPush (work item)) : FailsByPush (forEach items work) := by
  induction items with
  | nil => trivial
  | cons item rest ih => exact failsByPush_bind (each item) fun _ => ih

end Task

namespace Upload

/-- The one place where the answer to a push is looked at. -/
theorem failsByPush_pushBoxes {settings : Queue.Settings} {areas : List Box} :
    Task.FailsByPush (pushBoxes settings areas) := by
  unfold Task.FailsByPush
  rw [run_pushBoxes]
  split
  case isTrue => trivial
  case isFalse =>
    refine ⟨⟨fun answer other accepted given => ?_, fun failure fresh => ?_⟩, fun _ => trivial⟩
    · have same : pushed answer = pushed other := by
        rw [pushed_eq_ok_iff.mpr accepted, pushed_eq_ok_iff.mpr given]
      exact congrArg Dialogue.done same
    · have refused : pushed (.error failure) = .error failure := by
        rw [pushed, fresh]
        rfl
      exact congrArg Dialogue.done refused

theorem failsByPush_enqueue {dispatcher : Dispatcher} {areas : List Box} :
    Task.FailsByPush (dispatcher.enqueue areas) := by
  unfold Dispatcher.enqueue
  split
  case h_1 => trivial
  case h_2 => exact failsByPush_pushBoxes

theorem failsByPush_serve {dispatcher : Dispatcher} {listing : Listing} {content : Bytes} :
    Task.FailsByPush (dispatcher.serve listing content) := by
  rw [Dispatcher.serve_eq]
  split
  case isTrue => trivial
  case isFalse =>
    have puts : Task.FailsByPush (Task.putObject listing.key content) :=
      Task.failsByPush_of_pushless ⟨trivial, fun _ => trivial⟩
    split
    case isTrue => exact Task.failsByPush_bind puts fun _ => failsByPush_enqueue
    case isFalse => exact failsByPush_enqueue

theorem failsByPush_dispatch {dispatcher : Dispatcher} {listing : Listing} :
    Task.FailsByPush (dispatcher.dispatch listing) := by
  unfold Dispatcher.dispatch
  split
  case isTrue => trivial
  case isFalse =>
    have reads : Task.FailsByPush (Task.readFile listing.list) :=
      Task.failsByPush_of_pushless ⟨trivial, fun _ => trivial⟩
    apply Task.failsByPush_bind reads
    intro answer
    split
    case h_1 => trivial
    case h_2 => trivial
    case h_3 content => exact failsByPush_serve

end Upload

namespace Update

variable {setup : Setup} {order manager : Manager} {feed : String}

/-! ## Attempts -/

theorem failsByPush_cycle {sequence : Nat} :
    Task.FailsByPush (cycle setup manager feed sequence) := by
  have downloads : Task.FailsByPush
      (Feed.downloadDiff feed sequence (diffPath setup.workDirectory sequence)) :=
    Task.failsByPush_of_pushless (asks_download trivial (fun _ _ => trivial) fun _ => trivial)
  have merges : Task.FailsByPush (Task.merge (diffPath setup.workDirectory sequence)
      (mergedPath setup.workDirectory sequence)) :=
    Task.failsByPush_of_pushless ⟨trivial, fun _ => trivial⟩
  have applies : Task.FailsByPush (Task.forEach manager.entities
      (applyTo setup manager sequence (mergedPath setup.workDirectory sequence))) :=
    Task.failsByPush_of_pushless
      (Task.asks_forEach fun entity _ => asks_applyTo fun _ _ => trivial)
  have uploads : Task.FailsByPush (uploadAll setup manager sequence) := by
    unfold uploadAll
    split
    case h_1 => trivial
    case h_2 dispatcher _ =>
      split
      case isTrue => trivial
      case isFalse =>
        refine Task.failsByPush_bind (Task.failsByPush_ofExcept) fun listings => ?_
        exact Task.failsByPush_forEach fun _ => Upload.failsByPush_dispatch
  refine Task.failsByPush_bind downloads fun _ => Task.failsByPush_bind merges fun _ =>
    Task.failsByPush_bind applies fun _ => ?_
  split
  case isTrue => exact uploads
  case isFalse => trivial

/-- The end of an attempt that failed: its tools are ended and its files removed. -/
def abandoned {α : Type} (setup : Setup) (attempted : Manager) (rest : Dialogue collaborators α) :
    Dialogue collaborators α :=
  .ask (P := collaborators) .terminateTools fun _ =>
    (removeArtifacts setup attempted attempted.progress.next).run >>= fun _ => rest

theorem abandoned_bind {α β : Type} {attempted : Manager} {dialogue : Dialogue collaborators α}
    {rest : α → Dialogue collaborators β} :
    (abandoned setup attempted dialogue >>= rest) = abandoned setup attempted (dialogue >>= rest) :=
  congrArg (Dialogue.ask (P := collaborators) _) (funext fun _ => Dialogue.bind_assoc _ _ _)

/-- What follows an attempt that failed is an abandoned attempt. -/
theorem cleanUp_bind {β : Type} {failure : Failure}
    {rest : Except Failure Unit → Dialogue collaborators β} :
    ((cleanUp setup manager (.error failure)).run >>= rest) =
      abandoned setup manager (rest (.ok ())) := by
  have ended : ((cleanUp setup manager (.error failure)).run >>= rest) =
      (cleanUp setup manager (.error failure)).run >>= fun _ => rest (.ok ()) := by
    apply bind_congr_of_ends
    intro exchanges cleaned ends
    rw [ok_of_ends_cleanUp ends]
  rw [ended]
  rfl

/-- A push that is refused fails its attempt, without a commit and with the manager as it was. -/
theorem settles_appendNext :
    ((appendNext setup feed).starting manager).Throughout (Settles fun failure left =>
      left = abandoned setup manager (.done (.error failure, manager))) := by
  rw [starting_appendNext]
  apply settles_bind failsByPush_cycle
  · rintro failure _ rfl
    rw [done_bind, cleanUp_bind]
  · -- Nothing is pushed after the work of the cycle.
    intro exchanges worked _
    apply settles_of_pushless
    apply (asks_cleanUp trivial fun _ _ => trivial).bind
    intro cleaned
    cases cleaned with
    | error failure => trivial
    | ok _ =>
        cases worked with
        | error failure => trivial
        | ok _ => exact ⟨trivial, fun _ => trivial⟩

/-! ## Drives -/

/-- What a drive came to. -/
inductive Report where
  | append (outcome : Except Failure Unit)
  | step (outcome : Except Failure Outcome)
  | forever (outcome : Except Failure Rounds)

/-- The work of a drive, with a report of what it came to. -/
def Drive.report (setup : Setup) : Drive → Activity Manager Report
  | append feed => return .append (← (Update.append setup feed).attempt)
  | step feed => return .step (← (Update.step setup feed).attempt)
  | forever feed horizon => return .forever (← (Update.forever setup feed horizon).attempt)

/-- Drives with one manager, one after the other, with the report of each. -/
def reports (setup : Setup) : List Drive → Activity Manager (List Report)
  | [] => return []
  | drive :: rest => do
      let report ← drive.report setup
      let later ← reports setup rest
      return report :: later

/-- What was left after a push was refused: an abandoned attempt, and then what follows it. -/
def Abandons {α : Type} (setup : Setup) (order : Manager)
    (follows : Failure → Manager → Dialogue collaborators α → Prop) (failure : Failure)
    (left : Dialogue collaborators α) : Prop :=
  ∃ attempted last, SameOrder order attempted ∧ follows failure attempted last ∧
    left = abandoned setup attempted last

section Abandons

variable {α β : Type}

/-- What followed an abandoned attempt is followed by the rest. -/
theorem Abandons.bind {follows : Failure → Manager → Dialogue collaborators α → Prop}
    {later : Failure → Manager → Dialogue collaborators β → Prop}
    {rest : α → Dialogue collaborators β} {failure : Failure} {left : Dialogue collaborators α}
    (abandons : Abandons setup order follows failure left)
    (carry : ∀ attempted last, follows failure attempted last →
      later failure attempted (last >>= rest)) :
    Abandons setup order later failure (left >>= rest) := by
  obtain ⟨attempted, last, same, follow, rfl⟩ := abandons
  exact ⟨attempted, last >>= rest, same, carry attempted last follow, abandoned_bind⟩

/-- Nothing follows but the failure. -/
def Fails (failure : Failure) (attempted : Manager)
    (last : Dialogue collaborators (Except Failure α × Manager)) : Prop :=
  last = .done (.error failure, attempted)

/-- The lock is given back, and nothing follows but the failure. -/
def Releases (project : String) (failure : Failure) (attempted : Manager)
    (last : Dialogue collaborators (Except Failure α × Manager)) : Prop :=
  last = .ask (P := collaborators) (.release project) fun _ => .done (.error failure, attempted)

/-- The lock is given back, and fewer rounds follow after waiting. -/
def Waits (setup : Setup) (feed project : String) (horizon : Nat) (_ : Failure)
    (attempted : Manager)
    (last : Dialogue collaborators (Except Failure Rounds × Manager)) : Prop :=
  ∃ fewer < horizon, last = .ask (P := collaborators) (.release project) fun _ =>
    .ask (P := collaborators) .wait fun _ => (rounds setup feed fewer).starting attempted

theorem settles_activity_bind {activity : Activity Manager α} {rest : α → Activity Manager β}
    (hfirst : (activity.starting manager).Throughout (Settles (Abandons setup order Fails)))
    (hrest : ∀ exchanges value after,
      Ends (activity.starting manager) exchanges (.ok value, after) →
        ((rest value).starting after).Throughout (Settles (Abandons setup order Fails))) :
    ((activity >>= rest).starting manager).Throughout (Settles (Abandons setup order Fails)) := by
  rw [Activity.starting_bind]
  apply settles_bind hfirst
  · intro failure left abandons
    apply abandons.bind
    rintro attempted _ rfl
    rfl
  · rintro exchanges ⟨outcome, after⟩ ends
    cases outcome with
    | ok value => exact hrest exchanges value after ends
    | error failure => trivial

theorem settles_next (same : SameOrder order manager) :
    ((appendNext setup feed).starting manager).Throughout
      (Settles (Abandons setup order Fails)) := by
  apply settles_appendNext.mono
  intro inquiry next settles
  apply settles.mono
  rintro failure _ rfl
  exact ⟨manager, _, same, rfl, rfl⟩

/-- Work within the lock gives it back after an attempt that failed. -/
theorem settles_locked {work : Activity Manager α} (same : SameOrder order manager)
    (works : (work.starting manager).Throughout (Settles (Abandons setup order Fails))) :
    ((locked work).starting manager).Throughout
      (Settles (Abandons setup order (Releases order.progress.project))) := by
  rw [starting_locked, same.project]
  refine ⟨trivial, fun answer => ?_⟩
  obtain failure | ⟨⟨⟩⟩ := answer
  · trivial
  apply settles_bind works
  · intro failure left abandons
    apply abandons.bind
    rintro attempted _ rfl
    rfl
  · intro exchanges result _
    exact ⟨trivial, fun _ => trivial⟩

end Abandons

theorem settles_loadBoth
    {refused : Failure → Dialogue collaborators (Except Failure Unit × Manager) → Prop} :
    ((loadBoth feed).starting manager).Throughout (Settles refused) :=
  settles_of_pushless (asks_loadBoth trivial trivial)

theorem same_of_ends_appendNext {exchanges : List (Exchange collaborators)}
    {outcome : Except Failure Unit} {after : Manager} (same : SameOrder order manager)
    (ends : Ends ((appendNext setup feed).starting manager) exchanges (outcome, after)) :
    SameOrder order after := by
  rcases ends_appendNext ends with rfl | rfl
  · exact same
  · exact same.advanced

theorem settles_appendUpTo {cycles : Nat} (same : SameOrder order manager) :
    ((appendUpTo setup feed cycles).starting manager).Throughout
      (Settles (Abandons setup order Fails)) := by
  induction cycles generalizing manager with
  | zero => trivial
  | succ cycles ih =>
      rw [appendUpTo, Activity.starting_get_bind]
      split
      case isTrue => trivial
      case isFalse =>
        apply settles_activity_bind (settles_next same)
        intro exchanges _ after ends
        exact ih (same_of_ends_appendNext same ends)

theorem settles_appendAll (same : SameOrder order manager) :
    ((appendAll setup feed).starting manager).Throughout
      (Settles (Abandons setup order Fails)) := by
  apply settles_activity_bind settles_loadBoth
  intro exchanges _ after ends
  rw [Activity.starting_get_bind]
  exact settles_appendUpTo (same.trans (rereads_of_ends_loadBoth ends).sameOrder)

theorem settles_stepOnce (same : SameOrder order manager) :
    ((stepOnce setup feed).starting manager).Throughout
      (Settles (Abandons setup order Fails)) := by
  rw [stepOnce, Activity.starting_get_bind]
  split
  case isTrue => trivial
  case isFalse =>
    apply settles_activity_bind settles_loadBoth
    intro exchanges _ after ends
    have loaded := same.trans (rereads_of_ends_loadBoth ends).sameOrder
    rw [Activity.starting_get_bind]
    split
    case isTrue => trivial
    case isFalse => exact settles_activity_bind (settles_next loaded) fun _ _ _ _ => trivial

theorem same_of_ends_step {exchanges : List (Exchange collaborators)}
    {result : Except Failure Outcome × Manager} (same : SameOrder order manager)
    (ends : Ends ((step setup feed).starting manager) exchanges result) :
    SameOrder order result.2 := by
  have keeps : ((step setup feed).starting manager).Keeps _ _ _ [] :=
    (ordered setup order).conduct.keeps_step trivial ⟨same, trivial⟩
  exact (holds_of_ended (keeps.leads (leads_of_ends ends))).1

theorem settles_rounds {horizon : Nat} (same : SameOrder order manager) :
    ((rounds setup feed horizon).starting manager).Throughout
      (Settles (Abandons setup order (Waits setup feed order.progress.project horizon))) := by
  induction horizon generalizing manager with
  | zero => trivial
  | succ horizon ih =>
      have further : ∀ {later : Manager}, SameOrder order later →
          ((rounds setup feed horizon).starting later).Throughout (Settles
            (Abandons setup order (Waits setup feed order.progress.project (horizon + 1)))) := by
        intro later same
        apply (ih same).mono
        intro inquiry next settles
        apply settles.mono
        rintro failure left ⟨attempted, last, same, ⟨fewer, less, follows⟩, split⟩
        exact ⟨attempted, last, same, ⟨fewer, by omega, follows⟩, split⟩
      rw [starting_rounds_succ]
      refine ⟨trivial, fun cancelled => ?_⟩
      cases cancelled with
      | true => trivial
      | false =>
          apply settles_bind (settles_locked same (settles_stepOnce same))
          · intro failure left abandons
            apply abandons.bind
            rintro attempted _ rfl
            exact ⟨horizon, Nat.lt_succ_self horizon, rfl⟩
          · rintro exchanges ⟨outcome, after⟩ ends
            have stepped := further (same_of_ends_step same ends)
            obtain failure | ⟨⟨⟩ | ⟨⟩ | ⟨⟩⟩ := outcome
            · exact ⟨trivial, fun _ => stepped⟩
            · exact stepped
            · exact ⟨trivial, fun _ => stepped⟩
            · trivial

/-- How a drive goes on after an attempt of it failed and the lock was given back. -/
inductive Drive.Resumes (setup : Setup) (failure : Failure) :
    Drive → Activity Manager Report → Prop where
  | append (feed : String) :
      Drive.Resumes setup failure (.append feed) (pure (.append (.error failure)))
  | step (feed : String) :
      Drive.Resumes setup failure (.step feed) (pure (.step (.error failure)))
  | forever (feed : String) {horizon fewer : Nat} (less : fewer < horizon) :
      Drive.Resumes setup failure (.forever feed horizon) (do
        Task.wait
        (Drive.forever feed fewer).report setup)

/-- How a drive goes on after one of its attempts failed: the lock is given back first. -/
def Goes (setup : Setup) (project : String) (drive : Drive) (failure : Failure)
    (attempted : Manager)
    (last : Dialogue collaborators (Except Failure Report × Manager)) : Prop :=
  ∃ follow, drive.Resumes setup failure follow ∧
    last = .ask (P := collaborators) (.release project) fun _ => follow.starting attempted

/-- A report asks nothing more. -/
theorem starting_reporting {α : Type} {work : Activity Manager α}
    {make : Except Failure α → Report} :
    (do return make (← work.attempt) : Activity Manager Report).starting manager =
      work.starting manager >>= fun result => .done (.ok (make result.1), result.2) := by
  rw [Activity.starting_bind, Activity.starting_attempt, Dialogue.bind_assoc]
  rfl

theorem settles_forever {horizon : Nat} (same : SameOrder order manager) :
    ((Drive.report setup (.forever feed horizon)).starting manager).Throughout (Settles
      (Abandons setup order (Goes setup order.progress.project (.forever feed horizon)))) := by
  have reports : ∀ {horizon : Nat} {manager : Manager},
      (Drive.report setup (.forever feed horizon)).starting manager =
        (rounds setup feed horizon).starting manager >>= fun result =>
          afterRounds setup result >>= fun result =>
            .done (.ok (.forever result.1), result.2) := by
    intro horizon manager
    rw [Drive.report, starting_reporting, starting_forever, Dialogue.bind_assoc]
  rw [reports]
  apply settles_bind (settles_rounds same)
  · intro failure left abandons
    apply abandons.bind
    rintro attempted _ ⟨fewer, less, rfl⟩
    refine ⟨_, .forever feed less, ?_⟩
    refine congrArg (Dialogue.ask (P := collaborators) _) (funext fun _ => ?_)
    show _ = Activity.starting (_ >>= _) attempted
    rw [Activity.starting_bind]
    refine congrArg (Dialogue.ask (P := collaborators) _) (funext fun _ => ?_)
    exact reports.symm
  · intro exchanges result _
    exact settles_of_pushless ((asks_afterRounds trivial trivial).bind fun _ => trivial)

/-- What was left of a drive after a push was refused. -/
theorem settles_report {drive : Drive} (same : SameOrder order manager) :
    ((drive.report setup).starting manager).Throughout
      (Settles (Abandons setup order (Goes setup order.progress.project drive))) := by
  cases drive with
  | append feed =>
      rw [Drive.report, starting_reporting]
      apply settles_bind (settles_locked same (settles_appendAll same))
      · intro failure left abandons
        apply abandons.bind
        rintro attempted _ rfl
        exact ⟨_, .append feed, rfl⟩
      · exact fun _ _ _ => trivial
  | step feed =>
      rw [Drive.report, starting_reporting]
      apply settles_bind (settles_locked same (settles_stepOnce same))
      · intro failure left abandons
        apply abandons.bind
        rintro attempted _ rfl
        exact ⟨_, .step feed, rfl⟩
      · exact fun _ _ _ => trivial
  | forever feed horizon => exact settles_forever same

theorem settles_reports {drives : List Drive} :
    ((reports setup drives).starting manager).Throughout (Settles fun _ _ => True) := by
  induction drives generalizing manager with
  | nil => trivial
  | cons drive rest ih =>
      rw [reports, Activity.starting_bind]
      apply settles_bind (settles_report (.refl manager))
      · exact fun _ _ _ => trivial
      · rintro exchanges ⟨outcome, after⟩ _
        cases outcome with
        | error failure => trivial
        | ok report =>
            show Throughout _ (Activity.starting (_ >>= _) after)
            rw [Activity.starting_bind]
            apply settles_bind ih
            · exact fun _ _ _ => trivial
            · rintro _ ⟨outcome, last⟩ _
              cases outcome with
              | error failure => trivial
              | ok later => trivial

/--
A request that had been queued before cannot be told apart from one that was delivered. In
whichever of the pushes of some drives the one answer takes the place of the other, the
same is left at every moment: the same questions, the same reports and the same manager at
the end. After any other failure of a push the attempt ends at once, whatever is answered:
tools are ended, its files are removed, the lock is given back, nothing is put or counted,
and the drive fails with this failure or goes on to wait.
-/
theorem duplicate_request_indistinguishable (setup : Setup) (manager : Manager)
    (past : List (Exchange collaborators)) :
    (∀ drives rest said other,
      Leads recorded ((reports setup drives).starting manager) past rest (past ++ said) →
      List.Forall₂ (Exchange.Alike (P := collaborators) SameUpToDuplicates) said other →
        Leads recorded ((reports setup drives).starting manager) past rest (past ++ other)) ∧
    (∀ (drive : Drive) request next now failure,
      Leads recorded ((drive.report setup).starting manager) past
        (.ask (P := collaborators) (.push request) next) now →
      failure.isAlreadyQueued = false →
        ∃ attempted follow, SameOrder manager attempted ∧ drive.Resumes setup failure follow ∧
          next (.error failure) = abandoned setup attempted
            (.ask (P := collaborators) (.release manager.progress.project) fun _ =>
              follow.starting attempted)) ∧
    ∀ feed request next now failure,
      Leads recorded ((appendNext setup feed).starting manager) past
        (.ask (P := collaborators) (.push request) next) now →
      failure.isAlreadyQueued = false →
        next (.error failure) = abandoned setup manager (.done (.error failure, manager)) := by
  refine ⟨?_, ?_, ?_⟩
  · intro drives rest said other run alike
    exact settles_reports.leads_of_alike (fun _ _ settles _ _ same => settles.same same) run rfl
      alike
  · intro drive request next now failure run fresh
    have settles := ((settles_report (.refl manager)).leads run).1
    obtain ⟨attempted, _, same, ⟨follow, resumes, rfl⟩, left⟩ := settles.2 failure fresh
    exact ⟨attempted, follow, same, resumes, left⟩
  · intro feed request next now failure run fresh
    exact ((settles_appendNext.leads run).1).2 failure fresh

/-- An exchange in which a request that was delivered had been queued before. -/
def duplicated : Exchange collaborators → Exchange collaborators
  | ⟨.push request, (.ok _ : Except Failure Unit)⟩ =>
      Inquiry.answered (.push request) (Except.error (.alreadyQueued "tiles"))
  | exchange => exchange

theorem alike_duplicated (exchange : Exchange collaborators) :
    Exchange.Alike (P := collaborators) SameUpToDuplicates exchange (duplicated exchange) := by
  have same : ∀ other : Exchange collaborators,
      Exchange.Alike (P := collaborators) SameUpToDuplicates other other := by
    rintro ⟨inquiry, answer⟩
    refine .intro ?_
    cases inquiry with
    | push request => exact .inr rfl
    | _ => rfl
  unfold duplicated
  split
  · exact .intro (.inl ⟨trivial, rfl⟩)
  · exact same exchange

/-- The manager of the town with a queue as the only target. -/
def queueManager : Manager :=
  { townManager with
    dispatcher := some { toStore := false, toQueue := some ⟨"tiles", 0, 3⟩ } }

/-- A batch of the town to its end. -/
def townBatches : Dialogue collaborators (Except Failure (List Report) × Manager) ×
    List (Exchange collaborators) :=
  ((reports townSetup [.append "feed"]).starting queueManager).advance (P := collaborators) expiring
    20 []

/-- A batch of the town up to its push. -/
def townPush : Dialogue collaborators (Except Failure Report × Manager) ×
    List (Exchange collaborators) :=
  (((Drive.append "feed").report townSetup).starting queueManager).advance (P := collaborators)
    expiring 9 []

/-- The request that a dialogue is about to push. -/
def pushing? {α : Type} : Dialogue collaborators α → Option Queue.Request
  | .ask (Inquiry.push request) _ => some request
  | _ => none

theorem ask_of_pushing? {α : Type} {dialogue : Dialogue collaborators α}
    (pushing : (pushing? dialogue).isSome = true) :
    ∃ request next, dialogue = .ask (P := collaborators) (.push request) next := by
  unfold pushing? at pushing
  split at pushing
  case h_1 request next => exact ⟨request, next, rfl⟩
  case h_2 => cases pushing

/-- A batch that ends as before when its request had been queued, and is abandoned otherwise. -/
theorem townBatches_indistinguishable :
    ((townBatches.1.value?.isSome = true ∧
        Leads recorded ((reports townSetup [.append "feed"]).starting queueManager) []
          townBatches.1 (townBatches.2.map duplicated)) ∧
      townBatches.2.any (fun exchange => (Upload.pushOf? exchange).isSome) = true) ∧
    ∃ request next attempted,
      townPush.1 = .ask (P := collaborators) (.push request) next ∧
        next (.error (.queue "down")) = abandoned townSetup attempted
          (.ask (P := collaborators) (.release "town") fun _ =>
            .done (.ok (.append (.error (.queue "down"))), attempted)) := by
  obtain ⟨duplicates, refusals, -⟩ := duplicate_request_indistinguishable townSetup queueManager []
  have ended : townBatches.1.value?.isSome = true := by decide +kernel
  have pushed : townBatches.2.any (fun exchange => (Upload.pushOf? exchange).isSome) = true := by
    decide +kernel
  have alike : List.Forall₂ (Exchange.Alike (P := collaborators) SameUpToDuplicates) townBatches.2
      (townBatches.2.map duplicated) := by
    rw [List.forall₂_map_right_iff, List.forall₂_same]
    exact fun exchange _ => alike_duplicated exchange
  have batch : Leads recorded ((reports townSetup [.append "feed"]).starting queueManager) []
      townBatches.1 ([] ++ townBatches.2) := by
    rw [List.nil_append]
    exact leads_expiring 20 _ []
  have duplicate := duplicates [.append "feed"] townBatches.1 townBatches.2
    (townBatches.2.map duplicated) batch alike
  rw [List.nil_append] at duplicate
  refine ⟨⟨⟨ended, duplicate⟩, pushed⟩, ?_⟩
  have pushing : (pushing? townPush.1).isSome = true := by decide +kernel
  obtain ⟨request, next, asked⟩ := ask_of_pushing? pushing
  have push : Leads recorded (((Drive.append "feed").report townSetup).starting queueManager) []
      townPush.1 townPush.2 :=
    leads_expiring 9 _ []
  rw [asked] at push
  obtain ⟨attempted, _, _, ⟨⟩, left⟩ :=
    refusals (.append "feed") request next _ (.queue "down") push rfl
  exact ⟨request, next, attempted, asked, left⟩

end Update

end MapReplica
