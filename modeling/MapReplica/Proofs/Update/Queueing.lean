import MapReplica.Proofs.Update.Courses
import MapReplica.Proofs.Update.Preparation

/-!
# The queue of a manager

Whether the queue runs is told by what was said: a preparation started it and nothing
has stopped it since. A manager that began as a fresh one knows this after any history,
and only with a queue in its setup. So at the end of its work it stops the queue exactly
if the queue still runs.
-/

namespace MapReplica

open Dialogue

/-- The inquiries that neither start nor stop the queue. -/
def Inquiry.Queueless : Inquiry → Prop
  | .startQueue => False
  | .stopQueue => False
  | _ => True

namespace Update

variable {setup : Setup} {manager after : Manager} {feed : String} {begins : Manager → Prop}
variable {past exchanges : List (Exchange collaborators)}

/-- Whether the queue runs after an exchange. A start that failed leaves it as it was. -/
def runsAfter (runs : Bool) : Exchange collaborators → Bool
  | ⟨.startQueue, (answer : Except Failure Unit)⟩ => runs || answer.toBool
  | ⟨.stopQueue, _⟩ => false
  | _ => runs

/-- Whether the queue was started and not stopped since. -/
def queueRuns (past : List (Exchange collaborators)) : Bool :=
  past.foldl runsAfter false

theorem queueRuns_append_singleton (exchange : Exchange collaborators) :
    queueRuns (past ++ [exchange]) = runsAfter (queueRuns past) exchange := by
  simp [queueRuns]

theorem queueRuns_of_queueless
    (queueless : ∀ exchange ∈ exchanges, Inquiry.Queueless exchange.question) :
    queueRuns (past ++ exchanges) = queueRuns past := by
  induction exchanges generalizing past with
  | nil => rw [List.append_nil]
  | cons exchange rest ih =>
      rw [← List.singleton_append, ← List.append_assoc,
        ih fun later member => queueless later (List.mem_cons_of_mem _ member),
        queueRuns_append_singleton]
      have other := queueless exchange List.mem_cons_self
      obtain ⟨question, answer⟩ := exchange
      cases question with
      | startQueue => exact other.elim
      | stopQueue => exact other.elim
      | _ => rfl

/-- A manager that knows whether the queue runs, which it does only if there is one. -/
structure KnowsQueue (setup : Setup) (manager : Manager) (past : List (Exchange collaborators)) :
    Prop where
  started : manager.queueStarted = queueRuns past
  queue : manager.queueStarted = true → setup.hasQueue = true

/-- What neither starts nor stops the queue leaves it known. -/
theorem KnowsQueue.of_queueless (knows : KnowsQueue setup manager past)
    (same : after.queueStarted = manager.queueStarted)
    (queueless : ∀ exchange ∈ exchanges, Inquiry.Queueless exchange.question) :
    KnowsQueue setup after (past ++ exchanges) := by
  constructor
  · rw [same, knows.started, queueRuns_of_queueless queueless]
  · rw [same]
    exact knows.queue

/-- The work ends with stopping the queue exactly if the queue runs. -/
theorem KnowsQueue.closed (knows : KnowsQueue setup manager past)
    (closed : Closed setup manager exchanges) :
    if queueRuns past then
      ∃ answer, exchanges =
        [Inquiry.answered .terminateTools (), Inquiry.answered .stopQueue answer]
    else exchanges = [Inquiry.answered .terminateTools ()] := by
  unfold Closed at closed
  rw [← knows.started]
  cases started : manager.queueStarted with
  | false =>
      rw [started] at closed
      exact closed
  | true =>
      rw [started, knows.queue started] at closed
      exact closed

theorem queueless_of_aside {inquiry : Inquiry} (aside : Aside inquiry) : inquiry.Queueless := by
  cases aside with
  | _ => trivial

theorem queueless_of_appendNext {inquiry : Inquiry} {order : Manager} {sequence : Nat}
    (asked : OfAppend setup order feed sequence inquiry) : inquiry.Queueless := by
  cases asked with
  | cycle asked => cases asked <;> trivial
  | terminate => trivial
  | commit body => trivial

theorem queueless_of_loading {workDirectory : Path} {resources : List Resource} {inquiry : Inquiry}
    (asked : Resource.OfLoading workDirectory resources inquiry) : inquiry.Queueless := by
  cases asked with
  | _ => trivial

/-- A manager knows whether the queue runs after each part of a call that prepares nothing. -/
theorem KnowsQueue.of_part (knows : KnowsQueue setup manager past)
    (part : Part setup begins manager exchanges after) :
    KnowsQueue setup after (past ++ exchanges) := by
  cases part with
  | aside _ aside =>
      apply knows.of_queueless rfl
      intro exchange member
      rw [List.mem_singleton.mp member]
      exact queueless_of_aside aside
  | load ends =>
      obtain ⟨_, _, _, _, rfl⟩ := rereads_of_ends_loadBoth ends
      exact knows.of_queueless rfl ((asks_loadBoth trivial trivial).of_ends ends)
  | @cycle feed _ _ _ _ _ ends =>
      have asks : ((appendNext setup feed).starting manager).Asks Inquiry.Queueless :=
        (asks_appendNext (.refl manager)).mono fun _ => queueless_of_appendNext
      refine knows.of_queueless ?_ (asks.of_ends ends)
      rcases ends_appendNext ends with rfl | rfl
      · rfl
      · rfl
  | close closed =>
      have closes := knows.closed closed
      refine ⟨?_, fun impossible => by cases impossible⟩
      split at closes
      case isTrue =>
        obtain ⟨answer, rfl⟩ := closes
        rw [← List.singleton_append, ← List.append_assoc, queueRuns_append_singleton]
        rfl
      case isFalse stays =>
        rw [closes, queueRuns_append_singleton]
        exact ((Bool.not_eq_true _).mp stays).symm

theorem KnowsQueue.of_course (knows : KnowsQueue setup manager past)
    (course : Course setup begins manager exchanges after) :
    KnowsQueue setup after (past ++ exchanges) := by
  induction course generalizing past with
  | nil manager =>
      rw [List.append_nil]
      exact knows
  | cons part _ ih =>
      rw [← List.append_assoc]
      exact ih (knows.of_part part)

/-! ## Preparations -/

variable {α : Type} {outcome : Except Failure α}

theorem KnowsQueue.of_onProgress (knows : KnowsQueue setup manager past)
    {activity : Activity Progress α}
    (asks : (activity.starting manager.progress).Asks Inquiry.Queueless)
    (ends : Ends ((onProgress activity).starting manager) exchanges (outcome, after)) :
    KnowsQueue setup after (past ++ exchanges) := by
  rw [Activity.starting_onProgress, ends_make_iff] at ends
  obtain ⟨result, worked, same⟩ := ends
  cases same
  exact knows.of_queueless rfl (asks.of_ends worked)

theorem KnowsQueue.of_onResources (knows : KnowsQueue setup manager past)
    {activity : Activity Resource.Cache α}
    (asks : (activity.starting manager.resources).Asks Inquiry.Queueless)
    (ends : Ends ((onResources activity).starting manager) exchanges (outcome, after)) :
    KnowsQueue setup after (past ++ exchanges) := by
  rw [Activity.starting_onResources, ends_make_iff] at ends
  obtain ⟨result, worked, same⟩ := ends
  cases same
  exact knows.of_queueless rfl (asks.of_ends worked)

/-- Starting the queue as the last part of a preparation. -/
theorem KnowsQueue.of_start (knows : KnowsQueue setup manager past) {outcome : Except Failure Unit}
    (ends : Ends ((do
        if setup.hasQueue then
          Task.startQueue
          modify fun manager => { manager with queueStarted := true } :
        Activity Manager Unit).starting manager) exchanges (outcome, after)) :
    KnowsQueue setup after (past ++ exchanges) := by
  split at ends
  case isTrue queue =>
    rcases Activity.of_ends_bind ends with ⟨_, -, front⟩ | ⟨_, _, _, _, rfl, front, back⟩
    · rw [Activity.starting_task, ends_make_iff] at front
      obtain ⟨_, started, same⟩ := front
      cases same
      cases ends_question_iff.mp started
      refine ⟨?_, knows.queue⟩
      rw [queueRuns_append_singleton, knows.started]
      exact (Bool.or_false _).symm
    · cases back
      obtain ⟨rfl, started⟩ := Activity.ends_task_ok_iff.mp front
      cases ends_question_iff.mp started
      refine ⟨?_, fun _ => queue⟩
      rw [List.append_nil, queueRuns_append_singleton]
      exact (Bool.or_true _).symm
  case isFalse =>
    cases ends
    rw [List.append_nil]
    exact knows

/-- A preparation starts the queue last, and knows of it exactly if the start succeeded. -/
theorem KnowsQueue.of_ends_prepare (knows : KnowsQueue setup manager past)
    {assignment : Assignment} {outcome : Except Failure Unit}
    (ends : Ends (((Call.prepare assignment).work setup).starting manager) exchanges
      (outcome, after)) :
    KnowsQueue setup after (past ++ exchanges) := by
  rw [Call.work, starting_prepare] at ends
  split at ends
  case h_1 =>
    cases ends
    rw [List.append_nil]
    exact knows
  case h_2 dispatcher _ =>
    have begins {start : Progress} : ((Progress.prepare setup.workDirectory setup.bucket
        assignment.project assignment.limit).starting start).Asks Inquiry.Queueless :=
      asks_prepare_progress trivial trivial
    rcases Activity.of_ends_bind ends with ⟨_, -, front⟩ | ⟨_, _, begun, _, rfl, front, back⟩
    · exact knows.of_onProgress begins front
    rw [← List.append_assoc]
    replace knows := knows.of_onProgress begins front
    have loads : ((Resource.load setup.workDirectory (assignment.entities.flatMap
        (resourcesOf assignment.project))).starting begun.resources).Asks Inquiry.Queueless :=
      Resource.asks_load.mono fun _ => queueless_of_loading
    rcases Activity.of_ends_bind back with ⟨_, -, front⟩ | ⟨_, _, loaded, _, rfl, front, back⟩
    · exact knows.of_onResources loads front
    rw [← List.append_assoc]
    replace knows := knows.of_onResources loads front
    rcases Activity.of_ends_bind back with ⟨_, -, front⟩ | ⟨_, _, filled, _, rfl, front, back⟩
    · cases front
    · cases front
      rw [List.nil_append]
      have filled : KnowsQueue setup
          { loaded with entities := assignment.entities, dispatcher := some dispatcher } _ :=
        ⟨knows.started, knows.queue⟩
      exact filled.of_start back

/-- A manager that began as a fresh one knows whether the queue runs after any history. -/
theorem knowsQueue_of_history {admits : Call → Manager → List (Exchange collaborators) →
      Except Failure Unit → Prop}
    (history : History recorded setup admits .fresh [] manager past) :
    KnowsQueue setup manager past := by
  induction history with
  | start => exact ⟨rfl, fun impossible => by cases impossible⟩
  | @call manager after state last call outcome earlier run admitted ih =>
      obtain ⟨exchanges, rfl, ends⟩ := ends_of_leads run rfl
      cases call with
      | prepare assignment => exact ih.of_ends_prepare ends
      | _ => exact ih.of_course (course_of_ends_call (by rfl) ends)

end Update

end MapReplica
