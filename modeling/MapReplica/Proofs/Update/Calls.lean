import MapReplica.Proofs.Update.Disk
import MapReplica.Update.Prepare

/-!
# Calls of a manager

A manager is called to prepare it, to bring its project forward, to run a single cycle
and to stop, in any order and however a call before ended. A call that prepares nothing
keeps the order of the manager, and all that it asks follows from this order.
-/

namespace MapReplica.Update

open Dialogue

/-- What a manager is to be prepared for. -/
structure Assignment where
  project : String
  entities : List Entity
  targets : List Upload.Target
  limit : Option Nat

/-- A call of a manager. -/
inductive Call where
  | prepare (assignment : Assignment)
  | drive (drive : Drive)
  | next (feed : String)
  | stop

/-- The assignment of a call that prepares. -/
def Call.assignment? : Call → Option Assignment
  | prepare assignment => some assignment
  | _ => none

/-- The calls that prepare nothing. -/
def Unpreparing {σ : Type} (call : Call) (_ : Manager) (_ : σ) (_ : Except Failure Unit) : Prop :=
  call.assignment? = none

/-- The work of a call. -/
def Call.work (setup : Setup) : Call → Activity Manager Unit
  | prepare assignment =>
      Update.prepare setup assignment.project assignment.entities assignment.targets
        assignment.limit
  | .drive way => way.work setup
  | next feed => appendNext setup feed
  | stop => Update.stop setup

/--
Calls of one manager, one after the other. What is admitted is said of a call, the manager
and the state in which it is made, and of how it ended.
-/
inductive History {σ : Type} (world : Surroundings collaborators σ) (setup : Setup)
    (admits : Call → Manager → σ → Except Failure Unit → Prop) (first : Manager) (start : σ) :
    Manager → σ → Prop where
  | start : History world setup admits first start first start
  | call {manager after : Manager} {state last : σ} {call : Call} {outcome : Except Failure Unit}
      (earlier : History world setup admits first start manager state)
      (run : Leads world ((call.work setup).starting manager) state (.done (outcome, after)) last)
      (admitted : admits call manager state outcome) :
      History world setup admits first start after last

section History

variable {σ : Type} {world : Surroundings collaborators σ} {setup : Setup}
variable {admits : Call → Manager → σ → Except Failure Unit → Prop}
variable {first manager : Manager} {start state : σ}

/-- What every admitted call keeps holds after any history. -/
theorem History.invariant {holds : Manager → σ → Prop} {allows : σ → Inquiry → Prop}
    (history : History world setup admits first start manager state) (begins : holds first start)
    (keeps : ∀ call manager state outcome, admits call manager state outcome →
      holds manager state → ((call.work setup).starting manager).Keeps world allows
        (fun result now => result.1 = outcome → holds result.2 now) state) :
    holds manager state := by
  induction history with
  | start => exact begins
  | call earlier run admitted ih =>
      exact ((keeps _ _ _ _ admitted ih).leads run) rfl

end History

/-! ## What is asked -/

/-- The inquiries of the calls that prepare nothing, for an order. -/
inductive OfCalls (setup : Setup) (order : Manager) : Inquiry → Prop where
  | idle {inquiry : Inquiry} (idle : Idle inquiry) : OfCalls setup order inquiry
  | reserve : OfCalls setup order (.reserve order.progress.project)
  | release : OfCalls setup order (.release order.progress.project)
  | load : OfCalls setup order (.getObject order.progress.key)
  | fetch (url : String) (headers : List Http.Header) : OfCalls setup order (.fetch url headers)
  | append {feed : String} {sequence : Nat} {inquiry : Inquiry}
      (asked : OfAppend setup order feed sequence inquiry) : OfCalls setup order inquiry

variable {setup : Setup} {order manager : Manager} {feed : String}

theorem asks_appendNext (same : SameOrder order manager) :
    ((appendNext setup feed).starting manager).Asks
      (OfAppend setup order feed manager.progress.next) := by
  have tidy : ((appendNext setup feed).starting manager).Keeps recorded
      (Tidy setup order feed manager.progress.next) (fun _ _ => True) [] :=
    keeps_tidy same rfl
  exact tidy.asks fun _ _ allowed => allowed.1

/-- A cycle with its commit leaves its manager as it was, or with the progress after a commit. -/
theorem ends_appendNext {exchanges : List (Exchange collaborators)} {outcome : Except Failure Unit}
    {after : Manager}
    (ends : Ends ((appendNext setup feed).starting manager) exchanges (outcome, after)) :
    after = manager ∨
      after = { manager with progress := manager.progress.advanced.countDown } := by
  generalize reached : (outcome, after) = result at ends
  cases cycled_of_ends ends with
  | failed _ _ => exact .inl (congrArg Prod.snd reached)
  | committed answer _ _ =>
      cases answer with
      | error failure => exact .inl (congrArg Prod.snd reached)
      | ok _ => exact .inr (congrArg Prod.snd reached)

theorem SameOrder.advanced (same : SameOrder order manager) :
    SameOrder order { manager with progress := manager.progress.advanced.countDown } :=
  (same.onProgress rfl : SameOrder order { manager with progress := manager.progress.advanced })
    |>.countDown

/-- A cycle with its commit keeps the order and the number of the feed, whatever answers. -/
theorem keeps_same_appendNext (same : SameOrder order manager) {σ : Type}
    {world : Surroundings collaborators σ} {state : σ} :
    ((appendNext setup feed).starting manager).Keeps world (fun _ _ => True)
      (fun result _ => SameOrder order result.2 ∧
        result.2.progress.remote = manager.progress.remote) state := by
  apply keeps_of_ends
  rintro exchanges ⟨outcome, after⟩ ends
  rcases ends_appendNext ends with rfl | rfl
  · exact ⟨same, rfl⟩
  · obtain ⟨remaining, counted⟩ := Progress.countDown_eq manager.progress.advanced
    exact ⟨same.advanced, (congrArg Progress.remote counted).trans rfl⟩

/-- A cycle with its commit keeps the order and asks what follows from it. -/
theorem keeps_ordered_next (same : SameOrder order manager)
    {past : List (Exchange collaborators)} :
    ((appendNext setup feed).starting manager).Keeps recorded (fun _ => OfCalls setup order)
      (fun result _ => SameOrder order result.2 ∧
        result.2.progress.remote = manager.progress.remote) past := by
  have asks : ((appendNext setup feed).starting manager).Keeps recorded
      (fun _ => OfCalls setup order) (fun _ _ => True) past :=
    (asks_appendNext same).keeps (fun _ _ asked _ => .append asked) fun _ _ _ _ => trivial
  apply (asks.and (keeps_same_appendNext same)).mono
  rintro result now ⟨-, kept⟩
  exact kept

/-- The order of a manager, as it steers drives: all that is asked follows from it. -/
def ordered (setup : Setup) (order : Manager) :
    Steering recorded (fun _ => OfCalls setup order) setup order Set.univ where
  outside _ := True
  inside _ := True
  known _ _ := True
  held _ _ := trivial
  idle idle _ := ⟨.idle idle, fun _ _ _ => trivial⟩
  reserve _ := ⟨.reserve, fun _ _ _ => ⟨fun _ => trivial, fun _ => trivial⟩⟩
  release _ := ⟨.release, fun _ _ _ => trivial⟩
  load _ _ := ⟨.load, fun _ _ _ => ⟨trivial, fun _ _ => trivial⟩⟩
  fetch _ _ := ⟨.fetch _ _, fun _ _ _ => trivial⟩
  remote _ _ := trivial
  appendNext := by
    intro manager past feed _ same _ _ _
    apply (keeps_ordered_next same).mono
    rintro result now ⟨same, remote⟩
    exact ⟨same, trivial, fun _ _ => ⟨trivial, remote⟩⟩

theorem keeps_call {call : Call} (unprepared : call.assignment? = none)
    (same : SameOrder order manager) {past : List (Exchange collaborators)} :
    ((call.work setup).starting manager).Keeps recorded (fun _ => OfCalls setup order)
      (fun result _ => SameOrder order result.2) past := by
  cases call with
  | prepare assignment => cases unprepared
  | drive way =>
      apply ((ordered setup order).keeps_work trivial same trivial).mono
      exact fun _ _ ended => ended.same
  | next feed => exact (keeps_ordered_next same).mono fun _ _ kept => kept.1
  | stop =>
      apply ((ordered setup order).conduct.keeps_stop ⟨same, trivial⟩).mono
      exact fun _ _ ended => (holds_of_ended ended).1

/-- A call that prepares nothing asks what follows from the order of its manager. -/
theorem asks_call {call : Call} (unprepared : call.assignment? = none)
    (same : SameOrder order manager) :
    ((call.work setup).starting manager).Asks (OfCalls setup order) := by
  have keeps : ((call.work setup).starting manager).Keeps recorded (fun _ => OfCalls setup order)
      (fun result _ => SameOrder order result.2) [] := keeps_call unprepared same
  exact keeps.asks fun _ _ allowed => allowed

section Calls

variable {σ : Type} {world : Surroundings collaborators σ}
variable {admits : Call → Manager → σ → Except Failure Unit → Prop}
variable {first : Manager} {start state : σ}

/-- A call that prepares nothing keeps the order, whatever answers. -/
theorem keeps_same_call {call : Call} (unprepared : call.assignment? = none)
    (same : SameOrder order manager) :
    ((call.work setup).starting manager).Keeps world (fun _ _ => True)
      (fun result _ => SameOrder order result.2) state := by
  apply keeps_of_ends
  intro exchanges result ends
  have keeps : ((call.work setup).starting manager).Keeps recorded (fun _ => OfCalls setup order)
      (fun result _ => SameOrder order result.2) [] := keeps_call unprepared same
  exact keeps.leads (leads_of_ends ends)

/-- A history of calls that prepare nothing keeps the order. -/
theorem History.sameOrder
    (unprepared : ∀ call manager state outcome, admits call manager state outcome →
      call.assignment? = none)
    (history : History world setup admits order start manager state) : SameOrder order manager := by
  apply history.invariant (SameOrder.refl order)
  intro call manager state outcome admitted same
  apply (keeps_same_call (unprepared call manager state outcome admitted) same).mono
  exact fun _ _ kept _ => kept

end Calls

/-! ## What is put, written and applied -/

variable {inquiry : Inquiry}

/-- The only progress text that is written is that of the project. -/
theorem OfCalls.puts {key : String} {body : Bytes}
    (asked : OfCalls setup order (.putObject key body)) :
    key = order.progress.key ∨ ∀ project, key ≠ Progress.keyOf project := by
  cases asked with
  | idle idle => cases idle
  | append asked =>
      cases asked with
      | commit body => exact .inl rfl
      | cycle asked => exact .inr (OfCycle.spares asked)

/-- Only files of cycles are changed. -/
theorem OfCalls.writes (asked : OfCalls setup order inquiry) {path : Path}
    (member : path ∈ inquiry.writes) :
    ∃ sequence, path ∈ artifacts setup.workDirectory order.progress.project order.entities
      sequence := by
  cases asked with
  | append asked => exact ⟨_, asked.writes member⟩
  | idle idle => cases idle <;> cases member
  | reserve => cases member
  | release => cases member
  | load => cases member
  | fetch url headers => cases member

/-- What is applied is the merged diff of a number, to an entity with its script. -/
theorem OfCalls.applies {arguments : ApplyArguments}
    (asked : OfCalls setup order (.applyDiff arguments)) :
    ∃ entity ∈ order.entities, ∃ sequence style,
      order.resources.scriptPath (entity.scriptKey order.progress.project) = .ok style ∧
        arguments = argumentsFor setup order sequence (mergedPath setup.workDirectory sequence)
          entity style := by
  cases asked with
  | idle idle => cases idle
  | append asked =>
      cases asked with
      | cycle asked =>
          cases asked with
          | apply entity style member found => exact ⟨entity, member, _, style, found, rfl⟩

end MapReplica.Update
