import MapReplica.Proofs.Update.Discipline

/-!
# Orderly sessions

All that a drive is put together from keeps to the discipline of its manager. So every
session is orderly, whatever the collaborators answer.
-/

namespace MapReplica.Update

open Dialogue

variable {setup : Setup} {order manager : Manager} {feeds : Set String} {project : String}
variable {past : List (Exchange collaborators)}

/-- What was said did not take the lock, or gave it back. -/
def Free (order : Manager) (past : List (Exchange collaborators)) : Prop :=
  phaseOf order.progress.project past = .outside

theorem phaseOf_reserve {answer : Except Failure Unit} :
    phaseOf project (past ++ [Inquiry.answered (.reserve project) answer]) =
      if answer.toBool then .inside else .outside :=
  phaseOf_append_singleton _

theorem phaseOf_release {answer : Except Failure Unit} :
    phaseOf project (past ++ [Inquiry.answered (.release project) answer]) = .outside :=
  phaseOf_append_singleton _

/-- Reading the text leaves a manager within the lock; it knows the text after a success. -/
theorem phaseOf_load (answer : Except Failure Bytes) (held : Held order past) :
    Held order (past ++ [Inquiry.answered (.getObject order.progress.key) answer]) ∧
      ∀ body, answer = .ok body → phaseOf order.progress.project
        (past ++ [Inquiry.answered (.getObject order.progress.key) answer]) = .knows body := by
  unfold Held
  rw [phaseOf_append_singleton]
  cases answer with
  | error failure => exact ⟨held, fun _ ok => by cases ok⟩
  | ok body =>
      have phase : Phase.after order.progress.project (phaseOf order.progress.project past)
          (Inquiry.answered (.getObject order.progress.key) (Except.ok body)) = .knows body :=
        if_pos rfl
      refine ⟨fun outside => ?_, fun other same => ?_⟩
      · cases phase.symm.trans outside
      · cases same
        exact phase

/-- A text that was read well is known, with its number. -/
theorem knows_of_load {answer : Except Failure Bytes} {progress : Progress}
    (same : SameOrder order manager) (held : Held order past)
    (read : readProject manager.progress answer = (.ok (), progress)) :
    ∃ sequence, Knows { manager with progress }
      (past ++ [Inquiry.answered (.getObject order.progress.key) answer]) sequence := by
  obtain ⟨body, content, sequence, answered, decoded, number, loaded⟩ := of_readProject_ok read
  have project : progress.project = order.progress.project := by
    rw [loaded]
    exact same.project
  have phase := (phaseOf_load answer held).2 body answered
  refine ⟨sequence, ⟨body, ?_, ?_⟩, ?_, ?_⟩
  · exact (congrArg (phaseOf · _) project).trans phase
  · exact decoded.trans (congrArg (some <| String.ofList ·.content) loaded.symm)
  · exact (congrArg (Marker.read? ·.content) loaded).trans number
  · exact congrArg (·.current) loaded

theorem free_of_spares {exchange : Exchange collaborators}
    (spares : Inquiry.SparesProgress exchange.question) (free : Free order past) :
    Free order (past ++ [exchange]) := by
  unfold Free
  rw [phaseOf_append_singleton, Phase.after_of_spares spares]
  exact free

/-- A number that the feed is ahead of has a number after it. -/
theorem Knows.fits {sequence : Nat} (knows : Knows manager past sequence)
    (range : manager.progress.remote ≤ Number.maxSigned64)
    (behind : manager.progress.isUpToDate = false) : sequence + 1 ≤ Number.maxSigned64 := by
  have ahead : ¬ manager.progress.remote ≤ manager.progress.current := of_decide_eq_false behind
  rw [knows.current] at ahead
  omega

/-- The discipline of a manager, as it steers drives. -/
def orderly (setup : Setup) (order : Manager) (feeds : Set String) :
    Steering recorded (Orderly setup order feeds) setup order feeds where
  outside := Free order
  inside := Held order
  known manager past := ∃ sequence, Knows manager past sequence
  held := by
    rintro manager past same ⟨sequence, knows⟩
    unfold Held
    exact same.project ▸ knows.within
  idle := by
    intro past inquiry idle free
    cases idle with
    | cancelled => exact ⟨trivial, fun answer _ step => step ▸ free_of_spares trivial free⟩
    | wait => exact ⟨trivial, fun answer _ step => step ▸ free_of_spares trivial free⟩
    | terminate => exact ⟨trivial, fun answer _ step => step ▸ free_of_spares trivial free⟩
    | stopQueue => exact ⟨trivial, fun answer _ step => step ▸ free_of_spares trivial free⟩
  reserve := by
    intro past free
    refine ⟨⟨rfl, free⟩, ?_⟩
    rintro answer _ rfl
    constructor
    · rintro rfl outside
      cases phaseOf_reserve.symm.trans outside
    · intro refused
      exact phaseOf_reserve.trans (if_neg (by rw [refused]; exact Bool.false_ne_true))
  release := by
    intro past held
    refine ⟨⟨rfl, held⟩, ?_⟩
    rintro answer _ rfl
    exact phaseOf_release
  load := by
    intro manager past same held
    refine ⟨⟨rfl, held⟩, ?_⟩
    rintro answer _ rfl
    exact ⟨(phaseOf_load answer held).1, fun progress read => knows_of_load same held read⟩
  fetch := by
    rintro manager past url headers same ⟨sequence, knows⟩
    refine ⟨trivial, ?_⟩
    rintro answer _ rfl
    refine ⟨sequence, knows.append fun exchange member => ?_⟩
    rw [List.mem_singleton.mp member]
    trivial
  remote := by
    rintro manager past ⟨sequence, knows⟩ remote
    exact ⟨sequence, knows.text, knows.number, knows.current⟩
  appendNext := by
    rintro manager past feed served same ⟨sequence, knows⟩ range behind
    refine (keeps_appendNext served same knows (knows.fits range behind)).mono ?_
    intro result now within
    exact ⟨within.same, within.held, fun value ok =>
      ⟨⟨sequence + 1, (within.known value ok).1⟩, (within.known value ok).2⟩⟩

/-- A drive that starts outside of the lock is orderly, whatever the collaborators answer. -/
theorem orderly_work {drive : Drive} (served : drive.feed ∈ feeds) (same : SameOrder order manager)
    (free : Free order past) :
    ((drive.work setup).starting manager).Keeps recorded (Orderly setup order feeds)
      (Outside order (Free order)) past :=
  (orderly setup order feeds).keeps_work served same free

/-- A session that starts outside of the lock is orderly, whatever the collaborators answer. -/
theorem orderly_session {drives : List Drive} (served : ∀ drive ∈ drives, drive.feed ∈ feeds)
    (same : SameOrder order manager) (free : Free order past) :
    ((session setup drives).starting manager).Keeps recorded (Orderly setup order feeds)
      (Outside order (Free order)) past :=
  (orderly setup order feeds).keeps_session served same free

end MapReplica.Update
