import MapReplica.Lock.Advisory
import MapReplica.Proofs.Dialogue.Runs

/-!
# Calls of the lock

A lock is recorded as held only right after the database granted it, with the session in
which it did so. After a call that failed, and after every release, it is not recorded.
-/

namespace MapReplica.Lock

open Dialogue

/-- Surroundings that answer anything; their state is the exchange that came last. -/
def latest {P : Protocol} : Surroundings P (Option (Exchange P)) :=
  fun _ question answer after => after = some ⟨question, answer⟩

variable {project : String} {held : Held}

/-- What a call that takes a lock comes to, and the exchange in which the database granted it. -/
def Reserved (project : String) (result : Except Failure Unit × Held)
    (last : Option (Exchange Database.protocol)) : Prop :=
  match result.1 with
  | .ok _ => ∃ session, result.2.session? project = some session ∧
      last = some ⟨.execute session (.tryLock project),
        (Except.ok true : Except Database.Fault Bool)⟩
  | .error _ => result.2.session? project = none

/-- What a call that gives a lock back comes to. -/
def Released (project : String) (result : Except Failure Unit × Held)
    (_ : Option (Exchange Database.protocol)) : Prop :=
  result.2.session? project = none

theorem session?_without : (held.without project).session? project = none := by
  simp [Held.session?, Held.without]

theorem session?_cons {session : Database.Session} :
    Held.session? ((project, session) :: held) project = some session := by
  simp [Held.session?]

/-- Taking a lock that is not recorded. -/
theorem keeps_reserve (free : held.session? project = none)
    {last : Option (Exchange Database.protocol)} :
    ((reserve project).run held).Keeps latest (fun _ _ => True) (Reserved project) last := by
  simp only [reserve, StateT.run_bind, StateT.run_get, pure_eq, done_bind, free]
  refine ⟨trivial, ?_⟩
  rintro (fault | session) _ rfl
  · exact free
  refine ⟨trivial, ?_⟩
  rintro (fault | ⟨⟨⟩ | ⟨⟩⟩) _ rfl
  · exact ⟨trivial, fun _ _ _ => free⟩
  · exact ⟨trivial, fun _ _ _ => free⟩
  · exact ⟨session, session?_cons, rfl⟩

/-- Giving a lock back, recorded or not. -/
theorem keeps_release {last : Option (Exchange Database.protocol)} :
    ((release project).run held).Keeps latest (fun _ _ => True) (Released project) last := by
  simp only [release, StateT.run_bind, StateT.run_get, pure_eq, done_bind]
  cases recorded : held.session? project with
  | none => exact recorded
  | some session => exact ⟨trivial, fun _ _ _ => ⟨trivial, fun _ _ _ => session?_without⟩⟩

end MapReplica.Lock
