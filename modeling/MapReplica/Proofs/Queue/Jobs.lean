import MapReplica.Proofs.Dialogue.Runs
import MapReplica.Queue.Jobs

/-!
# Requests that wait

A database that keeps its jobs puts a request into a queue unless one with the same key
waits there. So a request that was put into a queue, or was found there, is found there
whenever it is put again.
-/

namespace MapReplica.Queue

open Dialogue

/-- A job that waits: its schema, its queue and its key. -/
structure Waiting where
  schema : String
  queue : String
  key : String
  deriving DecidableEq, Repr

/-- How the insertion of a job may be answered: it is new exactly if no equal one waits. -/
def inserts (jobs : List Waiting) (job : Waiting) (answer : Except Database.Fault Bool)
    (after : List Waiting) : Prop :=
  match answer with
  | .ok true => job ∉ jobs ∧ after = job :: jobs
  | .ok false => job ∈ jobs ∧ after = jobs
  | .error _ => after = jobs

/-- Databases that keep their jobs. Statements may fail at any time; then nothing is inserted. -/
def keepsJobs : Surroundings Database.protocol (List Waiting)
  | jobs, .execute _ (.insertJob schema queue _ key), answer, after =>
      inserts jobs ⟨schema, queue, key⟩ answer after
  | jobs, _, _, after => after = jobs

variable {jobs : Jobs} {request again : Request} {waiting : List Waiting}

/-- The job of a request. -/
def Jobs.jobOf (jobs : Jobs) (request : Request) : Waiting :=
  ⟨jobs.schema, jobs.queue, request.key⟩

/-- Inserting a job asks for a session, inserts it there and gives the session back. -/
theorem keeps_once_insertJob {schema queue data key : String} :
    (Database.once (.insertJob schema queue data key)).Keeps keepsJobs (fun _ _ => True)
      (fun answer after => inserts waiting ⟨schema, queue, key⟩ answer after) waiting := by
  refine ⟨trivial, fun acquired after kept => ?_⟩
  cases kept
  cases acquired with
  | error fault => exact rfl
  | ok session =>
      refine ⟨trivial, fun answer after inserted => ⟨trivial, fun _ last kept => ?_⟩⟩
      cases kept
      exact inserted

/-- A request that was pushed, or found to wait, waits. -/
theorem Jobs.waits_after_push :
    (jobs.push request).Keeps keepsJobs (fun _ _ => True)
      (fun outcome after =>
        outcome = .ok () ∨ outcome = .error (.alreadyQueued jobs.queue) →
          jobs.jobOf request ∈ after)
      waiting := by
  refine keeps_once_insertJob.bind fun answer after inserted => ?_
  cases answer with
  | error fault =>
      rintro (impossible | impossible)
      · cases impossible
      · cases impossible
  | ok isNew =>
      cases isNew with
      | true =>
          intro _
          rw [inserted.2]
          exact List.mem_cons_self
      | false =>
          intro _
          rw [inserted.2]
          exact inserted.1

/-- The request is in the queue already, or the database did not do its work. -/
def Jobs.Recognised (jobs : Jobs) (outcome : Except Failure Unit) : Prop :=
  outcome = .error (.alreadyQueued jobs.queue) ∨
    ∃ fault : Database.Fault, outcome = .error (.queue fault.message)

/-- A request whose key waits is recognised. -/
theorem Jobs.recognised_of_waits (waits : jobs.jobOf again ∈ waiting) :
    (jobs.push again).Keeps keepsJobs (fun _ _ => True) (fun outcome _ => jobs.Recognised outcome)
      waiting := by
  refine keeps_once_insertJob.bind fun answer after inserted => ?_
  cases answer with
  | error fault => exact .inr ⟨fault, rfl⟩
  | ok isNew =>
      cases isNew with
      | true => exact (inserted.1 waits).elim
      | false => exact .inl rfl

/--
Once a request was pushed, or found to wait, another one is recognised whenever it is
pushed as long as all jobs wait that waited then.
-/
def Jobs.Recognises (jobs : Jobs) (request again : Request) : Prop :=
  ∀ waiting, (jobs.push request).Keeps keepsJobs (fun _ _ => True)
    (fun outcome after =>
      outcome = .ok () ∨ outcome = .error (.alreadyQueued jobs.queue) →
        ∀ later, (∀ job ∈ after, job ∈ later) →
          (jobs.push again).Keeps keepsJobs (fun _ _ => True)
            (fun outcome _ => jobs.Recognised outcome) later)
    waiting

/-- A request with the same key is recognised. -/
theorem Jobs.recognises_of_key (same : again.key = request.key) : jobs.Recognises request again := by
  intro waiting
  refine waits_after_push.mono fun outcome after waits accepted later kept => ?_
  have job : jobs.jobOf again = jobs.jobOf request := by rw [jobOf, jobOf, same]
  exact recognised_of_waits (job ▸ kept _ (waits accepted))

end MapReplica.Queue
