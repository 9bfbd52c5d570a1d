import MapReplica.Proofs.Dialogue.Work
import MapReplica.Upload

/-!
# Failures of work

Which failures work can end with if its collaborators report only certain ones. Work in
sequence fails only with what its parts fail with, so each kind of work has one rule.
-/

namespace MapReplica

open Dialogue

variable {α β : Type}

/-- The failure that an outcome is, if it is one. -/
def failure? : Except Failure α → Option Failure
  | .error failure => some failure
  | .ok _ => none

/-- The failure that an answer reports. What the disk and a server refuse is no failure yet. -/
def Inquiry.reported? : (inquiry : Inquiry) → inquiry.Answer → Option Failure
  | .bucketExists, (answer : Except Failure Bool) => failure? answer
  | .getObject _, (answer : Except Failure Bytes) => failure? answer
  | .putObject _ _, (answer : Except Failure Unit) => failure? answer
  | .merge _ _, (answer : Except Failure Unit) => failure? answer
  | .applyDiff _, (answer : Except Failure Unit) => failure? answer
  | .importDump _ _, (answer : Except Failure Unit) => failure? answer
  | .startQueue, (answer : Except Failure Unit) => failure? answer
  | .stopQueue, (answer : Except Failure Unit) => failure? answer
  | .push _, (answer : Except Failure Unit) => failure? answer
  | .reserve _, (answer : Except Failure Unit) => failure? answer
  | .release _, (answer : Except Failure Unit) => failure? answer
  | _, _ => none

/-- Collaborators that report only certain failures. -/
def reporting (fails : Failure → Prop) : Surroundings collaborators Unit :=
  fun _ question answer _ => ∀ failure, question.reported? answer = some failure → fails failure

namespace Task

/-- Work that ends only with certain failures if only these are reported. -/
def FailsOnly (fails : Failure → Prop) (task : Task α) : Prop :=
  task.run.Keeps (reporting fails) (fun _ _ => True)
    (fun outcome _ => ∀ failure, outcome = .error failure → fails failure) ()

variable {fails : Failure → Prop}

theorem failsOnly_pure {value : α} : FailsOnly fails (pure value : Task α) := by
  intro failure impossible
  cases impossible

theorem failsOnly_throw {failure : Failure} (fits : fails failure) :
    FailsOnly fails (throw failure : Task α) := by
  rintro _ ⟨⟩
  exact fits

theorem failsOnly_bind {first : Task α} {rest : α → Task β} (hfirst : FailsOnly fails first)
    (hrest : ∀ value, FailsOnly fails (rest value)) : FailsOnly fails (first >>= rest) := by
  apply keeps_bind hfirst
  · intro value after _
    exact hrest value
  · rintro failure after fits _ ⟨⟩
    exact fits failure rfl

theorem failsOnly_forEach {items : List α} {work : α → Task Unit}
    (each : ∀ item ∈ items, FailsOnly fails (work item)) :
    FailsOnly fails (forEach items work) := by
  induction items with
  | nil => exact failsOnly_pure
  | cons item rest ih =>
      apply failsOnly_bind (each item List.mem_cons_self)
      intro _
      exact ih fun later member => each later (List.mem_cons_of_mem _ member)

/-- Work whose failure is an outcome fails with nothing; the outcome is still a failure that fits. -/
theorem failsOnly_outcome_bind {task : Task α} {rest : Except Failure α → Task β}
    (htask : FailsOnly fails task)
    (hrest : ∀ outcome, (∀ failure, outcome = .error failure → fails failure) →
      FailsOnly fails (rest outcome)) : FailsOnly fails (Task.outcome task >>= rest) := by
  have attempts : (Task.outcome task).run.Keeps (reporting fails) (fun _ _ => True)
      (fun outcome _ => ∃ given, outcome = .ok given ∧
        ∀ failure, given = .error failure → fails failure) () := by
    apply Keeps.bind htask
    intro given after fits
    exact ⟨given, rfl, fits⟩
  apply keeps_bind attempts
  · rintro given after ⟨_, ⟨⟩, fits⟩
    exact hrest given fits
  · rintro failure after ⟨_, impossible, -⟩
    cases impossible

/-! ## Questions -/

/-- A question whose outcome is what its answer reports. -/
theorem failsOnly_answer (inquiry : Inquiry) (make : inquiry.Answer → Except Failure α)
    (reported : ∀ answer, inquiry.reported? answer = failure? (make answer)) :
    FailsOnly fails
      (ExceptT.mk (.ask (P := collaborators) inquiry fun answer => .done (make answer))) := by
  refine ⟨trivial, fun answer _ reports failure same => reports failure ?_⟩
  exact (reported answer).trans (congrArg failure? same)

theorem failsOnly_putObject {key : String} {body : Bytes} : FailsOnly fails (putObject key body) :=
  failsOnly_answer (.putObject key body) (fun answer => answer) fun _ => rfl

theorem failsOnly_merge {input output : Path} : FailsOnly fails (merge input output) :=
  failsOnly_answer (.merge input output) (fun answer => answer) fun _ => rfl

theorem failsOnly_applyDiff {arguments : ApplyArguments} : FailsOnly fails (applyDiff arguments) :=
  failsOnly_answer (.applyDiff arguments) (fun answer => answer) fun _ => rfl

theorem failsOnly_push {request : Queue.Request} : FailsOnly fails (push request) :=
  failsOnly_answer (.push request) (fun answer => answer) fun _ => rfl

theorem failsOnly_fetch {url : String} {headers : List Http.Header} :
    FailsOnly fails (fetch url headers) := by
  refine ⟨trivial, fun answer _ _ failure impossible => ?_⟩
  cases impossible

theorem failsOnly_readFile {path : Path} : FailsOnly fails (readFile path) := by
  refine ⟨trivial, fun answer _ _ failure impossible => ?_⟩
  cases impossible

section Files

variable (files : ∀ fault : FileFault, fails fault.failure)

include files

theorem failsOnly_createDirectory {path : Path} : FailsOnly fails (createDirectory path) := by
  refine ⟨trivial, fun answer _ _ failure same => ?_⟩
  rcases answer with fault | ⟨⟩
  · cases same
    exact files fault
  · cases same

theorem failsOnly_writeFile {path : Path} {content : Bytes} :
    FailsOnly fails (writeFile path content) := by
  refine ⟨trivial, fun answer _ _ failure same => ?_⟩
  rcases answer with fault | ⟨⟩
  · cases same
    exact files fault
  · cases same

end Files

end Task

end MapReplica
