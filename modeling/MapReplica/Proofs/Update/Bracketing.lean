import MapReplica.Proofs.Update.Continuous
import MapReplica.Proofs.Update.Instances

/-!
# Brackets

All that a batch or a step does lies between taking the lock of its project and giving it
back, whatever the collaborators answer. So continuous work takes the lock only where it
was given back before, and gives it back only where it was taken.
-/

namespace MapReplica.Update

open Dialogue

variable {setup : Setup} {manager after : Manager} {feed project : String} {α : Type}
variable {exchanges front back : List (Exchange collaborators)} {held last : Bool}

/-! ## Work that leaves the lock alone -/

theorem OfAppend.sparesLock {order : Manager} {sequence : Nat} {inquiry : Inquiry}
    (asked : OfAppend setup order feed sequence inquiry) : inquiry.SparesLock := by
  cases asked with
  | cycle asked => cases asked <;> trivial
  | terminate => trivial
  | commit body => trivial

theorem asksSparing_appendNext : ((appendNext setup feed).starting manager).Asks
    Inquiry.SparesLock :=
  (asks_appendNext (.refl manager)).mono fun _ asked => asked.sparesLock

theorem asksSparing_appendUpTo {cycles : Nat} :
    ((appendUpTo setup feed cycles).starting manager).Asks Inquiry.SparesLock := by
  induction cycles generalizing manager with
  | zero => trivial
  | succ cycles ih =>
      rw [appendUpTo, Activity.starting_get_bind]
      split
      case isTrue => trivial
      case isFalse => exact Activity.asks_bind asksSparing_appendNext fun _ _ => ih

theorem asksSparing_appendAll :
    ((appendAll setup feed).starting manager).Asks Inquiry.SparesLock := by
  apply Activity.asks_bind (asks_loadBoth trivial trivial)
  intro _ between
  rw [Activity.starting_get_bind]
  exact asksSparing_appendUpTo

theorem asksSparing_stepOnce :
    ((stepOnce setup feed).starting manager).Asks Inquiry.SparesLock := by
  rw [stepOnce, Activity.starting_get_bind]
  split
  case isTrue => trivial
  case isFalse =>
    apply Activity.asks_bind (asks_loadBoth trivial trivial)
    intro _ between
    rw [Activity.starting_get_bind]
    split
    case isTrue => trivial
    case isFalse => exact Activity.asks_bind asksSparing_appendNext fun _ _ => trivial

/-! ## One call -/

/--
The complete runs of work within the lock. If the lock is refused, nothing else happens and
that is the failure. Otherwise the work is done, which leaves the lock alone, and whatever
it came to the lock is given back once, at last; the failure of the work wins over the one
of the lock.
-/
inductive Bracketed (work : Activity Manager α) (manager : Manager) :
    List (Exchange collaborators) → Except Failure α × Manager → Prop where
  | refused (failure : Failure) :
      Bracketed work manager
        [Inquiry.answered (.reserve manager.progress.project) (Except.error failure)]
        (.error failure, manager)
  | worked {body : List (Exchange collaborators)} {outcome : Except Failure α} {after : Manager}
      (ends : Ends (work.starting manager) body (outcome, after))
      (spares : ∀ exchange ∈ body, exchange.question.SparesLock)
      (released : Except Failure Unit) :
      Bracketed work manager
        (Inquiry.answered (.reserve manager.progress.project) (Except.ok ()) ::
          (body ++ [Inquiry.answered (.release manager.progress.project) released]))
        (settled outcome released, after)

/-- Work that leaves the lock alone runs within it exactly as its bracket says. -/
theorem ends_locked_iff {work : Activity Manager α} {result : Except Failure α × Manager}
    (asks : (work.starting manager).Asks Inquiry.SparesLock) :
    Ends ((locked work).starting manager) exchanges result ↔
      Bracketed work manager exchanges result := by
  rw [starting_locked]
  constructor
  · intro ends
    obtain ⟨reserved, later, rfl, asked⟩ := ends_ask_iff.mp ends
    obtain failure | ⟨⟨⟩⟩ := reserved
    · cases asked
      exact .refused failure
    · obtain ⟨body, ⟨outcome, after⟩, _, rfl, works, given⟩ := ends_bind_iff.mp asked
      obtain ⟨released, _, rfl, rest⟩ := ends_ask_iff.mp given
      cases rest
      exact .worked works (asks.of_ends works) released
  · intro bracketed
    cases bracketed with
    | refused failure => exact .ask (.done _)
    | worked ends _ released =>
        refine .ask (ends_bind_iff.mpr ⟨_, _, _, rfl, ends, ?_⟩)
        exact .ask (.done _)

/-! ## Many calls -/

/--
What a manager says that is outside of the lock of its project (`false`) or within it
(`true`) when it begins, and when it is through. Outside it may take the lock or idle;
within it does all else, and gives the lock back.
-/
inductive Alternates (project : String) :
    Bool → List (Exchange collaborators) → Bool → Prop where
  | nil (held : Bool) : Alternates project held [] held
  | taken {later : List (Exchange collaborators)} {last : Bool}
      (rest : Alternates project true later last) :
      Alternates project false (Inquiry.answered (.reserve project) (Except.ok ()) :: later) last
  | refused (failure : Failure) {later : List (Exchange collaborators)} {last : Bool}
      (rest : Alternates project false later last) :
      Alternates project false
        (Inquiry.answered (.reserve project) (Except.error failure) :: later) last
  | given (released : Except Failure Unit) {later : List (Exchange collaborators)} {last : Bool}
      (rest : Alternates project false later last) :
      Alternates project true (Inquiry.answered (.release project) released :: later) last
  | within {exchange : Exchange collaborators} {later : List (Exchange collaborators)}
      {last : Bool} (spares : exchange.question.SparesLock)
      (rest : Alternates project true later last) :
      Alternates project true (exchange :: later) last
  | idle {exchange : Exchange collaborators} {later : List (Exchange collaborators)} {last : Bool}
      (idle : Idle exchange.question) (rest : Alternates project false later last) :
      Alternates project false (exchange :: later) last

namespace Alternates

theorem append {between : Bool} (first : Alternates project held front between)
    (further : Alternates project between back last) :
    Alternates project held (front ++ back) last := by
  induction first with
  | nil held => exact further
  | taken _ ih => exact .taken (ih further)
  | refused failure _ ih => exact .refused failure (ih further)
  | given released _ ih => exact .given released (ih further)
  | within spares _ ih => exact .within spares (ih further)
  | idle idle _ ih => exact .idle idle (ih further)

theorem beginning (whole : Alternates project held (front ++ back) last) :
    ∃ between, Alternates project held front between := by
  induction front generalizing held with
  | nil => exact ⟨held, .nil held⟩
  | cons exchange front ih =>
      cases whole with
      | taken rest => exact (ih rest).imp fun _ => .taken
      | refused failure rest => exact (ih rest).imp fun _ => .refused failure
      | given released rest => exact (ih rest).imp fun _ => .given released
      | within spares rest => exact (ih rest).imp fun _ => .within spares
      | idle idle rest => exact (ih rest).imp fun _ => .idle idle

theorem of_spares (spare : ∀ exchange ∈ exchanges, exchange.question.SparesLock) :
    Alternates project true exchanges true := by
  induction exchanges with
  | nil => exact .nil true
  | cons exchange rest ih =>
      obtain ⟨first, others⟩ := List.forall_mem_cons.mp spare
      exact .within first (ih others)

theorem of_idle (idle : ∀ exchange ∈ exchanges, Idle exchange.question) :
    Alternates project false exchanges false := by
  induction exchanges with
  | nil => exact .nil false
  | cons exchange rest ih =>
      obtain ⟨first, others⟩ := List.forall_mem_cons.mp idle
      exact .idle first (ih others)

end Alternates

/-- A call begins and ends outside of the lock. -/
theorem Bracketed.alternates {work : Activity Manager α} {result : Except Failure α × Manager}
    (bracketed : Bracketed work manager exchanges result) :
    Alternates manager.progress.project false exchanges false := by
  cases bracketed with
  | refused failure => exact .refused failure (.nil false)
  | worked _ spares released =>
      exact .taken ((Alternates.of_spares spares).append (.given released (.nil false)))

/-! ### Rounds -/

theorem Part.sameOrder {begins : Manager → Prop}
    (part : Part setup begins manager exchanges after) : SameOrder manager after := by
  cases part with
  | aside manager _ => exact .refl manager
  | load ends => exact (rereads_of_ends_loadBoth ends).sameOrder
  | cycle _ ends =>
      rcases ends_appendNext ends with rfl | rfl
      · exact .refl _
      · exact (SameOrder.refl manager).advanced
  | close _ => exact ⟨rfl, rfl, rfl, rfl⟩

theorem Course.sameOrder {begins : Manager → Prop}
    (course : Course setup begins manager exchanges after) : SameOrder manager after := by
  induction course with
  | nil manager => exact .refl manager
  | cons part _ ih => exact part.sameOrder.trans ih

/-- One step of rounds leaves its manager with the same project, outside of the lock. -/
theorem alternates_of_ends_step {outcome : Except Failure Outcome}
    (ends : Ends ((step setup feed).starting manager) exchanges (outcome, after)) :
    Alternates manager.progress.project false exchanges false ∧
      after.progress.project = manager.progress.project :=
  ⟨((ends_locked_iff asksSparing_stepOnce).mp ends).alternates,
    (course_of_ends_step ends).sameOrder.project⟩

theorem alternates_of_rounded {horizon : Nat} {reached : Rounds}
    (rounded : Rounded setup feed horizon manager exchanges reached after) :
    Alternates manager.progress.project false exchanges false := by
  induction rounded with
  | cutOff manager => exact .nil false
  | cancelled horizon manager => exact .idle .cancelled (.nil false)
  | limited horizon limited => exact .idle .cancelled (alternates_of_ends_step limited).1
  | appended appended _ ih =>
      obtain ⟨stepped, same⟩ := alternates_of_ends_step appended
      rw [same] at ih
      exact .idle .cancelled (stepped.append ih)
  | paused stepped _ _ ih =>
      obtain ⟨stepped, same⟩ := alternates_of_ends_step stepped
      rw [same] at ih
      exact .idle .cancelled (stepped.append (.idle .wait ih))

theorem alternates_of_ends_forever {horizon : Nat} {result : Except Failure Rounds × Manager}
    (ends : Ends ((forever setup feed horizon).starting manager) exchanges result) :
    Alternates manager.progress.project false exchanges false := by
  obtain ⟨outcome, after⟩ := result
  rcases rounded_of_ends_forever ends with
    ⟨-, rounded⟩ | ⟨said, closed, last, -, rfl, -, rounded, closes⟩
  · exact alternates_of_rounded rounded
  · exact (alternates_of_rounded rounded).append (.of_idle (idle_of_closed closes))

/-- At every moment of continuous work; the lock was given back if the work is over. -/
theorem alternates_of_leads_forever {horizon : Nat}
    {rest : Dialogue collaborators (Except Failure Rounds × Manager)}
    {past : List (Exchange collaborators)}
    (run : Leads recorded ((forever setup feed horizon).starting manager) [] rest past) :
    ∃ held, Alternates manager.progress.project false past held ∧
      ∀ result, rest = .done result → held = false := by
  cases rest with
  | done result =>
      obtain ⟨exchanges, rfl, ends⟩ := ends_of_leads run rfl
      exact ⟨false, alternates_of_ends_forever ends, fun _ _ => rfl⟩
  | ask question next =>
      obtain ⟨later, result, further⟩ := run.exists_end (obliging [])
      obtain ⟨exchanges, whole, ends⟩ := ends_of_leads further rfl
      rw [List.nil_append] at whole
      subst whole
      obtain ⟨held, alternates⟩ := (alternates_of_ends_forever ends).beginning
      refine ⟨held, alternates, fun result ended => ?_⟩
      cases ended

/-! ### The turns of the lock -/

/-- What becomes of the lock of a project. -/
inductive Mark where
  | taken (project : String)
  | given (project : String)
  deriving DecidableEq, Repr

/-- What an exchange makes of the lock: it is taken only if it is granted. -/
def mark? : Exchange collaborators → Option Mark
  | ⟨.reserve project, (reserved : Except Failure Unit)⟩ =>
      if reserved.toBool then some (.taken project) else none
  | ⟨.release project, _⟩ => some (.given project)
  | _ => none

/-- The lock is taken and given back in turns; it may be held at last. -/
def turns (project : String) (count : Nat) (last : Bool) : List Mark :=
  (List.replicate count [Mark.taken project, Mark.given project]).flatten ++
    if last then [.taken project] else []

theorem mark?_of_spares {exchange : Exchange collaborators}
    (spares : exchange.question.SparesLock) : mark? exchange = none := by
  obtain ⟨question, answer⟩ := exchange
  cases question with
  | reserve project => exact spares.elim
  | release project => exact spares.elim
  | _ => rfl

theorem Idle.sparesLock {inquiry : Inquiry} (idle : Idle inquiry) : inquiry.SparesLock := by
  cases idle <;> trivial

/-- A lock that is held to begin with was taken before. -/
theorem Alternates.exists_turns (alternates : Alternates project held exchanges last) :
    ∃ count, (if held then [Mark.taken project] else []) ++ exchanges.filterMap mark? =
      turns project count last := by
  induction alternates with
  | nil held => exact ⟨0, by simp [turns]⟩
  | taken _ ih => exact ih
  | refused failure _ ih => exact ih
  | given released _ ih =>
      obtain ⟨count, marks⟩ := ih
      refine ⟨count + 1, ?_⟩
      rw [turns, List.replicate_succ, List.flatten_cons, List.append_assoc, ← turns, ← marks]
      rfl
  | within spares _ ih =>
      rw [List.filterMap_cons_none (mark?_of_spares spares)]
      exact ih
  | idle idle _ ih =>
      rw [List.filterMap_cons_none (mark?_of_spares idle.sparesLock)]
      exact ih

/--
A batch and a step are bracketed by the lock of their project in every complete run. So at
every moment of continuous work the lock was taken and given back in turns, all else that
was done of steps was done within it, and it is given back when the work is over.
-/
theorem lock_brackets_work :
    (∀ exchanges result, Ends ((append setup feed).starting manager) exchanges result ↔
      Bracketed (appendAll setup feed) manager exchanges result) ∧
    (∀ exchanges result, Ends ((step setup feed).starting manager) exchanges result ↔
      Bracketed (stepOnce setup feed) manager exchanges result) ∧
    ∀ horizon rest past,
      Leads recorded ((forever setup feed horizon).starting manager) [] rest past →
        ∃ count held, Alternates manager.progress.project false past held ∧
          past.filterMap mark? = turns manager.progress.project count held ∧
          ∀ result, rest = .done result → held = false := by
  refine ⟨fun _ _ => ends_locked_iff asksSparing_appendAll,
    fun _ _ => ends_locked_iff asksSparing_stepOnce, fun horizon rest past run => ?_⟩
  obtain ⟨held, alternates, ended⟩ := alternates_of_leads_forever run
  obtain ⟨count, marks⟩ := alternates.exists_turns
  exact ⟨count, held, alternates, marks, ended⟩

/-! ## A lock that cannot be given back -/

/-- Obliging collaborators, but the lock is not given back; with a record. -/
def withholding (question : Inquiry) (past : List (Exchange collaborators)) :
    question.Answer × List (Exchange collaborators) :=
  let answer : question.Answer :=
    match question with
    | .release _ => (.error (.lock "connection lost") : Except Failure Unit)
    | question => obliging [firstText] question
  (answer, past ++ [Inquiry.answered question answer])

theorem leads_withholding (count : Nat) (dialogue : Dialogue collaborators α)
    (past : List (Exchange collaborators)) :
    Leads recorded dialogue past (dialogue.advance withholding count past).1
      (dialogue.advance withholding count past).2 :=
  leads_advance (fun _ _ => rfl) count dialogue past

/-- A step that does all of its work. -/
def withheldStep : Dialogue collaborators (Except Failure Outcome × Manager) ×
    List (Exchange collaborators) :=
  ((step townSetup "feed").starting townManager).advance (P := collaborators) withholding 20 []

/-- Continuous work that is in the middle of its second step. -/
def withheldWork : Dialogue collaborators (Except Failure Rounds × Manager) ×
    List (Exchange collaborators) :=
  ((forever townSetup "feed" 2).starting townManager).advance (P := collaborators) withholding 20 []

theorem withheldStep_failed :
    withheldStep.1.value?.map Prod.fst = some (.error (.lock "connection lost")) := by
  decide +kernel

/--
The work of the step is done, but the failure of the lock is what it comes to. The next step
takes the lock again all the same.
-/
theorem withheldStep_bracketed :
    (∃ after, Bracketed (stepOnce townSetup "feed") townManager withheldStep.2
      (.error (.lock "connection lost"), after)) ∧
    ∃ count held, Alternates "town" false withheldWork.2 held ∧
      withheldWork.2.filterMap mark? = turns "town" count held ∧ turns "town" count held =
        [.taken "town", .given "town", .taken "town"] := by
  obtain ⟨-, steps, works⟩ := @lock_brackets_work townSetup townManager "feed"
  refine ⟨?_, ?_⟩
  · obtain ⟨⟨_, after⟩, ended, rfl⟩ := Option.map_eq_some_iff.mp withheldStep_failed
    obtain ⟨exchanges, said, ends⟩ := ends_of_leads (leads_withholding 20
      ((step townSetup "feed").starting townManager) []) (eq_done_of_value? ended)
    refine ⟨after, (steps _ _).mp ?_⟩
    rw [withheldStep, said]
    exact ends
  · obtain ⟨count, held, alternates, marks, -⟩ := works 2 _ _ (leads_withholding 20 _ [])
    refine ⟨count, held, alternates, marks, marks.symm.trans ?_⟩
    decide +kernel

end MapReplica.Update
