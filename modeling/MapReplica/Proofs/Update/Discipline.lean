import Mathlib.Data.Set.Defs
import MapReplica.Proofs.Text.Utf8
import MapReplica.Proofs.Update.Attempt
import MapReplica.Proofs.Update.Drives

/-!
# The discipline of a manager

What a manager may rely on about the progress text of its project follows from what it
said before: nothing outside of the lock, and within it the text that it read or wrote
last. Whatever the collaborators answer, a prepared manager asks for the lock only
outside of it, reads the text only within it, and writes it only after an attempt at
the number after the one that it knows.
-/

namespace MapReplica

open Dialogue

namespace Progress

/-- The number of a progress text, as it lies in the object store. -/
def numberOf? (body : Bytes) : Option Nat :=
  (Utf8.decode? body).bind fun text => Marker.read? text.toList

/-- Counting down changes nothing but the commits that are left. -/
theorem countDown_eq (progress : Progress) :
    ∃ remaining, progress.countDown = { progress with remaining } := by
  unfold countDown
  split
  · exact ⟨_, rfl⟩
  · exact ⟨progress.remaining, rfl⟩

end Progress

namespace Update

theorem SameOrder.countDown {order manager : Manager} (same : SameOrder order manager) :
    SameOrder order { manager with progress := manager.progress.countDown } := by
  obtain ⟨remaining, counted⟩ := Progress.countDown_eq manager.progress
  rw [counted]
  exact same.onProgress rfl

/-- What a manager may rely on about the progress text of its project. -/
inductive Phase where
  | outside
  | inside
  | knows (body : Bytes)
  deriving DecidableEq, Repr

/-- The phase after an exchange, for a project. -/
def Phase.after (project : String) (phase : Phase) (exchange : Exchange collaborators) : Phase :=
  match exchange with
  | ⟨.reserve _, (answer : Except Failure Unit)⟩ => if answer.toBool then .inside else .outside
  | ⟨.release _, _⟩ => .outside
  | ⟨.getObject key, (answer : Except Failure Bytes)⟩ =>
      match answer with
      | .ok body => if key = Progress.keyOf project then .knows body else phase
      | .error _ => phase
  | ⟨.putObject key body, (answer : Except Failure Unit)⟩ =>
      if key = Progress.keyOf project then
        if answer.toBool then .knows body else .inside
      else phase
  | _ => phase

/-- The phase after all exchanges so far. -/
def phaseOf (project : String) (past : List (Exchange collaborators)) : Phase :=
  past.foldl (Phase.after project) .outside

variable {project : String} {past : List (Exchange collaborators)}

@[simp]
theorem phaseOf_append_singleton (exchange : Exchange collaborators) :
    phaseOf project (past ++ [exchange]) = (phaseOf project past).after project exchange := by
  simp [phaseOf]

theorem Phase.after_of_spares {phase : Phase} {exchange : Exchange collaborators}
    (spares : Inquiry.SparesProgress exchange.question) : phase.after project exchange = phase := by
  obtain ⟨question, answer⟩ := exchange
  cases question with
  | reserve _ => exact spares.elim
  | release _ => exact spares.elim
  | getObject _ => exact spares.elim
  | putObject key body => exact if_neg (spares project)
  | _ => rfl

/-- Exchanges that spare the progress text leave the phase as it is. -/
theorem phaseOf_append_of_spares {exchanges : List (Exchange collaborators)}
    (spare : ∀ exchange ∈ exchanges, Inquiry.SparesProgress exchange.question) :
    phaseOf project (past ++ exchanges) = phaseOf project past := by
  induction exchanges generalizing past with
  | nil => rw [List.append_nil]
  | cons exchange rest ih =>
      rw [← List.singleton_append, ← List.append_assoc,
        ih fun later h => spare later (List.mem_cons_of_mem _ h), phaseOf_append_singleton,
        Phase.after_of_spares (spare exchange (List.mem_cons_self ..))]

variable (setup : Setup) (order : Manager) (feeds : Set String)

/--
What a manager that was prepared as `order` may ask after what was said before. The
progress text is written only as the one that is known, with the next number, and right
after an attempt at that number with one of the feeds.
-/
def Orderly (past : List (Exchange collaborators)) : Inquiry → Prop
  | .reserve project => project = order.progress.project ∧ phaseOf project past = .outside
  | .release project => project = order.progress.project ∧ phaseOf project past ≠ .outside
  | .getObject key =>
      key = order.progress.key ∧ phaseOf order.progress.project past ≠ .outside
  | .putObject key body =>
      (∃ old sequence feed earlier attempt, key = order.progress.key ∧ feed ∈ feeds ∧
        phaseOf order.progress.project past = .knows old ∧
        Progress.numberOf? old = some sequence ∧ Progress.numberOf? body = some (sequence + 1) ∧
        past = earlier ++ attempt ∧ Attempt setup order (sequence + 1) feed attempt) ∨
      ∀ project, key ≠ Progress.keyOf project
  | _ => True

variable {setup order feeds}

/-- What an attempt is depends on the order only. -/
theorem SameOrder.attempt {manager : Manager} (same : SameOrder order manager) {sequence : Nat}
    {feed : String} {exchanges : List (Exchange collaborators)}
    (attempt : Attempt setup manager sequence feed exchanges) :
    Attempt setup order sequence feed exchanges := by
  have arguments : argumentsFor setup manager = argumentsFor setup order := by
    funext sequence diff entity style
    simp only [argumentsFor, same.project]
  have applied : Applied setup manager = Applied setup order := by
    funext sequence entity exchange
    unfold Applied
    rw [arguments, same.project, same.resources]
  simpa only [Attempt, Performed, applied, Shipped, Cleared, listingOf, same.project,
    same.resources,
    same.entities, same.dispatcher] using attempt

/-- A manager within the lock knows the progress text, and its number. -/
structure Knows (manager : Manager) (past : List (Exchange collaborators)) (sequence : Nat) :
    Prop where
  text : ∃ body, phaseOf manager.progress.project past = .knows body ∧
    Utf8.decode? body = some (String.ofList manager.progress.content)
  number : Marker.read? manager.progress.content = some sequence
  current : manager.progress.current = sequence

theorem Knows.numberOf? {manager : Manager} {sequence : Nat} (knows : Knows manager past sequence) :
    ∃ body, phaseOf manager.progress.project past = .knows body ∧
      Progress.numberOf? body = some sequence := by
  obtain ⟨body, phase, decoded⟩ := knows.text
  exact ⟨body, phase, by simp [Progress.numberOf?, decoded, knows.number]⟩

theorem Knows.within {manager : Manager} {sequence : Nat} (knows : Knows manager past sequence) :
    phaseOf manager.progress.project past ≠ .outside := by
  obtain ⟨body, phase, _⟩ := knows.text
  rw [phase]
  exact Phase.noConfusion

theorem Knows.next {manager : Manager} {sequence : Nat} (knows : Knows manager past sequence) :
    manager.progress.next = sequence + 1 := by
  rw [Progress.next, knows.current]
  exact Int.toNat_natCast (sequence + 1)

/-- The text with the next number, in the object store, has the next number. -/
theorem Knows.numberOf?_nextContent {manager : Manager} {sequence : Nat}
    (knows : Knows manager past sequence) (fits : sequence + 1 ≤ Number.maxSigned64) :
    Progress.numberOf? (Utf8.encodeChars manager.progress.nextContent) = some (sequence + 1) := by
  rw [Progress.numberOf?, Utf8.decode?_encodeChars, Option.bind_some, String.toList_ofList,
    Progress.nextContent, knows.next]
  exact Marker.read?_withNumber knows.number fits

/-- What was said took the lock and did not give it back. -/
def Held (order : Manager) (past : List (Exchange collaborators)) : Prop :=
  phaseOf order.progress.project past ≠ .outside

/-! ## Steps -/

theorem keeps_ask_recorded {α : Type} {allows : List (Exchange collaborators) → Inquiry → Prop}
    {inquiry : Inquiry} {next : inquiry.Answer → Dialogue collaborators α}
    {wanted : α → List (Exchange collaborators) → Prop} (allowed : allows past inquiry)
    (rest : ∀ answer, (next answer).Keeps recorded allows wanted
      (past ++ [Inquiry.answered inquiry answer])) :
    Dialogue.Keeps recorded allows (.ask (P := collaborators) inquiry next) wanted past := by
  refine ⟨allowed, fun answer after heq => ?_⟩
  subst heq
  exact rest answer

theorem phaseOf_commit {manager : Manager} (same : SameOrder order manager) {body : Bytes}
    {answer : Except Failure Unit} :
    phaseOf order.progress.project
        (past ++ [Inquiry.answered (.putObject manager.progress.key body) answer]) =
      if answer.toBool then .knows body else .inside := by
  rw [phaseOf_append_singleton]
  exact if_pos (congrArg Progress.keyOf same.project)

/--
A commit after an attempt at the next number: if it succeeds, the manager knows the next
number.
-/
theorem keeps_commit {manager : Manager} {sequence : Nat} {feed : String}
    {earlier attempt : List (Exchange collaborators)} (served : feed ∈ feeds)
    (same : SameOrder order manager) (knows : Knows manager past sequence)
    (fits : sequence + 1 ≤ Number.maxSigned64)
    (split : past = earlier ++ attempt)
    (attempted : Attempt setup order (sequence + 1) feed attempt) :
    ((onProgress Progress.commit).starting manager).Keeps recorded (Orderly setup order feeds)
      (Within order (Held order) fun after now => Knows after now (sequence + 1) ∧
        after.progress.remote = manager.progress.remote) past := by
  obtain ⟨body, phase, number⟩ := knows.numberOf?
  rw [same.project] at phase
  have written := knows.numberOf?_nextContent fits
  refine keeps_ask_recorded (.inl ⟨body, sequence, feed, earlier, attempt,
    congrArg Progress.keyOf same.project, served, phase, number, written, split, attempted⟩) ?_
  rintro (failure | ⟨⟩)
  · refine ⟨same.onProgress rfl, ?_, nofun⟩
    unfold Held
    rw [phaseOf_commit same]
    exact Phase.noConfusion
  · refine ⟨same.onProgress rfl, ?_, fun _ _ => ⟨⟨?_, ?_, ?_⟩, rfl⟩⟩
    · unfold Held
      rw [phaseOf_commit same]
      exact Phase.noConfusion
    · exact ⟨_, phaseOf_commit (.refl manager), Utf8.decode?_encodeChars _⟩
    · show Marker.read? (Marker.withNumber manager.progress.content manager.progress.next) = _
      rw [knows.next]
      exact Marker.read?_withNumber knows.number fits
    · show manager.progress.current + 1 = _
      rw [knows.current]
      rfl

theorem orderly_of_spares {inquiry : Inquiry} (spares : inquiry.SparesProgress) :
    Orderly setup order feeds past inquiry := by
  cases inquiry with
  | reserve _ => exact spares.elim
  | release _ => exact spares.elim
  | getObject _ => exact spares.elim
  | putObject key body => exact .inr spares
  | _ => trivial

/-- Work that spares the progress text may be done at any moment. -/
theorem keeps_spared {α : Type} {work : Dialogue collaborators α}
    (asks : work.Asks Inquiry.SparesProgress) :
    work.Keeps recorded (Orderly setup order feeds)
      (fun value after => ∃ exchanges, after = past ++ exchanges ∧ Ends work exchanges value ∧
        ∀ exchange ∈ exchanges, Inquiry.SparesProgress exchange.question) past :=
  asks.keeps (fun _ _ spares _ => orderly_of_spares spares)
    (fun exchanges _ ends all => ⟨exchanges, rfl, ends, all⟩)

theorem Knows.append {manager : Manager} {sequence : Nat}
    {exchanges : List (Exchange collaborators)} (knows : Knows manager past sequence)
    (spare : ∀ exchange ∈ exchanges, Inquiry.SparesProgress exchange.question) :
    Knows manager (past ++ exchanges) sequence := by
  refine ⟨?_, knows.number, knows.current⟩
  rw [phaseOf_append_of_spares spare]
  exact knows.text

/-- A cycle commits its number only after an attempt at it. -/
theorem keeps_appendNext {manager : Manager} {sequence : Nat} {feed : String}
    (served : feed ∈ feeds)
    (same : SameOrder order manager) (knows : Knows manager past sequence)
    (fits : sequence + 1 ≤ Number.maxSigned64) :
    ((appendNext setup feed).starting manager).Keeps recorded (Orderly setup order feeds)
      (Within order (Held order) fun after now => Knows after now (sequence + 1) ∧
        after.progress.remote = manager.progress.remote) past := by
  have spareAfter : ∀ exchanges : List (Exchange collaborators),
      (∀ exchange ∈ exchanges, Inquiry.SparesProgress exchange.question) →
        Held order (past ++ exchanges) := by
    intro exchanges spare
    rw [Held, phaseOf_append_of_spares spare, ← same.project]
    exact knows.within
  -- Once the files are removed, what was said is the work of the cycle and the removals.
  apply keeps_appendNext_of (fun outcome now =>
    ∃ worked cleared, now = past ++ (worked ++ cleared) ∧
      Ends (cycle setup manager feed manager.progress.next).run worked outcome ∧
      Ends (cleanUp setup manager outcome).run cleared (.ok ()) ∧
      ∀ exchange ∈ worked ++ cleared, Inquiry.SparesProgress exchange.question)
    (keeps_spared (asks_cycle.mono fun _ => OfCycle.spares))
  · rintro outcome _ ⟨worked, rfl, hcycle, spareWork⟩
    apply (keeps_spared (asks_cleanUp trivial fun _ _ => trivial)).mono
    rintro cleaned _ ⟨cleared, rfl, hclean, spareCleared⟩
    obtain rfl := ok_of_ends_cleanUp hclean
    refine ⟨worked, cleared, List.append_assoc .., hcycle, hclean, fun exchange member => ?_⟩
    rcases List.mem_append.mp member with early | late
    · exact spareWork exchange early
    · exact spareCleared exchange late
  · -- Nothing is committed.
    rintro failure _ ⟨worked, cleared, rfl, -, -, spare⟩
    exact ⟨same, spareAfter _ spare, nofun⟩
  · rintro _ ⟨worked, cleared, rfl, hcycle, hclean, spare⟩
    have attempted : Attempt setup order (sequence + 1) feed (worked ++ cleared) := by
      have hcleared := (cleared_of_ends hclean).2
      rw [knows.next] at hcycle hcleared
      exact same.attempt ⟨worked, cleared, rfl, performed_of_ends hcycle, hcleared⟩
    obtain ⟨allowed, commits⟩ := keeps_commit served same (knows.append spare) fits rfl attempted
    refine ⟨allowed, fun answer now step => ?_⟩
    have committing := commits answer now step
    cases answer with
    | error failure => exact committing
    | ok _ =>
        obtain ⟨remaining, counted⟩ := Progress.countDown_eq manager.progress.advanced
        obtain ⟨knowsNext, remote⟩ := committing.known () rfl
        rw [committed, counted]
        exact ⟨committing.same.onProgress rfl, committing.held, fun _ _ =>
          ⟨⟨knowsNext.text, knowsNext.number, knowsNext.current⟩, remote⟩⟩

end Update

end MapReplica
