import MapReplica.Proofs.Update.CommitSafety
import MapReplica.Proofs.Update.Queueing

/-!
# Continuous work

Continuous work goes on until it was asked to end or the limit is reached; no failure
ends it. A wish to end the work, once there, stays, wherever it comes up: then the step
that is under way is carried through, and after it nothing is asked but whether to end,
until the tools are ended and the queue, if it runs, is stopped. Every attempt is one at
the number after that of the text that lies in the object store.
-/

namespace MapReplica.Update

open Dialogue

variable {setup : Setup} {manager after : Manager} {feed : String} {horizon : Nat}
variable {reached : Rounds} {exchanges front back : List (Exchange collaborators)}

/-! ## A wish to end the work -/

/-- What was said so far, and whether the work was asked to end. -/
structure Watch where
  past : List (Exchange collaborators)
  cancelled : Bool

/-- The question whether the work is to end is answered truly; the others are answered somehow. -/
def Truthful (cancelled : Bool) : (inquiry : Inquiry) → inquiry.Answer → Prop
  | .isCancelled, (answer : Bool) => answer = cancelled
  | _, _ => True

/-- Collaborators that answer anything, but do not take back the wish to end the work. -/
def watched : Surroundings collaborators Watch :=
  fun watch question answer after =>
    after.past = watch.past ++ [⟨question, answer⟩] ∧ Truthful watch.cancelled question answer ∧
      (watch.cancelled = true → after.cancelled = true)

/-- An exchange after which the work is to end, if it asked for that. -/
def Heeds (exchange : Exchange collaborators) : Prop :=
  Truthful true exchange.question exchange.answer

/-- What is said once the work was asked to end heeds the wish. -/
theorem said_of_watched {α : Type} {dialogue rest : Dialogue collaborators α} {start last : Watch}
    (run : Leads watched dialogue start rest last) :
    ∃ said, last.past = start.past ++ said ∧ Leads recorded dialogue start.past rest last.past ∧
      (start.cancelled = true → ∀ exchange ∈ said, Heeds exchange) := by
  have record : Leads recorded dialogue start.past rest last.past :=
    run.map Watch.past fun _ _ _ _ step => step.1
  suffices heeds : ∃ said, last.past = start.past ++ said ∧
      (start.cancelled = true → ∀ exchange ∈ said, Heeds exchange) by
    obtain ⟨said, split, heeded⟩ := heeds
    exact ⟨said, split, record, heeded⟩
  clear record
  induction run with
  | start dialogue start =>
      exact ⟨[], (List.append_nil _).symm, fun _ exchange none => by cases none⟩
  | @step question next answer rest state after last step _ ih =>
      obtain ⟨past, truthful, stays⟩ := step
      obtain ⟨later, split, heeded⟩ := ih
      refine ⟨⟨question, answer⟩ :: later, ?_, fun cancelled exchange member => ?_⟩
      · rw [split, past, List.append_assoc, List.singleton_append]
      · rcases List.mem_cons.mp member with rfl | further
        · rw [cancelled] at truthful
          exact truthful
        · exact heeded (stays cancelled) exchange further

/--
What was said up to a moment and what is said later, if the work is to end then. Either
nothing but idle questions is asked at all, or the last step began before that moment, is
carried through to its end, and is followed by idle questions.
-/
def Winds (setup : Setup) (feed : String) (front back : List (Exchange collaborators)) : Prop :=
  (∀ exchange ∈ front ++ back, Idle exchange.question) ∨
    ∃ earlier stepped idle manager result,
      front ++ back = earlier ++ [Inquiry.answered .isCancelled false] ++ (stepped ++ idle) ∧
        earlier ++ [Inquiry.answered .isCancelled false] <+: front ∧
        Ends ((step setup feed).starting manager) stepped result ∧
        ∀ exchange ∈ idle, Idle exchange.question

/-- A complete step before that is the last one if only idle questions are asked otherwise. -/
theorem Winds.step {said : List (Exchange collaborators)}
    {result : Except Failure Outcome × Manager}
    (ends : Ends ((Update.step setup feed).starting manager) said result)
    (winds : Winds setup feed front back) :
    Winds setup feed ([Inquiry.answered .isCancelled false] ++ (said ++ front)) back := by
  rcases winds with idle | ⟨earlier, stepped, idle, last, final, split, ⟨rest, rfl⟩, carried, all⟩
  · refine .inr ⟨[], said, front ++ back, manager, result, ?_, List.prefix_append _ _, ends, idle⟩
    simp only [List.nil_append, List.append_assoc]
  · refine .inr ⟨[Inquiry.answered .isCancelled false] ++ said ++ earlier, stepped, idle, last,
      final, ?_, ⟨rest, ?_⟩, carried, all⟩
    · simp only [List.append_assoc] at split ⊢
      rw [split]
    · simp only [List.append_assoc]

theorem Winds.cons {exchange : Exchange collaborators} (own : Idle exchange.question)
    (winds : Winds setup feed front back) : Winds setup feed (exchange :: front) back := by
  rcases winds with all | ⟨earlier, stepped, idle, last, final, split, ⟨rest, rfl⟩, carried, all⟩
  · refine .inl fun other member => ?_
    rcases List.mem_cons.mp member with rfl | further
    · exact own
    · exact all other further
  · refine .inr ⟨exchange :: earlier, stepped, idle, last, final, ?_, ⟨rest, rfl⟩, carried, all⟩
    rw [List.cons_append, List.cons_append, List.cons_append, split]

theorem Winds.followed {later : List (Exchange collaborators)} (winds : Winds setup feed front back)
    (more : ∀ exchange ∈ later, Idle exchange.question) :
    Winds setup feed front (back ++ later) := by
  have joined : ∀ {first : List (Exchange collaborators)},
      (∀ exchange ∈ first, Idle exchange.question) →
        ∀ exchange ∈ first ++ later, Idle exchange.question := by
    intro first all exchange member
    rcases List.mem_append.mp member with early | late
    · exact all exchange early
    · exact more exchange late
  rcases winds with all | ⟨earlier, stepped, idle, last, final, split, began, carried, all⟩
  · rw [Winds, ← List.append_assoc]
    exact .inl (joined all)
  · refine .inr ⟨earlier, stepped, idle ++ later, last, final, ?_, began, carried, joined all⟩
    rw [← List.append_assoc, split]
    simp only [List.append_assoc]

/-- What holds for a moment holds for every later one. -/
theorem Winds.later {said : List (Exchange collaborators)}
    (winds : Winds setup feed front (said ++ back)) : Winds setup feed (front ++ said) back := by
  rw [Winds, ← List.append_assoc] at winds
  rcases winds with all | ⟨earlier, stepped, idle, last, final, split, began, carried, all⟩
  · exact .inl all
  · exact .inr ⟨earlier, stepped, idle, last, final, split,
      began.trans (List.prefix_append front said), carried, all⟩

/-- Rounds that begin once the work was asked to end ask nothing else. -/
theorem Rounded.idle (rounded : Rounded setup feed horizon manager exchanges reached after)
    (heeded : ∀ exchange ∈ exchanges, Heeds exchange) :
    ∀ exchange ∈ exchanges, Idle exchange.question := by
  cases rounded with
  | cutOff => exact List.forall_mem_nil _
  | cancelled => exact List.forall_mem_singleton.mpr .cancelled
  | limited => cases heeded _ List.mem_cons_self
  | appended => cases heeded _ List.mem_cons_self
  | paused => cases heeded _ List.mem_cons_self

theorem winds_of_idle (idle : ∀ exchange ∈ exchanges, Idle exchange.question)
    (split : exchanges = front ++ back) : Winds setup feed front back :=
  .inl (split ▸ idle)

/-- A step that was begun because the work goes on, and what was said after it, cut at a moment. -/
theorem winds_of_step {said later : List (Exchange collaborators)}
    {result : Except Failure Outcome × Manager}
    (ends : Ends ((step setup feed).starting manager) said result)
    (split : Inquiry.answered .isCancelled false :: (said ++ later) = front ++ back)
    (heeded : ∀ exchange ∈ back, Heeds exchange)
    (idle : (∀ exchange ∈ later, Heeds exchange) → ∀ exchange ∈ later, Idle exchange.question)
    (further : ∀ rest, later = rest ++ back → Winds setup feed rest back) :
    Winds setup feed front back := by
  cases front with
  | nil =>
      -- Once the work is to end, no question whether it is to end is denied.
      cases split
      cases heeded _ List.mem_cons_self
  | cons first begun =>
      obtain ⟨rfl, tail⟩ := List.cons_eq_cons.mp split
      rcases List.append_eq_append_iff.mp tail with ⟨rest, rfl, rfl⟩ | ⟨ended, rfl, rfl⟩
      · exact (further rest rfl).step ends
      · -- The moment lies within the step, so nothing but idle questions follows it.
        have all := idle fun exchange member => heeded exchange (List.mem_append_right _ member)
        exact .inr ⟨[], begun ++ ended, later, manager, result, by simp, ⟨begun, rfl⟩, ends, all⟩

/-- A pause and what was said after it, cut at a moment. -/
theorem winds_of_pause {later : List (Exchange collaborators)}
    (split : Inquiry.answered .wait () :: later = front ++ back)
    (idle : front = [] → ∀ exchange ∈ later, Idle exchange.question)
    (further : ∀ rest, later = rest ++ back → Winds setup feed rest back) :
    Winds setup feed front back := by
  cases front with
  | nil => exact winds_of_idle (List.forall_mem_cons.mpr ⟨.wait, idle rfl⟩) split
  | cons wait between =>
      obtain ⟨rfl, rest⟩ := List.cons_eq_cons.mp split
      exact (further between rest).cons .wait

/-- Once the work was asked to end, rounds carry the step through that is under way. -/
theorem Rounded.winds (rounded : Rounded setup feed horizon manager exchanges reached after)
    (split : exchanges = front ++ back) (heeded : ∀ exchange ∈ back, Heeds exchange) :
    Winds setup feed front back := by
  induction rounded generalizing front with
  | cutOff manager => exact winds_of_idle (List.forall_mem_nil _) split
  | cancelled horizon manager =>
      exact winds_of_idle (List.forall_mem_singleton.mpr .cancelled) split
  | @limited _ _ _ said ends =>
      rw [← List.append_nil said] at split
      exact winds_of_step ends split heeded (fun _ => List.forall_mem_nil _) fun rest none =>
        winds_of_idle (List.forall_mem_nil _) none
  | appended appended rest ih =>
      exact winds_of_step appended split heeded rest.idle fun _ later => ih later
  | paused stepped _ rest ih =>
      refine winds_of_step stepped split heeded (fun heeded => ?_) fun between waited => ?_
      · exact List.forall_mem_cons.mpr ⟨.wait, rest.idle (List.forall_mem_cons.mp heeded).2⟩
      · refine winds_of_pause waited ?_ fun _ later => ih later
        rintro rfl
        rw [List.nil_append] at waited
        rw [← waited] at heeded
        exact rest.idle (List.forall_mem_cons.mp heeded).2

/-! ## How rounds end -/

/--
How rounds came to their end: it was found that the work is to end, or a step reported
that the limit is reached.
-/
def EndedBy (setup : Setup) (feed : String) (said : List (Exchange collaborators))
    (last : Manager) : Prop :=
  (∃ earlier, said = earlier ++ [Inquiry.answered .isCancelled true]) ∨
    ∃ earlier stepped manager, said = earlier ++ Inquiry.answered .isCancelled false :: stepped ∧
      Ends ((step setup feed).starting manager) stepped (.ok .limitReached, last)

theorem EndedBy.preceded {said : List (Exchange collaborators)}
    (ended : EndedBy setup feed said after) (earlier : List (Exchange collaborators)) :
    EndedBy setup feed (earlier ++ said) after := by
  rcases ended with ⟨before, rfl⟩ | ⟨before, stepped, manager, rfl, ends⟩
  · exact .inl ⟨earlier ++ before, (List.append_assoc ..).symm⟩
  · exact .inr ⟨earlier ++ before, stepped, manager, (List.append_assoc ..).symm, ends⟩

theorem Rounded.endedBy (rounded : Rounded setup feed horizon manager exchanges .ended after) :
    EndedBy setup feed exchanges after := by
  generalize reached : Rounds.ended = outcome at rounded
  induction rounded with
  | cutOff => cases reached
  | cancelled => exact .inl ⟨[], rfl⟩
  | limited horizon limited => exact .inr ⟨[], _, _, rfl, limited⟩
  | @appended _ _ _ _ _ said _ _ _ ih =>
      exact (ih reached).preceded (Inquiry.answered .isCancelled false :: said)
  | @paused _ _ _ _ _ said later _ _ _ _ ih =>
      have further := (ih reached).preceded
        (Inquiry.answered .isCancelled false :: (said ++ [Inquiry.answered .wait ()]))
      rwa [List.cons_append, List.append_assoc, List.singleton_append] at further

theorem idle_of_closed (closed : Closed setup manager exchanges) :
    ∀ exchange ∈ exchanges, Idle exchange.question := by
  unfold Closed at closed
  split at closed
  case isTrue =>
    obtain ⟨answer, rfl⟩ := closed
    exact List.forall_mem_cons.mpr ⟨.terminate, List.forall_mem_singleton.mpr .stopQueue⟩
  case isFalse =>
    rw [closed]
    exact List.forall_mem_singleton.mpr .terminate

/-- Once it was asked to end, continuous work carries the step through that is under way. -/
theorem winds_of_ends_forever {outcome : Except Failure Rounds}
    (ends : Ends ((forever setup feed horizon).starting manager) (front ++ back) (outcome, after))
    (heeded : ∀ exchange ∈ back, Heeds exchange) : Winds setup feed front back := by
  rcases rounded_of_ends_forever ends with
    ⟨-, rounded⟩ | ⟨said, closed, last, -, split, -, rounded, closes⟩
  · exact rounded.winds rfl heeded
  have idle := idle_of_closed closes
  rcases List.append_eq_append_iff.mp split with ⟨rest, rfl, rfl⟩ | ⟨begun, rfl, rfl⟩
  · have further := fun exchange member => heeded exchange (List.mem_append_left closed member)
    exact (rounded.winds rfl further).followed idle
  · have whole : Winds setup feed said [] :=
      rounded.winds (List.append_nil said).symm fun _ none => by cases none
    have followed := whole.followed idle
    rw [List.nil_append] at followed
    exact followed.later

/-! ## The number that is attempted -/

/--
Fetches are only of the text of the feed, and of the diff with the number after that of
the progress text that was read or written last.
-/
def Seeks (order : Manager) (feed : String) (past : List (Exchange collaborators)) : Inquiry → Prop
  | .fetch url _ =>
      url = Diff.joinUrl feed Feed.stateFile ∨
        ∃ body sequence, phaseOf order.progress.project past = .knows body ∧
          Progress.numberOf? body = some sequence ∧
          url = Diff.joinUrl feed (Diff.path (sequence + 1))
  | _ => True

variable {order : Manager} {past : List (Exchange collaborators)}

/-- What is no fetch may be asked at any moment. -/
theorem keeps_seeking {α : Type} {dialogue : Dialogue collaborators α}
    {permitted : Inquiry → Prop} (asks : dialogue.Asks permitted)
    (seeks : ∀ front inquiry, permitted inquiry →
      (∀ exchange ∈ front, permitted exchange.question) →
        Seeks order feed (past ++ front) inquiry) :
    dialogue.Keeps recorded (Seeks order feed) (fun _ _ => True) past :=
  asks.keeps seeks fun _ _ _ _ => trivial

/-- A cycle of a manager that knows the text of its project fetches the diff after it. -/
theorem keeps_seeks_appendNext {sequence : Nat} (same : SameOrder order manager)
    (knows : Knows manager past sequence) :
    ((appendNext setup feed).starting manager).Keeps recorded (Seeks order feed)
      (fun _ _ => True) past := by
  obtain ⟨body, phase, number⟩ := knows.numberOf?
  apply keeps_appendNext_of (fun _ _ => True)
  · apply keeps_seeking asks_cycle
    intro front inquiry asked earlier
    cases asked with
    | fetch =>
        refine .inr ⟨body, sequence, ?_, number, ?_⟩
        · rw [phaseOf_append_of_spares fun exchange member => (earlier exchange member).spares,
            ← same.project]
          exact phase
        · rw [knows.next]
    | _ => trivial
  · intro outcome now _
    have cleans : (cleanUp setup manager outcome).run.Asks fun inquiry =>
        ∀ past, Seeks order feed past inquiry :=
      asks_cleanUp (fun _ => trivial) fun _ _ _ => trivial
    exact keeps_seeking cleans fun front inquiry seeks _ => seeks _
  · exact fun _ _ _ => trivial
  · exact fun _ _ => ⟨trivial, fun _ _ _ => trivial⟩

/-- The discipline of a manager, with the numbers of its attempts, as it drives its feed. -/
def seeking (setup : Setup) (order : Manager) (feed : String) :
    Conduct recorded
      (fun past inquiry => Orderly setup order {feed} past inquiry ∧ Seeks order feed past inquiry)
      setup order {feed} :=
  let conduct := (orderly setup order {feed}).conduct
  { free := conduct.free
    held := conduct.held
    ready := conduct.ready
    fails := conduct.fails
    same_of_free := conduct.same_of_free
    same_of_held := conduct.same_of_held
    held_of_ready := conduct.held_of_ready
    stopped := conduct.stopped
    idle := by
      intro manager past inquiry idle free
      obtain ⟨allowed, still⟩ := conduct.idle idle free
      refine ⟨⟨allowed, ?_⟩, still⟩
      cases idle with
      | _ => trivial
    reserve := by
      intro manager past free
      obtain ⟨allowed, reserved⟩ := conduct.reserve free
      exact ⟨⟨allowed, trivial⟩, reserved⟩
    release := by
      intro manager past held
      obtain ⟨allowed, released⟩ := conduct.release held
      exact ⟨⟨allowed, trivial⟩, released⟩
    load := by
      rintro manager past _ ⟨⟩ held
      have seeks : ((loadBoth feed).starting manager).Keeps recorded (Seeks order feed)
          (fun _ _ => True) past := by
        have asks : ((loadBoth feed).starting manager).Asks fun inquiry =>
            ∀ past, Seeks order feed past inquiry :=
          asks_loadBoth (fun _ => trivial) fun _ => .inl rfl
        exact keeps_seeking asks fun front inquiry seeks _ => seeks _
      exact ((conduct.load rfl held).both seeks).mono fun _ _ kept => kept.1
    appendNext := by
      rintro manager past _ ⟨⟩ ready behind
      have appends : ((appendNext setup feed).starting manager).Keeps recorded _ _ past :=
        conduct.appendNext rfl ready behind
      obtain ⟨same, ⟨sequence, knows⟩, -⟩ := ready
      exact (appends.both (keeps_seeks_appendNext same knows)).mono fun _ _ kept => kept.1 }

/--
As long as nobody else writes the progress text, every attempt of continuous work is one at
the number after that of the text that lies in the object store.
-/
theorem attempts_next_of_leads {first : Option Bytes} {scene : Scene} {url : String}
    {headers : List Http.Header}
    {next : Except Http.Fault Http.Response →
      Dialogue collaborators (Except Failure Rounds × Manager)}
    (run : Leads (alone manager.progress.project) ((forever setup feed horizon).starting manager)
      ⟨[], first.toList⟩ (.ask (P := collaborators) (.fetch url headers) next) scene) :
    url = Diff.joinUrl feed Feed.stateFile ∨
      ∃ body sequence, scene.texts.head? = some body ∧ Progress.numberOf? body = some sequence ∧
        url = Diff.joinUrl feed (Diff.path (sequence + 1)) := by
  have keeps : ((forever setup feed horizon).starting manager).Keeps recorded _ _ [] :=
    (seeking setup manager feed).keeps_forever rfl ⟨.refl manager, rfl⟩
  have record : Leads recorded _ [] _ scene.past :=
    run.map Scene.past fun _ _ _ _ step => step.1
  have seeks : Seeks manager feed scene.past (.fetch url headers) := (keeps.leads record).1.2
  have orderly := keeps.relax (fun _ _ _ _ step => step) fun _ _ allowed => allowed.1
  have start : Consecutive first.toList := by
    cases first with
    | none => exact .nil
    | some text => exact .singleton text
  obtain ⟨-, faithful, -⟩ :=
    safe_of_leads run orderly (fun _ known => Phase.noConfusion known) start
  rcases seeks with state | ⟨body, sequence, phase, number, diff⟩
  · exact .inl state
  · exact .inr ⟨body, sequence, faithful body phase, number, diff⟩

/-! ## The whole -/

/--
Continuous work of a manager, after any history. It never fails, and no failure of a step
ends it. It returns only when it was found between two steps that the work is to end, or a
step reported the limit; only a bound on the number of steps cuts it off. From the moment on
at which it was asked to end, wherever that comes up, the step that is under way is carried
through to its end, and after that only idle questions are asked. At the end the tools are
ended once, and then the queue is stopped exactly if a preparation started it and nothing
has stopped it since, whatever comes of that. As long as nobody else writes the progress
text, every attempt is at the number after that of the text in the object store.
-/
theorem forever_ends_when_asked
    (history : History recorded setup (fun _ _ _ _ => True) .fresh [] manager past)
    (feed : String) (horizon : Nat) :
    (∀ cancelled rest now outcome after finish,
      Leads watched ((forever setup feed horizon).starting manager) ⟨past, cancelled⟩ rest now →
      Leads watched rest now (.done (outcome, after)) finish →
        ∃ front back, now.past = past ++ front ∧ finish.past = now.past ++ back ∧
          (now.cancelled = true → Winds setup feed front back) ∧
          ((outcome = .ok .running ∧
              Rounded setup feed horizon manager (front ++ back) .running after) ∨
            ∃ said closed last, outcome = .ok .ended ∧ after = last.stopped ∧
              front ++ back = said ++ closed ∧
              Rounded setup feed horizon manager said .ended last ∧ EndedBy setup feed said last ∧
              if queueRuns (past ++ said) then
                ∃ answer, closed =
                  [Inquiry.answered .terminateTools (), Inquiry.answered .stopQueue answer]
              else closed = [Inquiry.answered .terminateTools ()])) ∧
    ∀ (first : Option Bytes) scene url headers next,
      Leads (alone manager.progress.project) ((forever setup feed horizon).starting manager)
        ⟨[], first.toList⟩ (.ask (P := collaborators) (.fetch url headers) next) scene →
      url = Diff.joinUrl feed Feed.stateFile ∨
        ∃ body sequence, scene.texts.head? = some body ∧ Progress.numberOf? body = some sequence ∧
          url = Diff.joinUrl feed (Diff.path (sequence + 1)) := by
  refine ⟨?_, fun first scene url headers next run => attempts_next_of_leads run⟩
  intro cancelled rest now outcome after finish run later
  obtain ⟨front, hfront, recorded, -⟩ := said_of_watched run
  obtain ⟨back, hback, recordedLater, heeds⟩ := said_of_watched later
  obtain ⟨exchanges, hexchanges, ends⟩ := ends_of_leads (recorded.trans recordedLater) rfl
  obtain rfl : exchanges = front ++ back := by
    rw [hback, hfront, List.append_assoc] at hexchanges
    exact (List.append_cancel_left hexchanges).symm
  refine ⟨front, back, hfront, hback, ?_, ?_⟩
  · exact fun asked => winds_of_ends_forever ends (heeds asked)
  · rcases rounded_of_ends_forever ends with
      ⟨rfl, rounded⟩ | ⟨said, closed, last, rfl, split, rfl, rounded, closes⟩
    · exact .inl ⟨rfl, rounded⟩
    · have knows := (knowsQueue_of_history history).of_course (course_of_rounded rounded)
      exact .inr ⟨said, closed, last, rfl, rfl, split, rounded, rounded.endedBy,
        knows.closed closes⟩

/-- The town with a queue. -/
def queuedSetup : Setup := { townSetup with hasQueue := true }

/-- The manager that is prepared for the town and has started the queue. -/
def queuedTown : Manager := { townManager with queueStarted := true }

/-- The preparation of the town with a queue. -/
def queuedPreparation : Dialogue collaborators (Except Failure Unit × Manager) ×
    List (Exchange collaborators) :=
  (((Call.prepare ⟨"town", [roads], [.objectStore], none⟩).work queuedSetup).starting
    Manager.fresh).advance (P := collaborators) (noting [firstText]) 6 []

theorem queuedTown_history : History recorded queuedSetup (fun _ _ _ _ => True) .fresh []
    queuedTown queuedPreparation.2 := by
  have run : Leads recorded (((Call.prepare ⟨"town", [roads], [.objectStore], none⟩).work
      queuedSetup).starting Manager.fresh) [] queuedPreparation.1 queuedPreparation.2 :=
    leads_noting [firstText] 6 _ []
  have prepared : queuedPreparation.1 = .done (.ok (), queuedTown) := rfl
  rw [prepared] at run
  exact .call .start run trivial

/-- Obliging collaborators; the work is asked to end while a diff is applied. -/
def cancelling (question : Inquiry) (watch : Watch) : question.Answer × Watch :=
  let answer : question.Answer :=
    match question with
    | .isCancelled => watch.cancelled
    | question => obliging [firstText] question
  let applies : Bool :=
    match question with
    | .applyDiff _ => true
    | _ => false
  (answer, ⟨watch.past ++ [Inquiry.answered question answer], watch.cancelled || applies⟩)

theorem leads_cancelling {α : Type} (count : Nat) (dialogue : Dialogue collaborators α)
    (watch : Watch) :
    Leads watched dialogue watch (dialogue.advance cancelling count watch).1
      (dialogue.advance cancelling count watch).2 := by
  refine leads_advance (fun question watch => ⟨rfl, ?_, fun cancelled => ?_⟩) count dialogue watch
  · cases question with
    | isCancelled => rfl
    | _ => trivial
  · exact (congrArg (· || _) cancelled).trans (Bool.true_or _)

/-- The continuous work of the town, up to where its first diff is applied. -/
def townWork : Dialogue collaborators (Except Failure Rounds × Manager) × Watch :=
  ((forever queuedSetup "feed" 3).starting queuedTown).advance (P := collaborators) cancelling 9
    ⟨queuedPreparation.2, false⟩

/-- The rest of the continuous work of the town. -/
def townWorkEnd : Dialogue collaborators (Except Failure Rounds × Manager) × Watch :=
  townWork.1.advance (P := collaborators) cancelling 20 townWork.2

/-- Whether an exchange is one about stopping the queue. -/
def stopsQueue (exchange : Exchange collaborators) : Bool :=
  match exchange.question with
  | .stopQueue => true
  | _ => false

/-- The continuous work of the town up to its first attempt. -/
def townAttempt : Dialogue collaborators (Except Failure Rounds × Manager) × Scene :=
  ((forever queuedSetup "feed" 3).starting queuedTown).advance (P := collaborators)
    (obligingly "town") 4 ⟨[], [firstText]⟩

/-- What a dialogue is about to fetch. -/
def fetching? {α : Type} : Dialogue collaborators α → Option String
  | .ask (Inquiry.fetch url _) _ => some url
  | _ => none

theorem ask_of_fetching? {α : Type} {dialogue : Dialogue collaborators α} {url : String}
    (fetching : fetching? dialogue = some url) :
    ∃ headers next, dialogue = .ask (P := collaborators) (.fetch url headers) next := by
  unfold fetching? at fetching
  split at fetching
  case h_1 url headers next =>
    cases fetching
    exact ⟨headers, next, rfl⟩
  case h_2 => cases fetching

/--
The town's work is asked to end while its first diff is applied: the step is carried
through, and then the tools are ended and the queue is stopped. The diff is the one after
the progress text.
-/
theorem townWork_ends_when_asked :
    (∃ front back said answer after,
      townWork.2.cancelled = true ∧ townWork.2.past = queuedPreparation.2 ++ front ∧
        townWorkEnd.2.past = townWork.2.past ++ back ∧ townWorkEnd.1 = .done (.ok .ended, after) ∧
        Winds queuedSetup "feed" front back ∧
        front ++ back =
          said ++ [Inquiry.answered .terminateTools (), Inquiry.answered .stopQueue answer]) ∧
    ∃ url body sequence, fetching? townAttempt.1 = some url ∧
      townAttempt.2.texts.head? = some body ∧ Progress.numberOf? body = some sequence ∧
      url = Diff.joinUrl "feed" (Diff.path (sequence + 1)) := by
  obtain ⟨whole, attempts⟩ := forever_ends_when_asked queuedTown_history "feed" 3
  constructor
  · have run : Leads watched ((forever queuedSetup "feed" 3).starting queuedTown)
        ⟨queuedPreparation.2, false⟩ townWork.1 townWork.2 := leads_cancelling 9 _ _
    have later : Leads watched townWork.1 townWork.2 townWorkEnd.1 townWorkEnd.2 :=
      leads_cancelling 20 _ _
    have cancelled : townWork.2.cancelled = true := by decide +kernel
    have ended : (townWorkEnd.1.value?.bind fun result => result.1.toOption) = some .ended := by
      decide +kernel
    obtain ⟨⟨outcome, after⟩, value, finished⟩ := Option.bind_eq_some_iff.mp ended
    have done := eq_done_of_value? value
    rw [done] at later
    obtain ⟨front, back, first, second, winds, ends⟩ := whole _ _ _ _ _ _ run later
    rcases ends with ⟨rfl, -⟩ | ⟨said, closed, last, rfl, -, split, -, -, closing⟩
    · cases finished
    have stopped : (townWorkEnd.2.past.getLast?.map stopsQueue) = some true := by
      decide +kernel
    split at closing
    case isTrue =>
      obtain ⟨answer, rfl⟩ := closing
      exact ⟨front, back, said, answer, after, cancelled, first, second, done, winds cancelled,
        split⟩
    case isFalse =>
      -- If the queue did not run, ending the tools would come last.
      rw [second, first, List.append_assoc, split, closing, ← List.append_assoc,
        List.getLast?_concat] at stopped
      cases stopped
  · have fetching : fetching? townAttempt.1 = some (Diff.joinUrl "feed" (Diff.path 2)) := by
      decide +kernel
    obtain ⟨headers, next, asked⟩ := ask_of_fetching? fetching
    have run : Leads (alone "town") ((forever queuedSetup "feed" 3).starting queuedTown)
        ⟨[], (some firstText).toList⟩ townAttempt.1 townAttempt.2 :=
      leads_obligingly "town" 4 _ _
    rw [asked] at run
    rcases attempts _ _ _ _ _ run with state | ⟨body, sequence, newest, number, url⟩
    · exact absurd state (by decide +kernel)
    · exact ⟨_, body, sequence, fetching, newest, number, url⟩

end MapReplica.Update
