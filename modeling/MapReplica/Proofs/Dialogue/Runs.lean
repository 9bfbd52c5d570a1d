import MapReplica.Dialogue

/-!
# Runs of a dialogue

Surroundings say which answers a question may get in a state and which state comes
after that. A run leads from a dialogue and a state to what is left of the dialogue and
the state then. A dialogue keeps to a rule if along every run it asks only what the rule
allows in the state in which it asks, and ends only as wanted; the rules for `Keeps`
follow the constructors, and `Keeps.leads` says that they hold at every moment of a run.
-/

namespace MapReplica

/-- How surroundings with a state may answer a question, and the state after that. -/
abbrev Surroundings (P : Protocol) (σ : Type) :=
  σ → (question : P.Question) → P.Answer question → σ → Prop

namespace Dialogue

variable {P : Protocol} {α β σ : Type}

/-! ## Complete runs -/

theorem ends_done_iff {value result : α} {exchanges : List (Exchange P)} :
    Ends (done value) exchanges result ↔ exchanges = [] ∧ result = value := by
  constructor
  · intro ends
    cases ends
    exact ⟨rfl, rfl⟩
  · rintro ⟨rfl, rfl⟩
    exact .done _

theorem ends_ask_iff {question : P.Question} {next : P.Answer question → Dialogue P α}
    {exchanges : List (Exchange P)} {result : α} :
    Ends (ask question next) exchanges result ↔
      ∃ answer later, exchanges = ⟨question, answer⟩ :: later ∧
        Ends (next answer) later result := by
  constructor
  · intro ends
    cases ends with
    | ask rest => exact ⟨_, _, rfl, rest⟩
  · rintro ⟨answer, later, rfl, rest⟩
    exact .ask rest

/-- A single question whose answer is made into the value. -/
theorem ends_answer_iff {question : P.Question} {make : P.Answer question → α}
    {exchanges : List (Exchange P)} {result : α} :
    Ends (ask question fun answer => done (make answer)) exchanges result ↔
      ∃ answer, exchanges = [⟨question, answer⟩] ∧ make answer = result := by
  rw [ends_ask_iff]
  constructor
  · rintro ⟨answer, later, rfl, ends⟩
    obtain ⟨rfl, rfl⟩ := ends_done_iff.mp ends
    exact ⟨answer, rfl, rfl⟩
  · rintro ⟨answer, rfl, rfl⟩
    exact ⟨answer, [], rfl, .done _⟩

theorem ends_question_iff {question : P.Question} {exchanges : List (Exchange P)}
    {answer : P.Answer question} :
    Ends (Dialogue.question question) exchanges answer ↔ exchanges = [⟨question, answer⟩] := by
  rw [Dialogue.question, ends_answer_iff]
  constructor
  · rintro ⟨_, rfl, rfl⟩
    rfl
  · rintro rfl
    exact ⟨answer, rfl, rfl⟩

/-- A complete run of two dialogues in sequence is a complete run of each, one after the other. -/
theorem ends_bind_iff {first : Dialogue P α} {rest : α → Dialogue P β}
    {exchanges : List (Exchange P)} {result : β} :
    Ends (first >>= rest) exchanges result ↔
      ∃ front value back, exchanges = front ++ back ∧ Ends first front value ∧
        Ends (rest value) back result := by
  induction first generalizing exchanges with
  | done value =>
      constructor
      · intro ends
        exact ⟨[], value, exchanges, rfl, .done value, ends⟩
      · rintro ⟨front, middle, back, rfl, hfront, hback⟩
        obtain ⟨rfl, rfl⟩ := ends_done_iff.mp hfront
        exact hback
  | ask question next ih =>
      rw [ask_bind, ends_ask_iff]
      constructor
      · rintro ⟨answer, later, rfl, ends⟩
        obtain ⟨front, value, back, rfl, hfront, hback⟩ := (ih answer).mp ends
        exact ⟨_ :: front, value, back, rfl, .ask hfront, hback⟩
      · rintro ⟨front, value, back, rfl, hfront, hback⟩
        obtain ⟨answer, later, rfl, hlater⟩ := ends_ask_iff.mp hfront
        exact ⟨answer, later ++ back, rfl, (ih answer).mpr ⟨later, value, back, rfl, hlater, hback⟩⟩

/--
The answers decide where a run ends: of two complete runs of a dialogue neither goes on where
the other one has ended.
-/
theorem Ends.unique {dialogue : Dialogue P α} {front other back later : List (Exchange P)}
    {value result : α} (first : Ends dialogue front value) (second : Ends dialogue other result)
    (same : front ++ back = other ++ later) : front = other ∧ value = result ∧ back = later := by
  induction first generalizing other with
  | done value =>
      obtain ⟨rfl, rfl⟩ := ends_done_iff.mp second
      exact ⟨rfl, rfl, same⟩
  | ask _ ih =>
      obtain ⟨answer, rest, rfl, ends⟩ := ends_ask_iff.mp second
      obtain ⟨head, tails⟩ := List.cons.inj same
      cases head
      obtain ⟨rfl, rfl, rfl⟩ := ih ends tails
      exact ⟨rfl, rfl, rfl⟩

/-- A value that is made into another asks nothing more. -/
theorem ends_make_iff {dialogue : Dialogue P α} {make : α → β} {exchanges : List (Exchange P)}
    {result : β} :
    Ends (dialogue >>= fun value => done (make value)) exchanges result ↔
      ∃ value, Ends dialogue exchanges value ∧ result = make value := by
  rw [ends_bind_iff]
  constructor
  · rintro ⟨front, value, back, rfl, hfront, hback⟩
    obtain ⟨rfl, rfl⟩ := ends_done_iff.mp hback
    exact ⟨value, by rwa [List.append_nil], rfl⟩
  · rintro ⟨value, ends, rfl⟩
    exact ⟨exchanges, value, [], (List.append_nil _).symm, ends, .done _⟩

/-- What follows a dialogue matters only for the values that it can end with. -/
theorem bind_congr_of_ends {dialogue : Dialogue P α} {rest other : α → Dialogue P β}
    (same : ∀ exchanges value, Ends dialogue exchanges value → rest value = other value) :
    (dialogue >>= rest) = dialogue >>= other := by
  induction dialogue with
  | done value => exact same [] value (.done value)
  | ask question next ih =>
      rw [ask_bind, ask_bind]
      refine congrArg (ask question) (funext fun answer => ?_)
      exact ih answer fun exchanges value ends => same _ value (.ask ends)

/-- Fixed answers to all questions make a complete run. -/
theorem exists_ends_answering (answer : (question : P.Question) → P.Answer question)
    (dialogue : Dialogue P α) :
    ∃ exchanges value, Ends dialogue exchanges value ∧
      ∀ exchange ∈ exchanges, exchange.answer = answer exchange.question := by
  induction dialogue with
  | done value => exact ⟨[], value, .done value, by simp⟩
  | ask question next ih =>
      obtain ⟨later, value, ends, answered⟩ := ih (answer question)
      exact ⟨⟨question, answer question⟩ :: later, value, .ask ends, by simpa using answered⟩

/-! ## Questions -/

/-- All questions that a dialogue can ask are permitted. -/
def Asks (permitted : P.Question → Prop) : Dialogue P α → Prop
  | done _ => True
  | ask question next => permitted question ∧ ∀ answer, (next answer).Asks permitted

theorem Asks.bind {permitted : P.Question → Prop} {first : Dialogue P α} {rest : α → Dialogue P β}
    (hfirst : first.Asks permitted) (hrest : ∀ value, (rest value).Asks permitted) :
    (first >>= rest).Asks permitted := by
  induction first with
  | done value => exact hrest value
  | ask question next ih => exact ⟨hfirst.1, fun answer => ih answer (hfirst.2 answer)⟩

theorem Asks.mono {permitted allowed : P.Question → Prop} {dialogue : Dialogue P α}
    (asks : dialogue.Asks permitted) (weaker : ∀ question, permitted question → allowed question) :
    dialogue.Asks allowed := by
  induction dialogue with
  | done value => trivial
  | ask question next ih => exact ⟨weaker question asks.1, fun answer => ih answer (asks.2 answer)⟩

/-- What was asked in a complete run is permitted. -/
theorem Asks.of_ends {permitted : P.Question → Prop} {dialogue : Dialogue P α}
    {exchanges : List (Exchange P)} {value : α} (asks : dialogue.Asks permitted)
    (ends : Ends dialogue exchanges value) :
    ∀ exchange ∈ exchanges, permitted exchange.question := by
  induction ends with
  | done value => exact fun _ member => (List.not_mem_nil member).elim
  | ask _ ih =>
      intro exchange member
      rcases List.mem_cons.mp member with rfl | later
      · exact asks.1
      · exact ih (asks.2 _) exchange later

/-- A sequence asks what its first part asks, and what its rest asks after any run of that. -/
theorem asks_bind_iff {permitted : P.Question → Prop} {first : Dialogue P α}
    {rest : α → Dialogue P β} :
    (first >>= rest).Asks permitted ↔
      first.Asks permitted ∧
        ∀ exchanges value, Ends first exchanges value → (rest value).Asks permitted := by
  induction first with
  | done value =>
      constructor
      · intro asks
        refine ⟨trivial, fun exchanges result ends => ?_⟩
        obtain ⟨-, rfl⟩ := ends_done_iff.mp ends
        exact asks
      · rintro ⟨-, each⟩
        exact each [] value (.done value)
  | ask question next ih =>
      constructor
      · rintro ⟨allowed, all⟩
        refine ⟨⟨allowed, fun answer => ((ih answer).mp (all answer)).1⟩, ?_⟩
        intro exchanges value ends
        obtain ⟨answer, later, rfl, hlater⟩ := ends_ask_iff.mp ends
        exact ((ih answer).mp (all answer)).2 later value hlater
      · rintro ⟨⟨allowed, all⟩, each⟩
        refine ⟨allowed, fun answer => (ih answer).mpr ⟨all answer, ?_⟩⟩
        exact fun exchanges value ends => each _ value (.ask ends)

/-! ## Keeping to a rule -/

/--
However the surroundings answer, a dialogue asks only what is allowed in the state in
which it asks, and its value and the state at its end are as wanted.
-/
def Keeps (world : Surroundings P σ) (allows : σ → P.Question → Prop) :
    Dialogue P α → (α → σ → Prop) → σ → Prop
  | done value, wanted, state => wanted value state
  | ask question next, wanted, state =>
      allows state question ∧
        ∀ answer after, world state question answer after →
          (next answer).Keeps world allows wanted after

section Keeps

variable {world : Surroundings P σ} {allows : σ → P.Question → Prop}

@[simp]
theorem keeps_done {value : α} {wanted : α → σ → Prop} {state : σ} :
    (done value).Keeps world allows wanted state ↔ wanted value state := Iff.rfl

@[simp]
theorem keeps_ask {question : P.Question} {next : P.Answer question → Dialogue P α}
    {wanted : α → σ → Prop} {state : σ} :
    (ask question next).Keeps world allows wanted state ↔
      allows state question ∧
        ∀ answer after, world state question answer after →
          (next answer).Keeps world allows wanted after := Iff.rfl

theorem Keeps.mono {dialogue : Dialogue P α} {wanted weaker : α → σ → Prop} {state : σ}
    (keeps : dialogue.Keeps world allows wanted state)
    (weaken : ∀ value after, wanted value after → weaker value after) :
    dialogue.Keeps world allows weaker state := by
  induction dialogue generalizing state with
  | done value => exact weaken value state keeps
  | ask question next ih =>
      exact ⟨keeps.1, fun answer after step => ih answer (keeps.2 answer after step)⟩

/-- What holds at the end for two reasons. -/
theorem Keeps.and {permits : σ → P.Question → Prop} {dialogue : Dialogue P α}
    {wanted other : α → σ → Prop} {state : σ} (keeps : dialogue.Keeps world allows wanted state)
    (also : dialogue.Keeps world permits other state) :
    dialogue.Keeps world allows
      (fun value after => wanted value after ∧ other value after) state := by
  induction dialogue generalizing state with
  | done value => exact ⟨keeps, also⟩
  | ask question next ih =>
      exact ⟨keeps.1, fun answer after step =>
        ih answer (keeps.2 answer after step) (also.2 answer after step)⟩

/-- Two rules at once. -/
theorem Keeps.both {permits : σ → P.Question → Prop} {dialogue : Dialogue P α}
    {wanted other : α → σ → Prop} {state : σ} (keeps : dialogue.Keeps world allows wanted state)
    (also : dialogue.Keeps world permits other state) :
    dialogue.Keeps world (fun state question => allows state question ∧ permits state question)
      (fun value after => wanted value after ∧ other value after) state := by
  induction dialogue generalizing state with
  | done value => exact ⟨keeps, also⟩
  | ask question next ih =>
      exact ⟨⟨keeps.1, also.1⟩, fun answer after step =>
        ih answer (keeps.2 answer after step) (also.2 answer after step)⟩

theorem keeps_bind {first : Dialogue P α} {rest : α → Dialogue P β} {wanted : β → σ → Prop}
    {state : σ} :
    (first >>= rest).Keeps world allows wanted state ↔
      first.Keeps world allows (fun value after => (rest value).Keeps world allows wanted after)
        state := by
  induction first generalizing state with
  | done value => rfl
  | ask question next ih =>
      rw [ask_bind, keeps_ask, keeps_ask]
      simp only [ih]

/-- The rule of sequence: what the first dialogue ends with is what the second starts from. -/
theorem Keeps.bind {first : Dialogue P α} {rest : α → Dialogue P β} {middle : α → σ → Prop}
    {wanted : β → σ → Prop} {state : σ}
    (hfirst : first.Keeps world allows middle state)
    (hrest : ∀ value after, middle value after → (rest value).Keeps world allows wanted after) :
    (first >>= rest).Keeps world allows wanted state :=
  keeps_bind.mpr (hfirst.mono hrest)

/-- What every question that may be asked leaves true holds at the end. -/
theorem Asks.invariant {permitted : P.Question → Prop} {holds : σ → Prop} {dialogue : Dialogue P α}
    {state : σ} (asks : dialogue.Asks permitted) (start : holds state)
    (step : ∀ state question, permitted question → holds state →
      allows state question ∧ ∀ answer after, world state question answer after → holds after) :
    dialogue.Keeps world allows (fun _ after => holds after) state := by
  induction dialogue generalizing state with
  | done value => exact start
  | ask question next ih =>
      obtain ⟨allowed, still⟩ := step state question asks.1 start
      exact ⟨allowed, fun answer after answered =>
        ih answer (asks.2 answer) (still answer after answered)⟩

/-- What every complete run ends with is ended with in any surroundings. -/
theorem keeps_of_ends {dialogue : Dialogue P α} {wanted : α → Prop} {state : σ}
    (all : ∀ exchanges value, Ends dialogue exchanges value → wanted value) :
    dialogue.Keeps world (fun _ _ => True) (fun value _ => wanted value) state := by
  induction dialogue generalizing state with
  | done value => exact all [] value (.done value)
  | ask question next ih =>
      exact ⟨trivial, fun answer after _ => ih answer fun exchanges value ends =>
        all _ value (.ask ends)⟩

/-- A stricter rule in surroundings that answer at least as freely. -/
theorem Keeps.relax {other : Surroundings P σ} {permits : σ → P.Question → Prop}
    {dialogue : Dialogue P α} {wanted : α → σ → Prop} {state : σ}
    (keeps : dialogue.Keeps world allows wanted state)
    (freer : ∀ state question answer after, other state question answer after →
      world state question answer after)
    (stricter : ∀ state question, allows state question → permits state question) :
    dialogue.Keeps other permits wanted state := by
  induction dialogue generalizing state with
  | done value => exact keeps
  | ask question next ih =>
      exact ⟨stricter state question keeps.1, fun answer after step =>
        ih answer (keeps.2 answer after (freer state question answer after step))⟩

end Keeps

/-! ## Runs that need not be complete -/

/-- A run leads from a dialogue and a state to what is left of the dialogue and the state then. -/
inductive Leads (world : Surroundings P σ) : Dialogue P α → σ → Dialogue P α → σ → Prop where
  | start (dialogue : Dialogue P α) (state : σ) : Leads world dialogue state dialogue state
  | step {question : P.Question} {next : P.Answer question → Dialogue P α}
      {answer : P.Answer question} {rest : Dialogue P α} {state after last : σ} :
      world state question answer after → Leads world (next answer) after rest last →
        Leads world (ask question next) state rest last

theorem Leads.trans {world : Surroundings P σ} {first second third : Dialogue P α}
    {state after last : σ} (front : Leads world first state second after)
    (back : Leads world second after third last) : Leads world first state third last := by
  induction front with
  | start dialogue state => exact back
  | step answered _ ih => exact .step answered (ih back)

/-- A run in some surroundings is one in others that see less of the state. -/
theorem Leads.map {τ : Type} {world : Surroundings P σ} {other : Surroundings P τ}
    {dialogue rest : Dialogue P α} {state last : σ} (run : Leads world dialogue state rest last)
    (view : σ → τ) (fits : ∀ state question answer after, world state question answer after →
      other (view state) question answer (view after)) :
    Leads other dialogue (view state) rest (view last) := by
  induction run with
  | start dialogue state => exact .start dialogue (view state)
  | step answered _ ih => exact .step (fits _ _ _ _ answered) ih

/-- What a dialogue keeps to holds at every moment of a run. -/
theorem Keeps.leads {world : Surroundings P σ} {allows : σ → P.Question → Prop}
    {dialogue rest : Dialogue P α} {wanted : α → σ → Prop} {state last : σ}
    (keeps : dialogue.Keeps world allows wanted state)
    (run : Leads world dialogue state rest last) :
    rest.Keeps world allows wanted last := by
  induction run with
  | start dialogue state => exact keeps
  | step answered _ ih => exact ih (keeps.2 _ _ answered)

/-- What is asked at any moment of a run is permitted. -/
theorem Asks.leads {world : Surroundings P σ} {permitted : P.Question → Prop}
    {dialogue rest : Dialogue P α} {state last : σ} (asks : dialogue.Asks permitted)
    (run : Leads world dialogue state rest last) : rest.Asks permitted := by
  induction run with
  | start dialogue state => exact asks
  | step answered _ ih => exact ih (asks.2 _)

/-- A dialogue whose questions can all be answered has a run to its end. -/
theorem Keeps.exists_leads {world : Surroundings P σ} {dialogue : Dialogue P α}
    {wanted : α → σ → Prop} {state : σ}
    (keeps : dialogue.Keeps world
      (fun state question => ∃ answer after, world state question answer after) wanted state) :
    ∃ value last, Leads world dialogue state (.done value) last ∧ wanted value last := by
  induction dialogue generalizing state with
  | done value => exact ⟨value, state, .start _ _, keeps⟩
  | ask question next ih =>
      obtain ⟨⟨answer, after, step⟩, all⟩ := keeps
      obtain ⟨value, last, run, reached⟩ := ih answer (all answer after step)
      exact ⟨value, last, .step step run, reached⟩

/--
Goes on with a dialogue for at most some questions, against surroundings that can be
computed.
-/
def advance (answer : (question : P.Question) → σ → P.Answer question × σ) :
    Nat → Dialogue P α → σ → Dialogue P α × σ
  | 0, dialogue, state => (dialogue, state)
  | _ + 1, done value, state => (done value, state)
  | count + 1, ask question next, state =>
      (next (answer question state).1).advance answer count (answer question state).2

/-- Computed answers that the surroundings may give make a run. -/
theorem leads_advance {world : Surroundings P σ}
    {answer : (question : P.Question) → σ → P.Answer question × σ}
    (fits : ∀ question state, world state question (answer question state).1
      (answer question state).2)
    (count : Nat) (dialogue : Dialogue P α) (state : σ) :
    Leads world dialogue state (dialogue.advance answer count state).1
      (dialogue.advance answer count state).2 := by
  induction count generalizing dialogue state with
  | zero => exact .start dialogue state
  | succ count ih =>
      cases dialogue with
      | done value => exact .start _ state
      | ask question next => exact .step (fits question state) (ih _ _)

/-- The value of a dialogue that has come to its end. -/
def value? : Dialogue P α → Option α
  | done value => some value
  | ask _ _ => none

theorem eq_done_of_value? {dialogue : Dialogue P α} {value : α}
    (ended : dialogue.value? = some value) : dialogue = done value := by
  cases dialogue with
  | done other =>
      cases ended
      rfl
  | ask question next => cases ended

/-! ## Recording what was said -/

/-- Surroundings that answer anything; their state is the record of all exchanges so far. -/
def recorded : Surroundings P (List (Exchange P)) :=
  fun past question answer after => after = past ++ [⟨question, answer⟩]

/-- A run only adds to the record. -/
theorem Leads.exists_said {dialogue rest : Dialogue P α} {past last : List (Exchange P)}
    (run : Leads recorded dialogue past rest last) : ∃ said, last = past ++ said := by
  induction run with
  | start dialogue past => exact ⟨[], (List.append_nil past).symm⟩
  | step answered _ ih =>
      obtain ⟨later, rfl⟩ := ih
      rw [answered, List.append_assoc]
      exact ⟨_, rfl⟩

/-- A recorded run to the end of a dialogue is a complete run. -/
theorem ends_of_leads {dialogue rest : Dialogue P α} {value : α} {past last : List (Exchange P)}
    (run : Leads recorded dialogue past rest last) (ended : rest = done value) :
    ∃ exchanges, last = past ++ exchanges ∧ Ends dialogue exchanges value := by
  induction run with
  | start dialogue past =>
      subst ended
      exact ⟨[], (List.append_nil _).symm, .done value⟩
  | step answered _ ih =>
      obtain ⟨later, rfl, ends⟩ := ih ended
      rw [answered, List.append_assoc]
      exact ⟨_ :: later, rfl, .ask ends⟩

/-- A complete run leads to the end of the dialogue, with its exchanges on the record. -/
theorem leads_of_ends {dialogue : Dialogue P α} {exchanges past : List (Exchange P)} {value : α}
    (ends : Ends dialogue exchanges value) :
    Leads recorded dialogue past (done value) (past ++ exchanges) := by
  induction ends generalizing past with
  | done value =>
      rw [List.append_nil]
      exact .start _ past
  | @ask question next answer later value _ ih =>
      rw [← List.singleton_append, ← List.append_assoc]
      exact .step rfl ih

/-- A run of the first of two dialogues is a run of both, as far as it goes. -/
theorem Leads.bind {world : Surroundings P σ} {dialogue left : Dialogue P α}
    {rest : α → Dialogue P β} {state last : σ} (run : Leads world dialogue state left last) :
    Leads world (dialogue >>= rest) state (left >>= rest) last := by
  induction run with
  | start dialogue state => exact .start _ state
  | step answered _ ih => exact .step answered ih

/-- With fixed answers from some moment on, a run goes on to the end of the dialogue. -/
theorem Leads.exists_end (answer : (question : P.Question) → P.Answer question)
    {dialogue rest : Dialogue P α} {past last : List (Exchange P)}
    (run : Leads recorded dialogue past rest last) :
    ∃ exchanges value, Leads recorded dialogue past (done value) (last ++ exchanges) := by
  obtain ⟨exchanges, value, ends, -⟩ := exists_ends_answering answer rest
  exact ⟨exchanges, value, run.trans (leads_of_ends ends)⟩

/-- What a dialogue asks however it is answered, by a rule about the record. -/
theorem Keeps.asks {allows : List (Exchange P) → P.Question → Prop} {permitted : P.Question → Prop}
    {dialogue : Dialogue P α} {wanted : α → List (Exchange P) → Prop} {past : List (Exchange P)}
    (keeps : dialogue.Keeps recorded allows wanted past)
    (permits : ∀ past question, allows past question → permitted question) :
    dialogue.Asks permitted := by
  induction dialogue generalizing past with
  | done value => trivial
  | ask question next ih =>
      exact ⟨permits past question keeps.1, fun answer => ih answer (keeps.2 answer _ rfl)⟩

/-- What a dialogue ends with in some surroundings it ends with in a complete run. -/
theorem exists_ends_of_leads {world : Surroundings P σ} {dialogue rest : Dialogue P α} {value : α}
    {state last : σ} (run : Leads world dialogue state rest last) (ended : rest = done value) :
    ∃ exchanges, Ends dialogue exchanges value := by
  induction run with
  | start dialogue state =>
      subst ended
      exact ⟨[], .done value⟩
  | step answered _ ih =>
      obtain ⟨later, ends⟩ := ih ended
      exact ⟨_ :: later, .ask ends⟩

/--
What holds of all questions and of all complete runs of a dialogue, as a rule about the
record.
-/
theorem Asks.keeps {permitted : P.Question → Prop} {dialogue : Dialogue P α}
    {allows : List (Exchange P) → P.Question → Prop} {wanted : α → List (Exchange P) → Prop}
    {past : List (Exchange P)} (asks : dialogue.Asks permitted)
    (fits : ∀ front question, permitted question →
      (∀ exchange ∈ front, permitted exchange.question) → allows (past ++ front) question)
    (final : ∀ exchanges value, Ends dialogue exchanges value →
      (∀ exchange ∈ exchanges, permitted exchange.question) → wanted value (past ++ exchanges)) :
    dialogue.Keeps recorded allows wanted past := by
  induction dialogue generalizing past with
  | done value => simpa using final [] value (.done value) (by simp)
  | ask question next ih =>
      refine ⟨by simpa using fits [] question asks.1 (by simp), fun answer after heq => ?_⟩
      subst heq
      refine ih answer (asks.2 answer) (fun front later hlater hfront => ?_)
        (fun exchanges value ends hall => ?_)
      · have allowed := fits (⟨question, answer⟩ :: front) later hlater
          (by simpa [asks.1] using hfront)
        simpa [List.append_assoc] using allowed
      · have reached := final (⟨question, answer⟩ :: exchanges) value (.ask ends)
          (by simpa [asks.1] using hall)
        simpa [List.append_assoc] using reached

end Dialogue

end MapReplica
