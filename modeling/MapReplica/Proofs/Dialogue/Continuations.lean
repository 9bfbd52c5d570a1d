import Mathlib.Data.List.Forall2
import MapReplica.Proofs.Dialogue.Runs

/-!
# What follows a question

A dialogue goes on after each answer as its question says. What holds of every question
and of the way the dialogue goes on after it holds throughout the dialogue, so also at
every moment of a run. If a dialogue goes on alike after like answers, then runs that
differ in like answers only cannot be told apart: they lead to the same dialogue.
-/

namespace MapReplica

/-- Exchanges of the same question whose answers are alike. -/
inductive Exchange.Alike {P : Protocol}
    (like : (question : P.Question) → P.Answer question → P.Answer question → Prop) :
    Exchange P → Exchange P → Prop where
  | intro {question : P.Question} {answer other : P.Answer question} :
      like question answer other → Alike like ⟨question, answer⟩ ⟨question, other⟩

namespace Dialogue

variable {P : Protocol} {α β : Type}

/-- Every question of a dialogue and the way it goes on after that are as wanted. -/
def Throughout
    (each : (question : P.Question) → (P.Answer question → Dialogue P α) → Prop) :
    Dialogue P α → Prop
  | done _ => True
  | ask question next => each question next ∧ ∀ answer, (next answer).Throughout each

variable {each : (question : P.Question) → (P.Answer question → Dialogue P α) → Prop}

/-- The rule of sequence: the rest follows each question of the first dialogue, too. -/
theorem Throughout.bind {first : Dialogue P α} {rest : α → Dialogue P β}
    {later : (question : P.Question) → (P.Answer question → Dialogue P β) → Prop}
    (hfirst : first.Throughout each)
    (carry : ∀ question next, each question next →
      later question fun answer => next answer >>= rest)
    (hrest : ∀ exchanges value, Ends first exchanges value → (rest value).Throughout later) :
    (first >>= rest).Throughout later := by
  induction first with
  | done value => exact hrest [] value (.done value)
  | ask question next ih =>
      refine ⟨carry question next hfirst.1, fun answer => ?_⟩
      exact ih answer (hfirst.2 answer) fun exchanges value ends => hrest _ value (.ask ends)

theorem Throughout.mono
    {weaker : (question : P.Question) → (P.Answer question → Dialogue P α) → Prop}
    {dialogue : Dialogue P α} (throughout : dialogue.Throughout each)
    (weaken : ∀ question next, each question next → weaker question next) :
    dialogue.Throughout weaker := by
  induction dialogue with
  | done value => trivial
  | ask question next ih =>
      exact ⟨weaken question next throughout.1, fun answer => ih answer (throughout.2 answer)⟩

/-- What holds of permitted questions however a dialogue goes on after them. -/
theorem Asks.throughout {permitted : P.Question → Prop} {dialogue : Dialogue P α}
    (asks : dialogue.Asks permitted)
    (holds : ∀ question next, permitted question → each question next) :
    dialogue.Throughout each := by
  induction dialogue with
  | done value => trivial
  | ask question next ih =>
      exact ⟨holds question next asks.1, fun answer => ih answer (asks.2 answer)⟩

/-- What holds throughout a dialogue holds throughout what is left of it at any moment. -/
theorem Throughout.leads {σ : Type} {world : Surroundings P σ} {dialogue rest : Dialogue P α}
    {state last : σ} (throughout : dialogue.Throughout each)
    (run : Leads world dialogue state rest last) : rest.Throughout each := by
  induction run with
  | start dialogue state => exact throughout
  | step answered _ ih => exact ih (throughout.2 _)

/--
Answers that are alike are not told apart: with others like them on the record, the same
is left of the dialogue.
-/
theorem Throughout.leads_of_alike
    {like : (question : P.Question) → P.Answer question → P.Answer question → Prop}
    {dialogue rest : Dialogue P α} {past last said begun other : List (Exchange P)}
    (throughout : dialogue.Throughout each)
    (alikeAfter : ∀ question next, each question next →
      ∀ answer given, like question answer given → next answer = next given)
    (run : Leads recorded dialogue past rest last) (split : last = past ++ said)
    (alike : List.Forall₂ (Exchange.Alike like) said other) :
    Leads recorded dialogue begun rest (begun ++ other) := by
  induction run generalizing said begun other with
  | start dialogue past =>
      obtain rfl : said = [] := by simpa using split
      cases alike
      rw [List.append_nil]
      exact .start dialogue begun
  | @step question next answer rest past after last answered run ih =>
      obtain ⟨later, rfl⟩ := run.exists_said
      rw [answered, List.append_assoc, List.singleton_append] at split
      obtain rfl := List.append_cancel_left split
      cases alike with
      | cons head tail =>
          cases head with
          | @intro _ _ given like =>
              have same := alikeAfter question next throughout.1 answer given like
              have further : Leads recorded (next answer) (begun ++ [⟨question, given⟩]) rest _ :=
                ih (throughout.2 answer) rfl tail
              rw [List.append_assoc, List.singleton_append, same] at further
              exact .step rfl further

end Dialogue

end MapReplica
