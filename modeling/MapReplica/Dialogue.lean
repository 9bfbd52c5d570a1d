/-!
# Dialogues

A dialogue is a computation that asks its surroundings questions and goes on with
the answers. What may be asked, and which kind of answer a question has, is the
protocol. Nothing is said about who answers, so a statement about all dialogues of a
protocol covers every behaviour of the surroundings.
-/

namespace MapReplica

/-- What may be asked, and the kind of answer to each question. -/
structure Protocol where
  Question : Type
  Answer : Question → Type

/-- A question with its answer. -/
structure Exchange (P : Protocol) where
  question : P.Question
  answer : P.Answer question

/-- A computation that ends with a value or asks a question and goes on with the answer. -/
inductive Dialogue (P : Protocol) (α : Type) where
  | done (value : α)
  | ask (question : P.Question) (next : P.Answer question → Dialogue P α)

namespace Dialogue

variable {P R : Protocol} {α β γ σ : Type}

/-- Goes on with another dialogue after the first one ended. -/
def bind : Dialogue P α → (α → Dialogue P β) → Dialogue P β
  | done value, rest => rest value
  | ask question next, rest => ask question fun answer => (next answer).bind rest

instance : Monad (Dialogue P) where
  pure := done
  bind := bind

@[simp]
theorem pure_eq (value : α) : (pure value : Dialogue P α) = done value := rfl

@[simp]
theorem done_bind (value : α) (rest : α → Dialogue P β) : (done value >>= rest) = rest value := rfl

@[simp]
theorem ask_bind (question : P.Question) (next : P.Answer question → Dialogue P α)
    (rest : α → Dialogue P β) :
    (ask question next >>= rest) = ask question fun answer => next answer >>= rest := rfl

theorem bind_done (d : Dialogue P α) : (d >>= done) = d := by
  induction d with
  | done value => rfl
  | ask question next ih =>
      rw [ask_bind]
      exact congrArg (ask question) (funext ih)

theorem bind_assoc (d : Dialogue P α) (f : α → Dialogue P β) (g : β → Dialogue P γ) :
    (d >>= f >>= g) = d >>= fun value => f value >>= g := by
  induction d with
  | done value => rfl
  | ask question next ih =>
      simp only [ask_bind]
      exact congrArg (ask question) (funext ih)

instance : LawfulMonad (Dialogue P) :=
  LawfulMonad.mk' _ bind_done (fun _ _ => rfl) bind_assoc

/-- Asks one question and ends with the answer. -/
def question (q : P.Question) : Dialogue P (P.Answer q) :=
  ask q done

/-- Runs a dialogue against surroundings with a state. -/
def run (answer : (q : P.Question) → σ → P.Answer q × σ) : Dialogue P α → σ → α × σ
  | done value, state => (value, state)
  | ask q next, state =>
      let (reply, state) := answer q state
      (next reply).run answer state

/-- Holds a dialogue in another protocol, in which every question of the first has a dialogue of its own. -/
def interpret (answer : (q : P.Question) → Dialogue R (P.Answer q)) : Dialogue P α → Dialogue R α
  | done value => done value
  | ask q next => (answer q).bind fun reply => (next reply).interpret answer

/-- The exchanges of a complete run of a dialogue that ends with a value. -/
inductive Ends : Dialogue P α → List (Exchange P) → α → Prop where
  | done (value : α) : Ends (.done value) [] value
  | ask {q : P.Question} {next : P.Answer q → Dialogue P α} {answer : P.Answer q}
      {later : List (Exchange P)} {value : α} :
      Ends (next answer) later value → Ends (.ask q next) (⟨q, answer⟩ :: later) value

end Dialogue

end MapReplica
