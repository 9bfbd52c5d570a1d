import MapReplica.Proofs.Dialogue.Runs

/-!
# Passages

A run to the end of a dialogue is a complete run together with the states that its
exchanges pass through. So what is said in the run and what becomes of the surroundings
may be looked at apart: the one follows from the dialogue, the other from the exchanges.
-/

namespace MapReplica.Dialogue

variable {P : Protocol} {α σ : Type}

/-- Exchanges that lead the surroundings from one state to another. -/
inductive Passage (world : Surroundings P σ) : σ → List (Exchange P) → σ → Prop where
  | nil (state : σ) : Passage world state [] state
  | cons {state between last : σ} {question : P.Question} {answer : P.Answer question}
      {later : List (Exchange P)} (answered : world state question answer between)
      (rest : Passage world between later last) :
      Passage world state (⟨question, answer⟩ :: later) last

variable {world : Surroundings P σ} {state last : σ} {front back exchanges : List (Exchange P)}

theorem passage_nil_iff : Passage world state [] last ↔ last = state := by
  constructor
  · intro passage
    cases passage
    rfl
  · rintro rfl
    exact .nil last

theorem passage_cons_iff {question : P.Question} {answer : P.Answer question} :
    Passage world state (⟨question, answer⟩ :: back) last ↔
      ∃ between, world state question answer between ∧ Passage world between back last := by
  constructor
  · intro passage
    cases passage with
    | cons answered rest => exact ⟨_, answered, rest⟩
  · rintro ⟨_, answered, rest⟩
    exact .cons answered rest

theorem passage_append_iff :
    Passage world state (front ++ back) last ↔
      ∃ between, Passage world state front between ∧ Passage world between back last := by
  induction front generalizing state with
  | nil => simp [passage_nil_iff]
  | cons exchange front ih =>
      obtain ⟨question, answer⟩ := exchange
      simp only [List.cons_append, passage_cons_iff, ih]
      constructor
      · rintro ⟨between, answered, middle, first, rest⟩
        exact ⟨middle, ⟨between, answered, first⟩, rest⟩
      · rintro ⟨middle, ⟨between, answered, first⟩, rest⟩
        exact ⟨between, answered, middle, first, rest⟩

/-- What every exchange leaves true holds at the end of a passage. -/
theorem Passage.invariant (holds : σ → Prop) (passage : Passage world state exchanges last)
    (start : holds state)
    (step : ∀ exchange ∈ exchanges, ∀ before after, holds before →
      world before exchange.question exchange.answer after → holds after) :
    holds last := by
  induction passage with
  | nil state => exact start
  | cons answered _ ih =>
      exact ih (step _ List.mem_cons_self _ _ start answered) fun exchange member =>
        step exchange (List.mem_cons_of_mem _ member)

/-- A passage in some surroundings is one in others that see less of the state. -/
theorem Passage.map {τ : Type} {other : Surroundings P τ}
    (passage : Passage world state exchanges last) (view : σ → τ)
    (fits : ∀ before question answer after, world before question answer after →
      other (view before) question answer (view after)) :
    Passage other (view state) exchanges (view last) := by
  induction passage with
  | nil state => exact .nil _
  | cons answered _ ih => exact .cons (fits _ _ _ _ answered) ih

/-- A run to the end of a dialogue is a complete run and a passage of its exchanges. -/
theorem exists_passage_of_leads {dialogue rest : Dialogue P α} {value : α}
    (run : Leads world dialogue state rest last) (ended : rest = done value) :
    ∃ exchanges, Ends dialogue exchanges value ∧ Passage world state exchanges last := by
  induction run with
  | start dialogue state =>
      subst ended
      exact ⟨[], .done value, .nil state⟩
  | step answered _ ih =>
      obtain ⟨later, ends, passage⟩ := ih ended
      exact ⟨_ :: later, .ask ends, .cons answered passage⟩

end MapReplica.Dialogue
