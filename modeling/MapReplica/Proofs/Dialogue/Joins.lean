import Mathlib.Data.List.Forall2
import MapReplica.Proofs.Dialogue.Runs

/-!
# Dialogues at the same time

Dialogues that are begun in order and then go on at the same time, so that answers come in
any order. The failure of one of them ends them all; without one they end with all values.
However they are interleaved, each of them says what it says on its own.
-/

namespace MapReplica.Dialogue

variable {P : Protocol} {ε α κ : Type}

/-- What comes about when dialogues go on at the same time: one asks, and later it is answered. -/
inductive Event (P : Protocol) where
  | asked (question : P.Question)
  | answered (exchange : Exchange P)

/-- The questions that were asked, whether or not they were answered. -/
def questions (events : List (Event P)) : List P.Question :=
  events.filterMap fun
    | .asked question => some question
    | .answered _ => none

/-- The answers that came. -/
def answers (events : List (Event P)) : List (Exchange P) :=
  events.filterMap fun
    | .asked _ => none
    | .answered exchange => some exchange

/-- The first question of a dialogue, as it is begun. -/
def opening : Dialogue P α → List (Event P)
  | done _ => []
  | ask question _ => [.asked question]

/--
The runs of dialogues at the same time, of which some were begun and the others wait. The
next one is begun, or one that was begun gets its answer and asks on. A failure may be
noticed as soon as it is there.
-/
inductive Joined : List (Dialogue P (Except ε α)) → List (Dialogue P (Except ε α)) →
    List (Event P) → Except ε (List α) → Prop where
  | start {begun waiting : List (Dialogue P (Except ε α))} {first : Dialogue P (Except ε α)}
      {events : List (Event P)} {outcome : Except ε (List α)}
      (rest : Joined (begun ++ [first]) waiting events outcome) :
      Joined begun (first :: waiting) (first.opening ++ events) outcome
  | answer {front back waiting : List (Dialogue P (Except ε α))} {question : P.Question}
      {next : P.Answer question → Dialogue P (Except ε α)} {events : List (Event P)}
      {outcome : Except ε (List α)} (answer : P.Answer question)
      (rest : Joined (front ++ next answer :: back) waiting events outcome) :
      Joined (front ++ ask question next :: back) waiting
        (.answered ⟨question, answer⟩ :: ((next answer).opening ++ events)) outcome
  | failed {begun waiting : List (Dialogue P (Except ε α))} {failure : ε}
      (member : done (.error failure) ∈ begun) : Joined begun waiting [] (.error failure)
  | ended (values : List α) :
      Joined (values.map fun value => done (.ok value)) [] [] (.ok values)

variable {begun waiting front back : List (Dialogue P (Except ε α))}
variable {dialogue : Dialogue P (Except ε α)} {events : List (Event P)}
variable {outcome : Except ε (List α)}

@[simp]
theorem answers_opening_append (dialogue : Dialogue P α) (events : List (Event P)) :
    answers (dialogue.opening ++ events) = answers events := by
  cases dialogue with
  | done value => rfl
  | ask question next => rfl

@[simp]
theorem answers_cons_answered (exchange : Exchange P) (events : List (Event P)) :
    answers (.answered exchange :: events) = exchange :: answers events := rfl

/-! ## Each on its own -/

theorem mem_amid_iff {β : Type} {item other : β} {front back rest : List β} :
    item ∈ front ++ other :: back ++ rest ↔ item = other ∨ item ∈ front ++ back ++ rest := by
  simp only [List.mem_append, List.mem_cons]
  tauto

theorem exists_amid_of_forall₂ {β γ : Type} {related : β → γ → Prop} {front back : List β}
    {item : β} {parts : List γ} (each : List.Forall₂ related (front ++ item :: back) parts) :
    ∃ before part rest, parts = before ++ part :: rest ∧ List.Forall₂ related front before ∧
      related item part ∧ List.Forall₂ related back rest := by
  induction front generalizing parts with
  | nil =>
      cases each with
      | cons first rest => exact ⟨[], _, _, rfl, .nil, first, rest⟩
  | cons other front ih =>
      cases each with
      | cons first rest =>
          obtain ⟨before, part, after, rfl, early, own, late⟩ := ih rest
          exact ⟨_ :: before, part, after, rfl, .cons first early, own, late⟩

/-- A failure is what one of the dialogues comes to, with answers that came. -/
theorem Joined.exists_failed (joined : Joined begun waiting events outcome) {failure : ε}
    (failed : outcome = .error failure) :
    ∃ dialogue ∈ begun ++ waiting, ∃ said, Ends dialogue said (.error failure) ∧
      ∀ exchange ∈ said, exchange ∈ answers events := by
  induction joined with
  | start _ ih =>
      rw [answers_opening_append, List.append_cons]
      exact ih failed
  | answer answer _ ih =>
      rw [answers_cons_answered, answers_opening_append]
      obtain ⟨dialogue, member, said, ends, among⟩ := ih failed
      have later := fun exchange own => List.mem_cons_of_mem ⟨_, answer⟩ (among exchange own)
      rcases mem_amid_iff.mp member with rfl | other
      · exact ⟨_, mem_amid_iff.mpr (.inl rfl), _, .ask ends,
          List.forall_mem_cons.mpr ⟨List.mem_cons_self, later⟩⟩
      · exact ⟨dialogue, mem_amid_iff.mpr (.inr other), said, ends, later⟩
  | failed member =>
      cases failed
      exact ⟨_, List.mem_append_left _ member, [], .done _, nofun⟩
  | ended values => cases failed

/-- What a dialogue said on its own, and the value to which it came. -/
abbrev Part (P : Protocol) (α : Type) := List (Exchange P) × α

/-- Without a failure every dialogue comes to its value, and all answers were for one of them. -/
theorem Joined.exists_parts (joined : Joined begun waiting events outcome) {values : List α}
    (well : outcome = .ok values) :
    ∃ parts : List (Part P α), values = parts.map Prod.snd ∧
      List.Forall₂ (fun dialogue part => Ends dialogue part.1 (.ok part.2)) (begun ++ waiting)
        parts ∧
      ∀ exchange ∈ answers events, ∃ part ∈ parts, exchange ∈ part.1 := by
  induction joined with
  | start _ ih =>
      rw [answers_opening_append, List.append_cons]
      exact ih well
  | answer answer _ ih =>
      obtain ⟨parts, rfl, each, all⟩ := ih well
      rw [List.append_assoc, List.cons_append] at each ⊢
      obtain ⟨before, ⟨said, value⟩, rest, rfl, early, own, late⟩ := exists_amid_of_forall₂ each
      refine ⟨before ++ (⟨_, answer⟩ :: said, value) :: rest, by simp,
        List.rel_append early (.cons (.ask own) late), ?_⟩
      rw [answers_cons_answered, answers_opening_append]
      rintro exchange (_ | ⟨_, earlier⟩)
      · exact ⟨_, List.mem_append_right _ List.mem_cons_self, List.mem_cons_self⟩
      obtain ⟨part, among, there⟩ := all exchange earlier
      rcases List.mem_append.mp among with first | last
      · exact ⟨part, List.mem_append_left _ first, there⟩
      rcases List.mem_cons.mp last with rfl | last
      · exact ⟨_, List.mem_append_right _ List.mem_cons_self, List.mem_cons_of_mem _ there⟩
      · exact ⟨part, List.mem_append_right _ (List.mem_cons_of_mem _ last), there⟩
  | failed member => cases well
  | ended _ =>
      cases well
      refine ⟨values.map fun value => ([], value), by simp [Function.comp_def], ?_, nofun⟩
      rw [List.append_nil]
      exact List.forall₂_map_left_iff.mpr (List.forall₂_map_right_iff.mpr
        (List.forall₂_same.mpr fun value _ => Ends.done _))

/-! ## In which order -/

section Order

variable {key? : P.Question → Option κ} {keys : List κ}

/-- A dialogue that begins with the question with a key, and asks only others from then on. -/
def Opens (key? : P.Question → Option κ) (dialogue : Dialogue P (Except ε α)) (key : κ) : Prop :=
  ∃ question next, dialogue = ask question next ∧ key? question = some key ∧
    ∀ answer, (next answer).Asks fun later => key? later = none

/-- A dialogue whose first question was asked, and that asks only questions without a key then. -/
def Pursues (key? : P.Question → Option κ) (dialogue : Dialogue P (Except ε α)) : Prop :=
  ∀ question next, dialogue = ask question next →
    ∀ answer, (next answer).Asks fun later => key? later = none

theorem questions_opening_append (dialogue : Dialogue P α) (events : List (Event P)) :
    questions (dialogue.opening ++ events) = questions dialogue.opening ++ questions events :=
  List.filterMap_append ..

/-- A dialogue without questions that have a key. -/
theorem keys_opening (asks : dialogue.Asks fun later => key? later = none) :
    (questions dialogue.opening).filterMap key? = [] ∧ Pursues key? dialogue := by
  cases dialogue with
  | done value => exact ⟨rfl, nofun⟩
  | ask question next =>
      refine ⟨List.filterMap_cons_none asks.1, fun _ _ same => ?_⟩
      cases same
      exact asks.2

/-- Dialogues that begin with a key each ask for the keys in order, and for all of them in the end. -/
theorem Joined.keys_prefix (joined : Joined begun waiting events outcome)
    (pursued : ∀ dialogue ∈ begun, Pursues key? dialogue)
    (opened : List.Forall₂ (Opens key?) waiting keys) :
    (questions events).filterMap key? <+: keys ∧
      ∀ values, outcome = .ok values → (questions events).filterMap key? = keys := by
  induction joined generalizing keys with
  | start _ ih =>
      cases opened with
      | cons own others =>
          obtain ⟨question, next, rfl, keyed, later⟩ := own
          have begun : Pursues key? (ask question next) := by
            intro _ _ same
            cases same
            exact later
          obtain ⟨front, all⟩ := ih (List.forall_mem_append.mpr
            ⟨pursued, List.forall_mem_singleton.mpr begun⟩) others
          have first : (questions (ask question next).opening).filterMap key? = [_] :=
            List.filterMap_cons_some keyed
          rw [questions_opening_append, List.filterMap_append, first, List.singleton_append]
          exact ⟨List.cons_prefix_cons.mpr ⟨rfl, front⟩,
            fun values well => congrArg _ (all values well)⟩
  | @answer front back waiting question next events outcome answer _ ih =>
      have asks := pursued _ (List.mem_append_right _ List.mem_cons_self) question next rfl answer
      obtain ⟨none, goes⟩ := keys_opening asks
      have each : ∀ dialogue ∈ front ++ next answer :: back, Pursues key? dialogue := by
        intro dialogue member
        rcases List.mem_append.mp member with before | here
        · exact pursued dialogue (List.mem_append_left _ before)
        rcases List.mem_cons.mp here with rfl | after
        · exact goes
        · exact pursued dialogue (List.mem_append_right _ (List.mem_cons_of_mem _ after))
      have said : questions (.answered ⟨question, answer⟩ :: ((next answer).opening ++ events)) =
          questions (next answer).opening ++ questions events := questions_opening_append _ events
      rw [said, List.filterMap_append, none, List.nil_append]
      exact ih each opened
  | failed member => exact ⟨List.nil_prefix, nofun⟩
  | ended _ =>
      cases opened
      exact ⟨List.nil_prefix, fun _ _ => rfl⟩

end Order

end MapReplica.Dialogue
