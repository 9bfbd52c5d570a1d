import Mathlib.Data.List.Forall2
import MapReplica.Proofs.Dialogue.Runs
import MapReplica.Update.Manager

/-!
# Work as a dialogue

A task is a dialogue that ends with an outcome; an activity that starts from a state is
one that ends with an outcome and a state. Each way to put work together has one
equation for this dialogue, so that nothing else has to open the layers below. A task
that ends well has ended well in all of its parts.
-/

namespace MapReplica

open Dialogue

/-- An inquiry with its answer. -/
def Inquiry.answered (inquiry : Inquiry) (answer : inquiry.Answer) : Exchange collaborators :=
  ⟨inquiry, answer⟩

variable {σ α β : Type}

/-- Outcomes in sequence are a value only if both are. -/
theorem exists_of_bind_ok {ε : Type} {first : Except ε α} {rest : α → Except ε β} {result : β}
    (ok : first >>= rest = .ok result) : ∃ value, first = .ok value ∧ rest value = .ok result := by
  cases first with
  | error failure => cases ok
  | ok value => exact ⟨value, rfl, ok⟩

namespace Task

/-! ## Tasks that end well -/

variable {exchanges : List (Exchange collaborators)}

theorem ends_pure_ok_iff {value result : α} :
    Ends (pure value : Task α).run exchanges (.ok result) ↔ exchanges = [] ∧ result = value := by
  simp [ExceptT.run_pure, ends_done_iff]

theorem ends_throw_ok_iff {failure : Failure} {result : α} :
    Ends (throw failure : Task α).run exchanges (.ok result) ↔ False := by
  constructor
  · intro ends
    obtain ⟨_, impossible⟩ := ends_done_iff.mp (show Ends (.done _) _ _ from ends)
    cases impossible
  · exact False.elim

theorem ends_ofExcept_ok_iff {outcome : Except Failure α} {result : α} :
    Ends (ofExcept outcome).run exchanges (.ok result) ↔ exchanges = [] ∧ outcome = .ok result := by
  rw [eq_comm (a := outcome)]
  exact ends_done_iff

/-- Tasks in sequence end with the failure of the first, or as the second ends. -/
theorem ends_bind_iff {first : Task α} {rest : α → Task β} {outcome : Except Failure β} :
    Ends (first >>= rest).run exchanges outcome ↔
      (∃ failure, outcome = .error failure ∧ Ends first.run exchanges (.error failure)) ∨
      ∃ front value back, exchanges = front ++ back ∧ Ends first.run front (.ok value) ∧
        Ends (rest value).run back outcome := by
  rw [ExceptT.run_bind, Dialogue.ends_bind_iff]
  constructor
  · rintro ⟨front, reached, back, rfl, hfront, hback⟩
    cases reached with
    | ok value => exact .inr ⟨front, value, back, rfl, hfront, hback⟩
    | error failure =>
        cases hback
        rw [List.append_nil]
        exact .inl ⟨failure, rfl, hfront⟩
  · rintro (⟨failure, rfl, ends⟩ | ⟨front, value, back, rfl, hfront, hback⟩)
    · exact ⟨exchanges, .error failure, [], (List.append_nil _).symm, ends, .done _⟩
    · exact ⟨front, .ok value, back, rfl, hfront, hback⟩

theorem ends_bind_ok_iff {first : Task α} {rest : α → Task β} {result : β} :
    Ends (first >>= rest).run exchanges (.ok result) ↔
      ∃ front value back, exchanges = front ++ back ∧ Ends first.run front (.ok value) ∧
        Ends (rest value).run back (.ok result) := by
  rw [ends_bind_iff]
  constructor
  · rintro (⟨_, ⟨⟩, _⟩ | both)
    exact both
  · exact .inr

/-- Tasks that end well end well in sequence. -/
theorem ends_bind_ok {first : Task α} {rest : α → Task β} {value : α} {result : β}
    {front back : List (Exchange collaborators)} (hfirst : Ends first.run front (.ok value))
    (hrest : Ends (rest value).run back (.ok result)) :
    Ends (first >>= rest).run (front ++ back) (.ok result) :=
  ends_bind_ok_iff.mpr ⟨front, value, back, rfl, hfirst, hrest⟩

/-- An inquiry whose answer is an outcome ends well whatever the answer is. -/
theorem ends_lift_ask_iff {inquiry : Inquiry} {answer : inquiry.Answer} :
    Ends (ExceptT.lift (ask inquiry) : Task inquiry.Answer).run exchanges (.ok answer) ↔
      exchanges = [inquiry.answered answer] := by
  refine Iff.trans (b := ∃ given : inquiry.Answer, _) ends_answer_iff ?_
  constructor
  · rintro ⟨given, rfl, same⟩
    cases same
    rfl
  · rintro rfl
    exact ⟨answer, rfl, rfl⟩

/-- Work on all items of a list ends well if it ends well on each, one after the other. -/
theorem ends_forEach_ok_iff {items : List α} {work : α → Task Unit} :
    Ends (forEach items work).run exchanges (.ok ()) ↔
      ∃ parts, exchanges = parts.flatten ∧
        List.Forall₂ (fun item part => Ends (work item).run part (.ok ())) items parts := by
  induction items generalizing exchanges with
  | nil =>
      rw [forEach, ends_pure_ok_iff]
      constructor
      · rintro ⟨rfl, -⟩
        exact ⟨[], rfl, .nil⟩
      · rintro ⟨parts, rfl, all⟩
        cases all
        exact ⟨rfl, rfl⟩
  | cons item rest ih =>
      rw [forEach, ends_bind_ok_iff]
      constructor
      · rintro ⟨front, _, back, rfl, hfront, hback⟩
        obtain ⟨parts, rfl, all⟩ := ih.mp hback
        exact ⟨front :: parts, rfl, .cons hfront all⟩
      · rintro ⟨parts, rfl, all⟩
        cases all with
        | cons first later => exact ⟨_, (), _, rfl, first, ih.mpr ⟨_, rfl, later⟩⟩

/-- A task whose value is made into another one. -/
theorem run_bind_pure {task : Task α} {make : α → β} :
    (task >>= fun value => pure (make value)).run =
      task.run >>= fun outcome => .done (outcome.map make) := by
  rw [ExceptT.run_bind]
  refine congrArg _ (funext fun outcome => ?_)
  cases outcome with
  | error failure => rfl
  | ok value => rfl

/-! ## Questions of tasks -/

variable {permitted : Inquiry → Prop}

theorem asks_bind {first : Task α} {rest : α → Task β} (hfirst : first.run.Asks permitted)
    (hrest : ∀ value, (rest value).run.Asks permitted) : (first >>= rest).run.Asks permitted := by
  rw [ExceptT.run_bind]
  refine Asks.bind hfirst fun outcome => ?_
  cases outcome with
  | ok value => exact hrest value
  | error failure => trivial

theorem asks_first {first : Task α} {rest : α → Task β}
    (asks : (first >>= rest).run.Asks permitted) : first.run.Asks permitted :=
  (Dialogue.asks_bind_iff.mp asks).1

/-- The rest of work asks only what the whole may ask, once its first part has ended well. -/
theorem asks_rest {first : Task α} {rest : α → Task β}
    {exchanges : List (Exchange collaborators)} {value : α}
    (asks : (first >>= rest).run.Asks permitted) (ends : Ends first.run exchanges (.ok value)) :
    (rest value).run.Asks permitted :=
  (Dialogue.asks_bind_iff.mp asks).2 exchanges (.ok value) ends

theorem asks_ofExcept_bind {outcome : Except Failure α} {rest : α → Task β}
    (hrest : ∀ value, outcome = .ok value → (rest value).run.Asks permitted) :
    (ofExcept outcome >>= rest).run.Asks permitted := by
  cases outcome with
  | ok value => exact hrest value rfl
  | error failure => trivial

theorem asks_forEach {items : List α} {work : α → Task Unit}
    (each : ∀ item ∈ items, (work item).run.Asks permitted) :
    (forEach items work).run.Asks permitted := by
  induction items with
  | nil => trivial
  | cons item rest ih =>
      rw [forEach]
      exact asks_bind (each item (List.mem_cons_self ..)) fun _ =>
        ih fun later h => each later (List.mem_cons_of_mem _ h)

/-! ## Tasks that keep to a rule -/

variable {world : Surroundings collaborators σ} {allows : σ → Inquiry → Prop} {state : σ}

theorem keeps_pure {value : α} {wanted : Except Failure α → σ → Prop} :
    (pure value : Task α).run.Keeps world allows wanted state ↔ wanted (.ok value) state := Iff.rfl

theorem keeps_throw {failure : Failure} {wanted : Except Failure α → σ → Prop} :
    (throw failure : Task α).run.Keeps world allows wanted state ↔ wanted (.error failure) state :=
  Iff.rfl

/-- The rule of sequence for tasks: a failure of the first is the failure of both. -/
theorem keeps_bind {first : Task α} {rest : α → Task β} {middle : Except Failure α → σ → Prop}
    {wanted : Except Failure β → σ → Prop}
    (hfirst : first.run.Keeps world allows middle state)
    (hrest : ∀ value after, middle (.ok value) after →
      (rest value).run.Keeps world allows wanted after)
    (hfailure : ∀ failure after, middle (.error failure) after → wanted (.error failure) after) :
    (first >>= rest).run.Keeps world allows wanted state := by
  rw [ExceptT.run_bind]
  refine hfirst.bind fun outcome after reached => ?_
  cases outcome with
  | ok value => exact hrest value after reached
  | error failure => exact hfailure failure after reached

/-- The rule of sequence for what is wanted only of work that ends well. -/
theorem keeps_bind_ok {first : Task α} {rest : α → Task β} {middle : α → σ → Prop}
    {wanted : β → σ → Prop}
    (hfirst : first.run.Keeps world allows
      (fun outcome after => ∀ value, outcome = .ok value → middle value after) state)
    (hrest : ∀ value after, middle value after → (rest value).run.Keeps world allows
      (fun outcome last => ∀ result, outcome = .ok result → wanted result last) after) :
    (first >>= rest).run.Keeps world allows
      (fun outcome last => ∀ result, outcome = .ok result → wanted result last) state := by
  apply keeps_bind hfirst
  · intro value after reached
    exact hrest value after (reached value rfl)
  · intro failure after _ result impossible
    cases impossible

theorem keeps_ofExcept_bind {outcome : Except Failure α} {rest : α → Task β}
    {wanted : Except Failure β → σ → Prop}
    (hrest : ∀ value, outcome = .ok value → (rest value).run.Keeps world allows wanted state)
    (hfailure : ∀ failure, wanted (.error failure) state) :
    (ofExcept outcome >>= rest).run.Keeps world allows wanted state := by
  cases outcome with
  | ok value => exact hrest value rfl
  | error failure => exact hfailure failure

/-- Work on a list keeps what holds of the items that are done, or fails with what holds then. -/
theorem keeps_forEach {items : List α} {work : α → Task Unit} {holds : List α → σ → Prop}
    {failed : σ → Prop} (start : holds [] state)
    (each : ∀ done item rest, items = done ++ item :: rest → ∀ state, holds done state →
      (work item).run.Keeps world allows
        (fun outcome after => (outcome = .ok () → holds (done ++ [item]) after) ∧
          (outcome.toBool = false → failed after)) state) :
    (forEach items work).run.Keeps world allows
      (fun outcome after => (outcome = .ok () → holds items after) ∧
        (outcome.toBool = false → failed after)) state := by
  have rest : ∀ rest done state, items = done ++ rest → holds done state →
      (forEach rest work).run.Keeps world allows
        (fun outcome after => (outcome = .ok () → holds items after) ∧
          (outcome.toBool = false → failed after)) state := by
    intro rest
    induction rest with
    | nil =>
        intro done state split holding
        refine keeps_pure.mpr ⟨fun _ => ?_, fun impossible => by cases impossible⟩
        rw [split, List.append_nil]
        exact holding
    | cons item rest ih =>
        intro done state split holding
        refine keeps_bind (each done item rest split state holding) ?_ ?_
        · intro _ after reached
          exact ih (done ++ [item]) after (by simp [split]) (reached.1 rfl)
        · intro failure after reached
          exact ⟨fun impossible => (by cases impossible), fun _ => reached.2 rfl⟩
  exact rest items [] state rfl start

end Task

namespace Activity

/-! ## Activities from a state -/

/--
An activity that starts from a state, as a dialogue that ends with its outcome and the
state then.
-/
def starting (activity : Activity σ α) (state : σ) :
    Dialogue collaborators (Except Failure α × σ) :=
  activity.run.run state

variable {state : σ}

theorem starting_bind {activity : Activity σ α} {rest : α → Activity σ β} :
    (activity >>= rest).starting state =
      activity.starting state >>= fun result =>
        match result with
        | (.ok value, after) => (rest value).starting after
        | (.error failure, after) => .done (.error failure, after) := by
  simp only [starting, ExceptT.run_bind, StateT.run_bind]
  refine congrArg _ (funext fun result => ?_)
  obtain ⟨outcome, after⟩ := result
  cases outcome <;> rfl

@[simp]
theorem starting_pure {value : α} :
    (pure value : Activity σ α).starting state = .done (.ok value, state) := rfl

@[simp]
theorem starting_get : (get : Activity σ σ).starting state = .done (.ok state, state) := rfl

/-- What looks at the state goes on with the state. -/
theorem starting_get_bind {rest : σ → Activity σ β} :
    ((get >>= rest : Activity σ β).starting state) = (rest state).starting state := by
  rw [starting_bind]
  rfl

@[simp]
theorem starting_ofExcept {outcome : Except Failure α} :
    (ofExcept outcome : Activity σ α).starting state = .done (outcome, state) := rfl

@[simp]
theorem starting_attempt {activity : Activity σ α} :
    activity.attempt.starting state =
      activity.starting state >>= fun result => .done (.ok result.1, result.2) := rfl

@[simp]
theorem starting_task {task : Task α} :
    (liftM task : Activity σ α).starting state =
      task.run >>= fun outcome => .done (outcome, state) := rfl

@[simp]
theorem starting_taskAttempt {task : Task α} :
    (Task.attempt task : Activity σ (Except Failure α)).starting state =
      task.run >>= fun outcome => .done (.ok outcome, state) := by
  change (task.run >>= fun outcome => pure (outcome, state)) >>= _ = _
  rw [bind_assoc]
  rfl

open Update in
@[simp]
theorem starting_onProgress {activity : Activity Progress α} {manager : Manager} :
    (onProgress activity).starting manager =
      activity.starting manager.progress >>= fun result =>
        .done (result.1, { manager with progress := result.2 }) := by
  simp [starting, onProgress]
  rfl

open Update in
@[simp]
theorem starting_onResources {activity : Activity Resource.Cache α} {manager : Manager} :
    (onResources activity).starting manager =
      activity.starting manager.resources >>= fun result =>
        .done (result.1, { manager with resources := result.2 }) := by
  simp [starting, onResources]
  rfl

/-- The rest of an activity matters only after complete runs of its first part that end well. -/
theorem asks_bind_of_ends {permitted : Inquiry → Prop} {activity : Activity σ α}
    {rest : α → Activity σ β} (hfirst : (activity.starting state).Asks permitted)
    (hrest : ∀ exchanges value after, Ends (activity.starting state) exchanges (.ok value, after) →
      ((rest value).starting after).Asks permitted) :
    ((activity >>= rest).starting state).Asks permitted := by
  rw [starting_bind]
  refine Dialogue.asks_bind_iff.mpr ⟨hfirst, ?_⟩
  rintro exchanges ⟨outcome, after⟩ ends
  cases outcome with
  | ok value => exact hrest exchanges value after ends
  | error failure => trivial

theorem asks_bind {permitted : Inquiry → Prop} {activity : Activity σ α} {rest : α → Activity σ β}
    (hfirst : (activity.starting state).Asks permitted)
    (hrest : ∀ value after, ((rest value).starting after).Asks permitted) :
    ((activity >>= rest).starting state).Asks permitted :=
  asks_bind_of_ends hfirst fun _ value after _ => hrest value after

theorem asks_first {permitted : Inquiry → Prop} {activity : Activity σ α}
    {rest : α → Activity σ β} (asks : ((activity >>= rest).starting state).Asks permitted) :
    (activity.starting state).Asks permitted := by
  rw [starting_bind] at asks
  exact (Dialogue.asks_bind_iff.mp asks).1

/-- The rest of an activity asks only what the whole may ask, once its first part has ended well. -/
theorem asks_rest {permitted : Inquiry → Prop} {activity : Activity σ α}
    {rest : α → Activity σ β} {exchanges : List (Exchange collaborators)} {value : α} {after : σ}
    (asks : ((activity >>= rest).starting state).Asks permitted)
    (ends : Ends (activity.starting state) exchanges (.ok value, after)) :
    ((rest value).starting after).Asks permitted := by
  rw [starting_bind] at asks
  exact (Dialogue.asks_bind_iff.mp asks).2 exchanges (.ok value, after) ends

theorem asks_task {permitted : Inquiry → Prop} {task : Task α} (asks : task.run.Asks permitted) :
    ((liftM task : Activity σ α).starting state).Asks permitted := by
  rw [starting_task]
  exact Asks.bind asks fun _ => trivial

/-- The rule of sequence for activities: a failure of the first is the failure of both. -/
theorem keeps_bind {γ : Type} {world : Surroundings collaborators γ} {allows : γ → Inquiry → Prop}
    {ground : γ} {activity : Activity σ α} {rest : α → Activity σ β}
    {middle : Except Failure α × σ → γ → Prop} {wanted : Except Failure β × σ → γ → Prop}
    (hfirst : (activity.starting state).Keeps world allows middle ground)
    (hrest : ∀ value after now, middle (.ok value, after) now →
      ((rest value).starting after).Keeps world allows wanted now)
    (hfailure : ∀ failure after now, middle (.error failure, after) now →
      wanted (.error failure, after) now) :
    ((activity >>= rest).starting state).Keeps world allows wanted ground := by
  rw [starting_bind]
  refine hfirst.bind ?_
  rintro ⟨outcome, after⟩ now reached
  cases outcome with
  | ok value => exact hrest value after now reached
  | error failure => exact hfailure failure after now reached

/-! ## Activities that end well -/

variable {exchanges : List (Exchange collaborators)}

/--
An activity put together from two ends well if both do, the second from the state of the
first.
-/
theorem ends_bind_ok_iff {activity : Activity σ α} {rest : α → Activity σ β} {result : β}
    {last : σ} :
    Ends ((activity >>= rest).starting state) exchanges (.ok result, last) ↔
      ∃ front value middle back, exchanges = front ++ back ∧
        Ends (activity.starting state) front (.ok value, middle) ∧
        Ends ((rest value).starting middle) back (.ok result, last) := by
  rw [starting_bind, ends_bind_iff]
  constructor
  · rintro ⟨front, ⟨outcome, middle⟩, back, rfl, hfront, hback⟩
    cases outcome with
    | ok value => exact ⟨front, value, middle, back, rfl, hfront, hback⟩
    | error failure =>
        obtain ⟨_, impossible⟩ := ends_done_iff.mp hback
        cases impossible
  · rintro ⟨front, value, middle, back, rfl, hfront, hback⟩
    exact ⟨front, (.ok value, middle), back, rfl, hfront, hback⟩

/-- An activity put together from two ends with the failure of the first, or as the second ends. -/
theorem of_ends_bind {activity : Activity σ α} {rest : α → Activity σ β}
    {outcome : Except Failure β} {last : σ}
    (ends : Ends ((activity >>= rest).starting state) exchanges (outcome, last)) :
    (∃ failure, outcome = .error failure ∧
      Ends (activity.starting state) exchanges (.error failure, last)) ∨
    ∃ front value middle back, exchanges = front ++ back ∧
      Ends (activity.starting state) front (.ok value, middle) ∧
      Ends ((rest value).starting middle) back (outcome, last) := by
  rw [starting_bind] at ends
  obtain ⟨front, ⟨first, middle⟩, back, rfl, hfront, hback⟩ := ends_bind_iff.mp ends
  cases first with
  | ok value => exact .inr ⟨front, value, middle, back, rfl, hfront, hback⟩
  | error failure =>
      cases hback
      rw [List.append_nil]
      exact .inl ⟨failure, rfl, hfront⟩

/-- A task within an activity leaves its state as it is. -/
theorem ends_task_ok_iff {task : Task α} {result : α} {last : σ} :
    Ends ((liftM task : Activity σ α).starting state) exchanges (.ok result, last) ↔
      last = state ∧ Ends task.run exchanges (.ok result) := by
  rw [starting_task, ends_make_iff]
  constructor
  · rintro ⟨outcome, ends, same⟩
    cases same
    exact ⟨rfl, ends⟩
  · rintro ⟨rfl, ends⟩
    exact ⟨.ok result, ends, rfl⟩

end Activity

end MapReplica
