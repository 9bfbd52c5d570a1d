import Mathlib.Data.List.Nodup
import Mathlib.Data.Set.List
import Mathlib.Logic.Function.Basic
import MapReplica.Proofs.Dialogue.Joins

/-!
# Weaving dialogues

Dialogues that go on at the same time can be woven into one, which asks a question of one
of them after the other. Every way to weave them makes joined runs, and every joined run is
one of some way to weave them; to hold them in order is one way.

What is woven keeps to a rule if every part keeps to it while the others go on. For this
each part says what it relies on, and leaves alone what the others rely on.
-/

namespace MapReplica.Dialogue

variable {P : Protocol} {ε α ι σ : Type}

/--
Dialogues that go on at the same time, as one. At any time one that has not ended asks its
next question, depending on all answers so far. A failure may be noticed as soon as it is
there, or later, so that others may have gone on by then. A question whose answer is not
waited for any more counts as one that was answered before, or as one that was not asked.
-/
inductive Woven : List (Dialogue P (Except ε α)) → Dialogue P (Except ε (List α)) → Prop where
  | asked {front back : List (Dialogue P (Except ε α))} {question : P.Question}
      {next : P.Answer question → Dialogue P (Except ε α)}
      {whole : P.Answer question → Dialogue P (Except ε (List α))}
      (rest : ∀ answer, Woven (front ++ next answer :: back) (whole answer)) :
      Woven (front ++ ask question next :: back) (ask question whole)
  | failed {threads : List (Dialogue P (Except ε α))} {failure : ε}
      (member : done (.error failure) ∈ threads) : Woven threads (done (.error failure))
  | ended (values : List α) :
      Woven (values.map fun value => done (.ok value)) (done (.ok values))

variable {threads front back : List (Dialogue P (Except ε α))}
variable {whole : Dialogue P (Except ε (List α))}

/-! ## In order -/

/-- Dialogues one after the other, up to the first failure. -/
def inOrder : List (Dialogue P (Except ε α)) → Dialogue P (Except ε (List α))
  | [] => done (.ok [])
  | first :: rest => first >>= fun
      | .error failure => done (.error failure)
      | .ok value => inOrder rest >>= fun later => done (later.map (value :: ·))

/-- Some have ended well, and the others are held in order. -/
theorem woven_done_append_inOrder (threads : List (Dialogue P (Except ε α))) (values : List α) :
    Woven (values.map (fun value => done (.ok value)) ++ threads)
      (inOrder threads >>= fun later => done (later.map (values ++ ·))) := by
  induction threads generalizing values with
  | nil => simpa [inOrder, Except.map] using Woven.ended (P := P) (ε := ε) values
  | cons first rest ih =>
      simp only [inOrder, bind_assoc]
      induction first with
      | done outcome =>
          cases outcome with
          | error failure => exact .failed (List.mem_append_right _ List.mem_cons_self)
          | ok value =>
              have one := ih (values ++ [value])
              simp only [List.map_append, List.map_cons, List.map_nil, List.append_assoc,
                List.singleton_append] at one
              simp only [done_bind, bind_assoc]
              convert one using 4 with later
              cases later with
              | error failure => rfl
              | ok others => rfl
      | ask question next each => exact .asked each

theorem bind_done_map_nil_append (dialogue : Dialogue P (Except ε (List α))) :
    (dialogue >>= fun later => done (later.map ([] ++ ·))) = dialogue := by
  have same : (fun later : Except ε (List α) => done (P := P) (later.map ([] ++ ·))) = done := by
    funext later
    cases later with
    | error failure => rfl
    | ok values => rfl
  rw [same, bind_done]

/-- To hold dialogues in order is one way to weave them. -/
theorem woven_inOrder (threads : List (Dialogue P (Except ε α))) :
    Woven threads (inOrder threads) := by
  have woven := woven_done_append_inOrder threads []
  rwa [List.map_nil, List.nil_append, bind_done_map_nil_append] at woven

/-- Dialogues one after the other, all of them to their ends, and then the first failure. -/
def toTheEnd : List (Dialogue P (Except ε α)) → Dialogue P (Except ε (List α))
  | [] => done (.ok [])
  | first :: rest => first >>= fun outcome =>
      toTheEnd rest >>= fun later => done (outcome >>= fun value => later.map (value :: ·))

/-- One has failed, and the others go on to their ends. -/
theorem woven_append_toTheEnd_of_failed (threads : List (Dialogue P (Except ε α))) {failure : ε}
    {begun : List (Dialogue P (Except ε α))} (member : done (.error failure) ∈ begun) :
    Woven (begun ++ threads) (toTheEnd threads >>= fun _ => done (.error failure)) := by
  induction threads generalizing begun with
  | nil => exact .failed (List.mem_append_left _ member)
  | cons first rest ih =>
      simp only [toTheEnd, bind_assoc, done_bind]
      induction first with
      | done outcome =>
          rw [List.append_cons]
          exact ih (List.mem_append_left _ member)
      | ask question next each => exact .asked each

/-- Some have ended well, and the others go on to their ends. -/
theorem woven_done_append_toTheEnd (threads : List (Dialogue P (Except ε α))) (values : List α) :
    Woven (values.map (fun value => done (.ok value)) ++ threads)
      (toTheEnd threads >>= fun later => done (later.map (values ++ ·))) := by
  induction threads generalizing values with
  | nil => simpa [toTheEnd, Except.map] using Woven.ended (P := P) (ε := ε) values
  | cons first rest ih =>
      simp only [toTheEnd, bind_assoc, done_bind]
      induction first with
      | done outcome =>
          cases outcome with
          | error failure =>
              rw [List.append_cons]
              exact woven_append_toTheEnd_of_failed rest
                (List.mem_append_right _ List.mem_cons_self)
          | ok value =>
              have one := ih (values ++ [value])
              simp only [List.map_append, List.map_cons, List.map_nil, List.append_assoc,
                List.singleton_append] at one
              simp only [done_bind]
              convert one using 4 with later
              cases later with
              | error failure => rfl
              | ok others => rfl
      | ask question next each => exact .asked each

/-- To hold dialogues to their ends in order, whatever fails, is one way to weave them. -/
theorem woven_toTheEnd (threads : List (Dialogue P (Except ε α))) :
    Woven threads (toTheEnd threads) := by
  have woven := woven_done_append_toTheEnd threads []
  rwa [List.map_nil, List.nil_append, bind_done_map_nil_append] at woven

/-! ## In another order -/

/--
Dialogues in another order are woven alike: the same is asked, and they end with the same
failure or end well.
-/
theorem Woven.exists_of_perm (woven : Woven threads whole)
    {others : List (Dialogue P (Except ε α))} (perm : threads.Perm others) :
    ∃ other, Woven others other ∧
      (other >>= fun outcome => done (outcome.map fun _ => ())) =
        whole >>= fun outcome => done (outcome.map fun _ => ()) := by
  induction woven generalizing others with
  | @asked front back question next whole _ ih =>
      obtain ⟨before, behind, rfl⟩ :=
        List.append_of_mem (perm.subset (List.mem_append_right _ List.mem_cons_self))
      have around : (front ++ back).Perm (before ++ behind) :=
        ((List.perm_middle.symm.trans perm).trans List.perm_middle).cons_inv
      choose ways woven same using fun answer =>
        ih answer ((List.perm_middle.trans (around.cons (next answer))).trans List.perm_middle.symm)
      refine ⟨ask question ways, .asked woven, ?_⟩
      rw [ask_bind, ask_bind]
      exact congrArg (ask question) (funext same)
  | failed member => exact ⟨_, .failed (perm.subset member), rfl⟩
  | ended values =>
      have ended : ∀ thread ∈ others, thread ∈ Set.range fun value => done (.ok value) := by
        intro thread member
        obtain ⟨value, _, rfl⟩ := List.mem_map.mp (perm.mem_iff.mpr member)
        exact ⟨value, rfl⟩
      obtain ⟨values, rfl⟩ := (Set.range_list_map _).symm.subset ended
      exact ⟨_, .ended values, rfl⟩

/-! ## Joined runs -/

/-- What was begun goes on in any order, whether all were begun first or not. -/
theorem Joined.exists_of_begun {begun waiting : List (Dialogue P (Except ε α))}
    {events : List (Event P)} {outcome : Except ε (List α)}
    (joined : Joined (begun ++ waiting) [] events outcome) :
    ∃ all, Joined begun waiting all outcome ∧ answers all = answers events := by
  induction waiting generalizing begun with
  | nil =>
      rw [List.append_nil] at joined
      exact ⟨events, joined, rfl⟩
  | cons first rest ih =>
      rw [List.append_cons] at joined
      obtain ⟨all, joined, same⟩ := ih joined
      exact ⟨_, .start joined, (answers_opening_append first all).trans same⟩

/-- A complete run of what is woven is a joined run. -/
theorem Woven.exists_joined (woven : Woven threads whole) {said : List (Exchange P)}
    {outcome : Except ε (List α)} (ends : Ends whole said outcome) :
    ∃ events, Joined threads [] events outcome ∧ answers events = said := by
  induction woven generalizing said with
  | asked _ ih =>
      obtain ⟨answer, later, rfl, rest⟩ := ends_ask_iff.mp ends
      obtain ⟨events, joined, rfl⟩ := ih answer rest
      refine ⟨_, joined.answer answer, ?_⟩
      rw [answers_cons_answered, answers_opening_append]
  | failed member =>
      obtain ⟨rfl, rfl⟩ := ends_done_iff.mp ends
      exact ⟨[], .failed member, rfl⟩
  | ended values =>
      obtain ⟨rfl, rfl⟩ := ends_done_iff.mp ends
      exact ⟨[], .ended values, rfl⟩

/-- What is given at one point, and can be chosen at all others, can be chosen everywhere. -/
theorem exists_choice_of_point {κ : Sort*} {β : κ → Sort*} (fits : ∀ point, β point → Prop)
    (point : κ) (value : β point) (given : fits point value)
    (any : ∀ other, ∃ value, fits other value) :
    ∃ choice : ∀ other, β other, choice point = value ∧ ∀ other, fits other (choice other) := by
  classical
  choose others fit using any
  refine ⟨Function.update others point value, Function.update_self .., ?_⟩
  exact (Function.forall_update_iff others fun other value => fits other value).mpr
    ⟨given, fun other _ => fit other⟩

/-- A joined run is a complete run of some way to weave its dialogues. -/
theorem Joined.exists_woven {begun waiting : List (Dialogue P (Except ε α))}
    {events : List (Event P)} {outcome : Except ε (List α)}
    (joined : Joined begun waiting events outcome) :
    ∃ whole, Woven (begun ++ waiting) whole ∧ Ends whole (answers events) outcome := by
  induction joined with
  | start _ ih =>
      rw [answers_opening_append, List.append_cons]
      exact ih
  | @answer front back waiting question next events outcome answer _ ih =>
      obtain ⟨whole, woven, ends⟩ := ih
      rw [answers_cons_answered, answers_opening_append]
      -- After any other answer, which is not that of the run, the rest goes on in order.
      obtain ⟨ways, same, each⟩ := exists_choice_of_point
        (fun other => Woven (front ++ next other :: back ++ waiting)) answer whole woven
        fun _ => ⟨_, woven_inOrder _⟩
      simp only [List.append_assoc, List.cons_append] at each ⊢
      exact ⟨_, .asked each, .ask (same ▸ ends)⟩
  | failed member => exact ⟨_, .failed (List.mem_append_left _ member), .done _⟩
  | ended values =>
      rw [List.append_nil]
      exact ⟨_, .ended values, .done _⟩

/-- The joined runs of dialogues are the complete runs of all ways to weave them. -/
theorem exists_joined_iff_woven {said : List (Exchange P)} {outcome : Except ε (List α)} :
    (∃ events, Joined [] threads events outcome ∧ answers events = said) ↔
      ∃ whole, Woven threads whole ∧ Ends whole said outcome := by
  constructor
  · rintro ⟨events, joined, rfl⟩
    exact joined.exists_woven
  · rintro ⟨whole, woven, ends⟩
    obtain ⟨events, joined, rfl⟩ := woven.exists_joined ends
    have all : Joined ([] ++ threads) [] events outcome := joined
    exact all.exists_of_begun

/-! ## What is asked -/

/-- What is woven asks what its parts ask. -/
theorem Woven.asks {permitted : P.Question → Prop} (woven : Woven threads whole)
    (each : ∀ thread ∈ threads, thread.Asks permitted) : whole.Asks permitted := by
  induction woven with
  | asked _ ih =>
      have own := each _ (List.mem_append_right _ List.mem_cons_self)
      refine ⟨own.1, fun answer => ih answer fun thread member => ?_⟩
      rcases List.mem_append.mp member with before | here
      · exact each thread (List.mem_append_left _ before)
      rcases List.mem_cons.mp here with rfl | after
      · exact own.2 answer
      · exact each thread (List.mem_append_right _ (List.mem_cons_of_mem _ after))
  | failed _ => trivial
  | ended _ => trivial

/-! ## Parts that leave one another alone -/

/-- Surroundings in which something else may happen before and after every answer. -/
def disturbed (world : Surroundings P σ) (moves : σ → σ → Prop) : Surroundings P σ :=
  fun before question answer after => ∃ asked answered, moves before asked ∧
    world asked question answer answered ∧ moves answered after

/--
Members whose dialogues go on at the same time: what each of them may ask, what each relies
on while the others go on, and what holds at any time. What one may ask changes nothing that
another one relies on.
-/
structure Neighbours (world : Surroundings P σ) (ι : Type) where
  permitted : ι → P.Question → Prop
  relies : ι → σ → σ → Prop
  holds : σ → Prop
  refl : ∀ {member state}, relies member state state
  trans : ∀ {member first second third}, relies member first second →
    relies member second third → relies member first third
  still : ∀ {member question answer before after}, permitted member question → holds before →
    world before question answer after → holds after
  spares : ∀ {member other question answer before after}, permitted member question →
    holds before → world before question answer after → other ≠ member →
      relies other before after

namespace Neighbours

variable {world : Surroundings P σ} {allows : σ → P.Question → Prop} {state after : σ}
variable (neighbours : Neighbours world ι)

/-- A dialogue of a member keeps to a rule, and ends as wanted, while the others go on. -/
def Keeps (allows : σ → P.Question → Prop) (member : ι) (wanted : α → σ → Prop)
    (dialogue : Dialogue P α) (state : σ) : Prop :=
  dialogue.Keeps (disturbed world (neighbours.relies member))
    (fun before question => neighbours.permitted member question ∧
      ∀ after, neighbours.relies member before after → allows after question)
    (fun value before => ∀ after, neighbours.relies member before after → wanted value after)
    state

/-- Members that may ask the same, and rely on the same, as every question leaves it. -/
def alike (permitted : P.Question → Prop) (moves : σ → σ → Prop) (refl : ∀ state, moves state state)
    (trans : ∀ first second third, moves first second → moves second third → moves first third)
    (step : ∀ question answer before after, permitted question →
      world before question answer after → moves before after)
    (start : σ) : Neighbours world ι where
  permitted _ := permitted
  relies _ := moves
  holds := moves start
  refl := refl _
  trans := trans _ _ _
  still asked held answered := trans _ _ _ held (step _ _ _ _ asked answered)
  spares asked _ answered _ := step _ _ _ _ asked answered

variable {neighbours} {member : ι} {dialogue : Dialogue P α} {wanted : α → σ → Prop}

/-- What the others do while a member waits for nothing makes no difference to it. -/
theorem Keeps.moved (keeps : neighbours.Keeps allows member wanted dialogue state)
    (moved : neighbours.relies member state after) :
    neighbours.Keeps allows member wanted dialogue after := by
  cases dialogue with
  | done value => exact fun last later => keeps last (neighbours.trans moved later)
  | ask question next =>
      refine ⟨⟨keeps.1.1, fun last later => keeps.1.2 last (neighbours.trans moved later)⟩, ?_⟩
      rintro answer last ⟨asked, answered, before, step, later⟩
      exact keeps.2 answer last ⟨asked, answered, neighbours.trans moved before, step, later⟩

/-- The answer to a member's own question. -/
theorem Keeps.answered {question : P.Question} {next : P.Answer question → Dialogue P α}
    (keeps : neighbours.Keeps allows member wanted (ask question next) state)
    {answer : P.Answer question} (step : world state question answer after) :
    neighbours.Keeps allows member wanted (next answer) after :=
  keeps.2 answer after ⟨state, after, neighbours.refl, step, neighbours.refl⟩

/-- What the members come to together: the failure of one of them, or the values of all. -/
inductive Together (wanted : ι → Except ε α → σ → Prop) (members : List ι) (state : σ) :
    Except ε (List α) → Prop where
  | failed {member : ι} {failure : ε} (among : member ∈ members)
      (own : wanted member (.error failure) state) : Together wanted members state (.error failure)
  | ended {values : List α}
      (each : List.Forall₂ (fun member value => wanted member (.ok value) state) members values) :
      Together wanted members state (.ok values)

/--
Members that keep to a rule while the others go on keep to it together, however their
dialogues are woven.
-/
theorem keeps_of_woven {wanted : ι → Except ε α → σ → Prop} (woven : Woven threads whole)
    {members : List ι} (distinct : members.Nodup)
    (each : List.Forall₂ (fun member thread =>
      neighbours.Keeps allows member (wanted member) thread state) members threads)
    (start : neighbours.holds state) :
    whole.Keeps world allows
      (fun outcome now => neighbours.holds now ∧ Together wanted members now outcome) state := by
  induction woven generalizing state with
  | asked _ ih =>
      obtain ⟨before, member, behind, rfl, early, own, late⟩ := exists_amid_of_forall₂ each.flip
      refine ⟨own.1.2 state neighbours.refl, fun answer now step => ?_⟩
      have others := (List.nodup_cons.mp (List.nodup_middle.mp distinct)).1
      -- The member whose question was answered goes on, the others see nothing of it.
      have waits : ∀ {members : List ι} {threads}, members ⊆ before ++ behind →
          List.Forall₂ (fun other thread =>
            neighbours.Keeps allows other (wanted other) thread state) members threads →
          List.Forall₂ (fun other thread =>
            neighbours.Keeps allows other (wanted other) thread now) members threads := by
        intro members threads among each
        have distinct : ∀ other ∈ members, other ≠ member := by
          rintro _ here rfl
          exact others (among here)
        refine (List.forall₂_and_left _ _ |>.mpr ⟨distinct, each⟩).imp fun other thread both => ?_
        exact both.2.moved (neighbours.spares own.1.1 start step both.1)
      exact ih answer (List.rel_append (waits (List.subset_append_left ..) early.flip)
        (.cons (Keeps.answered own step) (waits (List.subset_append_right ..) late.flip)))
        (neighbours.still own.1.1 start step)
  | failed member =>
      obtain ⟨front, back, rfl⟩ := List.append_of_mem member
      obtain ⟨before, other, behind, rfl, -, keeps, -⟩ := exists_amid_of_forall₂ each.flip
      exact ⟨start, .failed (List.mem_append_right _ List.mem_cons_self)
        (keeps state neighbours.refl)⟩
  | ended values =>
      rw [List.forall₂_map_right_iff] at each
      exact ⟨start, .ended (each.imp fun _ _ keeps => keeps state neighbours.refl)⟩

end Neighbours

end MapReplica.Dialogue
