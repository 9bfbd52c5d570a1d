import MapReplica.Proofs.Text.Utf8
import MapReplica.Proofs.Update.Drives
import MapReplica.Proofs.Update.Performing

/-!
# What lasts settles

Between cycles, what lasts is what it was after the last commit, with some of the uploads of
the next number made already, in any order. Only when all of them are made is the number
committed, and then what lasts no longer depends on how they were made. So at each commit
what lasts agrees with what lasts in any other way to the same number.
-/

namespace MapReplica.Update

open Dialogue

/-- A cycle depends on the order of its manager only. -/
theorem SameOrder.cycleBy {weaver : Weaver} {setup : Setup} {order manager : Manager}
    (same : SameOrder order manager) :
    cycleBy weaver setup manager = Update.cycleBy weaver setup order := by
  have applies : applyTo setup manager = applyTo setup order := by
    funext sequence diff entity
    simp only [applyTo, argumentsFor, same.project, same.resources]
  have listings : listingOf setup manager = listingOf setup order := by
    funext sequence entity
    simp only [listingOf, same.project, same.resources]
  have uploads : uploadAllBy weaver setup manager = uploadAllBy weaver setup order := by
    funext sequence
    simp only [uploadAllBy, same.dispatcher, same.entities, listings]
  funext feed sequence
  simp only [Update.cycleBy, same.entities, applies, uploads]

theorem SameOrder.removeArtifacts {setup : Setup} {order manager : Manager}
    (same : SameOrder order manager) :
    removeArtifacts setup manager = Update.removeArtifacts setup order := by
  funext sequence
  simp only [Update.removeArtifacts, same.project, same.entities]

namespace Conditions

variable {conditions : Conditions} {order manager : Manager} {number count : Nat}
variable {ground after : Ground}

/-! ## All ways to last agree -/

/-- What lasts after some commits agrees, however the uploads before each of them were made. -/
theorem Lasts.agree {durable other : Durable} (lasts : conditions.Lasts order count durable)
    (also : conditions.Lasts order count other) :
    conditions.Agree order (conditions.start + count) durable other := by
  induction lasts generalizing other with
  | start =>
      cases also with
      | start => exact ⟨rfl, fun _ => rfl, fun _ _ => Iff.rfl⟩
  | @commit count before uploaded _ part made ih =>
      cases also with
      | @commit _ first last lasts back all =>
          obtain ⟨objects, keys, jobs⟩ := ih lasts
          refine ⟨?_, fun request => Bool.eq_iff_iff.mpr ?_, fun tell job => ?_⟩
          · rw [Durable.put, Durable.put, Durable.objects_eq_of_made part back made all objects]
          · refine (Durable.queues_iff_of_made part made).trans
              (Iff.trans ?_ (Durable.queues_iff_of_made back all).symm)
            rw [keys]
          · have own := tell (conditions.start + count + 1) (by omega) (by omega)
            have early := jobs fun cycle after upTo => tell cycle after (by omega)
            refine (Durable.mem_jobs_iff_of_made part made own).trans
              (Iff.trans ?_ (Durable.mem_jobs_iff_of_made back all own).symm)
            rw [early job, keys]

/-! ## Between cycles -/

/--
Some commits after the start and between cycles: what lasts is what lasts after these
commits, with some of the uploads of the next number made, and there is no file of a cycle.
-/
structure Calm (conditions : Conditions) (order : Manager) (count : Nat)
    (ground : Ground) : Prop where
  text : ∃ body, ground.durable.objects conditions.key = some body ∧
    Utf8.decode? body = some (String.ofList (conditions.textAt count))
  number : Marker.read? (conditions.textAt count) = some (conditions.start + count)
  feasible : ∀ index < count, conditions.Feasible order (conditions.start + index + 1)
  pending : ∃ settled, conditions.Lasts order count settled ∧
    Durable.Partly (conditions.effects order (conditions.start + count + 1)) settled ground.durable
  swept : conditions.Swept ground.files

/-- Some more of the uploads of the next number leave it calm. -/
theorem Calm.of_part (calm : conditions.Calm order count ground)
    (part : Durable.Partly (conditions.effects order (conditions.start + count + 1))
      ground.durable after.durable) (swept : conditions.Swept after.files) :
    conditions.Calm order count after := by
  obtain ⟨body, there, decoded⟩ := calm.text
  obtain ⟨settled, lasts, pending⟩ := calm.pending
  refine ⟨⟨body, ?_, decoded⟩, calm.number, calm.feasible, ⟨settled, lasts, pending.trans part⟩,
    swept⟩
  have kept : after.durable.objects conditions.key = ground.durable.objects conditions.key :=
    part.objects_of_not_mem fun _ => put_not_mem_effects
  exact kept.trans there

/-- With the next cycle, all cycles up to its number can be done. -/
theorem Calm.feasible_next (calm : conditions.Calm order count ground)
    (feasible : conditions.Feasible order (conditions.start + count + 1)) :
    ∀ index < count + 1, conditions.Feasible order (conditions.start + index + 1) := by
  intro index less
  rcases Nat.lt_succ_iff_lt_or_eq.mp less with earlier | rfl
  · exact calm.feasible index earlier
  · exact feasible

/-- Once all uploads of the next number are made, its commit comes to what lasts after it. -/
theorem Calm.lasts_next (calm : conditions.Calm order count ground)
    (made : ∀ effect ∈ conditions.effects order (conditions.start + count + 1),
      ground.durable.Made effect) :
    conditions.Lasts order (count + 1) (ground.durable.put conditions.key
      (Utf8.encodeChars (conditions.textAt (count + 1)))) := by
  obtain ⟨settled, lasts, pending⟩ := calm.pending
  exact .commit lasts pending made

/-- The commit of the next number after all of its uploads. -/
theorem Calm.commit (calm : conditions.Calm order count ground)
    (feasible : conditions.Feasible order (conditions.start + count + 1))
    (fits : conditions.start + count + 1 ≤ Number.maxSigned64)
    (made : ∀ effect ∈ conditions.effects order (conditions.start + count + 1),
      ground.durable.Made effect)
    (written : after.durable = ground.durable.put conditions.key
      (Utf8.encodeChars (conditions.textAt (count + 1))))
    (swept : conditions.Swept after.files) : conditions.Calm order (count + 1) after := by
  refine ⟨⟨_, ?_, Utf8.decode?_encodeChars _⟩, ?_, calm.feasible_next feasible,
    ⟨after.durable, ?_, .refl⟩, swept⟩
  · rw [written, Durable.objects_put_self]
  · exact Marker.read?_withNumber calm.number fits
  · rw [written]
    exact calm.lasts_next made

/-- Without files of cycles, the next one can start. -/
theorem Calm.unapplied (calm : conditions.Calm order count ground) :
    conditions.Unapplied number ground.durable ground :=
  ⟨rfl, fun other _ path member => calm.swept other path member,
    fun _ member => calm.swept number _ (listPath_mem_artifacts member)⟩

/-- A manager that has loaded the number that is stored after some commits. -/
structure InformedAt (conditions : Conditions) (order : Manager) (count : Nat) (manager : Manager)
    (ground : Ground) : Prop where
  calm : conditions.Calm order count ground
  content : manager.progress.content = conditions.textAt count
  current : manager.progress.current = ↑(conditions.start + count)

/-- A manager that has loaded the number that is stored. -/
def Informed (conditions : Conditions) (order : Manager) (manager : Manager)
    (ground : Ground) : Prop :=
  ∃ count, conditions.InformedAt order count manager ground

/-- What a manager comes to by a commit, at which all uploads up to its number were made. -/
structure Advanced (conditions : Conditions) (order : Manager) (count : Nat)
    (manager result : Manager)
    (ground : Ground) : Prop where
  informed : conditions.InformedAt order count result ground
  lasts : conditions.Lasts order count ground.durable
  remote : result.progress.remote = manager.progress.remote
  unlimited : manager.progress.remaining = none → result.progress.remaining = none

theorem next_of_current {number : Nat} (current : manager.progress.current = number) :
    manager.progress.next = number + 1 := by
  rw [Progress.next, current]
  exact Int.toNat_natCast (number + 1)

/-- Calm between cycles, however far the project is. -/
def Quiet (conditions : Conditions) (order : Manager) (ground : Ground) : Prop :=
  ∃ count, conditions.Calm order count ground

/-- The commit after all uploads of the next number. -/
theorem keeps_settled_commit (serves : conditions.Serves order) (same : SameOrder order manager)
    (informed : conditions.InformedAt order count manager ground)
    (feasible : conditions.Feasible order (conditions.start + count + 1))
    (fits : conditions.start + count + 1 ≤ Number.maxSigned64)
    (made : ∀ effect ∈ conditions.effects order (conditions.start + count + 1),
      ground.durable.Made effect) :
    ((onProgress Progress.commit).starting manager).Keeps conditions.world
      (conditions.Settled order)
      (Within order (conditions.Quiet order) (conditions.Advanced order (count + 1) manager))
      ground := by
  obtain ⟨calm, content, current⟩ := informed
  have key : manager.progress.key = conditions.key :=
    congrArg Progress.keyOf (same.project.trans serves.project)
  have next : manager.progress.nextContent = conditions.textAt (count + 1) := by
    rw [Progress.nextContent, content, next_of_current current]
    rfl
  have number : Progress.numberOf? (Utf8.encodeChars (conditions.textAt (count + 1))) =
      some (conditions.start + (count + 1)) := by
    rw [Progress.numberOf?, Utf8.decode?_encodeChars, Option.bind_some, String.toList_ofList]
    exact Marker.read?_withNumber calm.number fits
  have settled : conditions.Settled order ground
      (.putObject manager.progress.key (Utf8.encodeChars manager.progress.nextContent)) := by
    intro body own
    obtain ⟨_, written⟩ := Inquiry.putObject.inj own
    refine ⟨serves, count + 1, ?_, fits, ?_, calm.feasible_next feasible⟩
    · rw [← written, next, number]
    · rw [← written, next]
      exact calm.lasts_next made
  refine ⟨settled, ?_⟩
  rintro (failure | ⟨⟩) after step
  · have still : after.durable = ground.durable := step.1
    have swept : conditions.Swept after.files := files_of_nothing step rfl ▸ calm.swept
    exact .failed order (same.onProgress rfl) ⟨count, calm.of_part (still ▸ .refl) swept⟩
  · have swept : conditions.Swept after.files := files_of_nothing step rfl ▸ calm.swept
    have written : after.durable = ground.durable.put conditions.key
        (Utf8.encodeChars (conditions.textAt (count + 1))) := by
      rw [← key, ← next]
      exact step.1
    have committed := calm.commit feasible fits made written swept
    have lasts : conditions.Lasts order (count + 1) after.durable := by
      rw [written]
      exact calm.lasts_next made
    have counted : manager.progress.current + 1 = ↑(conditions.start + (count + 1)) := by
      rw [current]
      rfl
    exact ⟨same.onProgress rfl, ⟨count + 1, committed⟩, fun _ _ =>
      ⟨⟨committed, next, counted⟩, lasts, rfl, fun unlimited => unlimited⟩⟩

/-- The removals after a cycle make it calm again, with what the cycle uploaded. -/
theorem keeps_calm (serves : conditions.Serves order) {outcome : Except Failure Unit}
    (calm : conditions.Calm order count ground)
    (uploaded : conditions.Uploaded order (conditions.start + count + 1) ground.durable
      outcome after) :
    (Update.removeArtifacts conditions.setup order (conditions.start + count + 1)).run.Keeps
      conditions.world (conditions.Settled order)
      (fun removed now => removed = .ok () ∧ conditions.Calm order count now ∧
        (outcome = .ok () → ∀ effect ∈ conditions.effects order (conditions.start + count + 1),
          now.durable.Made effect)) after := by
  refine (keeps_swept serves uploaded.elsewhere).mono ?_
  rintro removed now ⟨rfl, same, swept⟩
  refine ⟨rfl, calm.of_part (same ▸ uploaded.part) swept, fun ok => ?_⟩
  rw [same]
  exact (uploaded.all ok).1

/-- The tools are ended after a cycle that has failed, and leave what it uploaded. -/
theorem keeps_uploaded_terminate {failure : Failure}
    (uploaded : conditions.Uploaded order number durable (.error failure) ground) :
    Task.terminateTools.run.Keeps conditions.world (conditions.Settled order)
      (fun ended now => ended = .ok () ∧
        conditions.Uploaded order number durable (.error failure) now) ground := by
  have spared : Inquiry.terminateTools.SparesProgress := trivial
  refine ⟨settled_of_spares spared, fun answer now step => ⟨rfl, ?_⟩⟩
  have same : now.durable = ground.durable := step.1
  exact ⟨files_of_nothing step rfl ▸ uploaded.elsewhere, same ▸ uploaded.part,
    fun impossible => by cases impossible⟩

/-- What a manager comes to by a commit does not change when it counts down. -/
theorem Advanced.countDown {result : Manager}
    (advanced : conditions.Advanced order count manager result ground) :
    conditions.Advanced order count manager
      { result with progress := result.progress.countDown } ground := by
  have unlimited : manager.progress.remaining = none →
      result.progress.countDown.remaining = none := by
    intro free
    rw [Progress.countDown, advanced.unlimited free]
    exact advanced.unlimited free
  obtain ⟨remaining, counted⟩ := Progress.countDown_eq result.progress
  rw [counted] at unlimited ⊢
  exact ⟨⟨advanced.informed.calm, advanced.informed.content, advanced.informed.current⟩,
    advanced.lasts, advanced.remote, unlimited⟩

/-- A cycle with what is done after it. -/
theorem keeps_settled_next (weaver : Weaver) (serves : conditions.Serves order)
    (same : SameOrder order manager) (informed : conditions.InformedAt order count manager ground)
    (range : manager.progress.remote ≤ Number.maxSigned64)
    (behind : manager.progress.isUpToDate = false) :
    ((appendNextBy weaver conditions.setup conditions.feed).starting manager).Keeps conditions.world
      (conditions.Settled order)
      (Within order (conditions.Quiet order) (conditions.Advanced order (count + 1) manager))
      ground := by
  obtain ⟨calm, content, current⟩ := informed
  have fits : conditions.start + count + 1 ≤ Number.maxSigned64 := by
    have ahead : ¬ manager.progress.remote ≤ manager.progress.current := of_decide_eq_false behind
    rw [current] at ahead
    omega
  simp only [appendNextBy, Activity.starting_bind, Activity.starting_get, done_bind,
    Activity.starting_taskAttempt, Dialogue.bind_assoc, same.cycleBy, same.removeArtifacts,
    next_of_current current]
  -- A failed cycle has made some of its uploads, and the next attempt makes all of them.
  refine (keeps_cycle_uploaded weaver serves calm.unapplied).bind fun outcome worked uploaded => ?_
  cases outcome with
  | error failure =>
      simp only [Except.toOption, Option.isNone_none, if_true, Activity.starting_bind,
        Activity.starting_task, Dialogue.bind_assoc, done_bind, Activity.starting_ofExcept]
      refine (keeps_uploaded_terminate uploaded).bind ?_
      rintro ended now ⟨rfl, uploaded⟩
      refine (keeps_calm serves calm uploaded).bind ?_
      rintro removed last ⟨rfl, calm, _⟩
      exact .failed order same ⟨count, calm⟩
  | ok value =>
      simp only [Except.toOption, Option.isNone_some, Bool.false_eq_true, if_false,
        Activity.starting_bind, Activity.starting_task, Dialogue.bind_assoc, done_bind,
        Activity.starting_ofExcept]
      refine (keeps_calm serves calm uploaded).bind ?_
      rintro removed now ⟨rfl, calm, made⟩
      refine (keeps_settled_commit serves same ⟨calm, content, current⟩ (uploaded.all rfl).2 fits
        (made rfl)).bind ?_
      rintro ⟨committed, after⟩ last within
      cases committed with
      | error failure => exact .failed order within.same within.held
      | ok _ =>
          exact ⟨within.same.countDown, within.held, fun _ _ => (within.known () rfl).countDown⟩

/-! ## Drives -/

theorem settled_of_other {inquiry : Inquiry} (other : ∀ key body, inquiry ≠ .putObject key body) :
    conditions.Settled order ground inquiry :=
  fun _ own => (other _ _ own).elim

/-- An answer that changes nothing leaves the ground as it is. -/
theorem ground_of_idle {question : Inquiry} {answer : question.Answer}
    (step : conditions.world ground question answer after) (nothing : question.writes = [])
    (same : after.durable = ground.durable) : after = ground := by
  have files := files_of_nothing step nothing
  cases after
  cases same
  cases files
  rfl

/-- A text that was read well is the one that is stored. -/
theorem Calm.informed (calm : conditions.Calm order count ground) {answer : Except Failure Bytes}
    {progress : Progress}
    (truthful : ∀ body, answer = .ok body → ground.durable.objects conditions.key = some body)
    (read : readProject manager.progress answer = (.ok (), progress)) :
    conditions.InformedAt order count { manager with progress } ground := by
  obtain ⟨body, content, sequence, answered, decoded, number, loaded⟩ := of_readProject_ok read
  obtain ⟨stored, there, text⟩ := calm.text
  cases there.symm.trans (truthful body answered)
  have contents : content = conditions.textAt count :=
    String.ofList_injective (Option.some.inj (decoded.symm.trans text))
  have numbers : sequence = conditions.start + count := by
    rw [contents] at number
    exact Option.some.inj (number.symm.trans calm.number)
  refine ⟨calm, ?_, ?_⟩
  · exact (congrArg (·.content) loaded).trans contents
  · rw [← numbers]
    exact congrArg (·.current) loaded

/-- What holds under steady conditions, as it guides drives. -/
def guidance (serves : conditions.Serves order) :
    Guidance conditions.world (conditions.Settled order) order where
  outside := conditions.Quiet order
  inside := conditions.Quiet order
  known := conditions.Informed order
  held := by
    rintro manager ground same ⟨count, informed⟩
    exact ⟨count, informed.calm⟩
  idle := by
    intro ground inquiry idle quiet
    cases idle with
    | cancelled =>
        refine ⟨settled_of_other (fun _ _ => nofun), fun answer after step => ?_⟩
        rwa [ground_of_idle step rfl step.1]
    | wait =>
        refine ⟨settled_of_other (fun _ _ => nofun), fun answer after step => ?_⟩
        rwa [ground_of_idle step rfl step.1]
    | terminate =>
        refine ⟨settled_of_other (fun _ _ => nofun), fun answer after step => ?_⟩
        rwa [ground_of_idle step rfl step.1]
    | stopQueue =>
        refine ⟨settled_of_other (fun _ _ => nofun), fun answer after step => ?_⟩
        rwa [ground_of_idle step rfl step.1]
  reserve := by
    intro ground quiet
    refine ⟨settled_of_other (fun _ _ => nofun), fun answer after step => ?_⟩
    rw [ground_of_idle step rfl step.1]
    exact ⟨fun _ => quiet, fun _ => quiet⟩
  release := by
    intro ground quiet
    refine ⟨settled_of_other (fun _ _ => nofun), fun answer after step => ?_⟩
    rwa [ground_of_idle step rfl step.1]
  load := by
    rintro manager ground same ⟨count, calm⟩
    refine ⟨settled_of_other (fun _ _ => nofun), fun answer after step => ?_⟩
    obtain ⟨durable, truthful⟩ := step.1
    rw [ground_of_idle step rfl durable]
    have key : order.progress.key = conditions.key := congrArg Progress.keyOf serves.project
    rw [key] at truthful
    exact ⟨⟨count, calm⟩, fun progress read => ⟨count, calm.informed truthful read⟩⟩
  fetch := by
    intro manager ground url headers same informed
    refine ⟨settled_of_other (fun _ _ => nofun), fun answer after step => ?_⟩
    rwa [ground_of_idle step rfl step.1]
  remote := by
    rintro manager ground ⟨count, informed⟩ remote
    exact ⟨count, informed.calm, informed.content, informed.current⟩

/-- The cycles of a drive keep to it, whatever their weavers are. -/
theorem cycles (serves : conditions.Serves order) (weavers : Nat → Weaver) :
    ((guidance serves).custody {conditions.feed}).Cycles fun left =>
      appendNextBy (weavers left) conditions.setup conditions.feed := by
  refine (guidance serves).cycles ?_
  rintro left manager ground same ⟨count, informed⟩ range behind
  refine (keeps_settled_next (weavers left) serves same informed range behind).mono ?_
  intro result now within
  refine ⟨within.same, within.held, fun value ok => ?_⟩
  have advanced := within.known value ok
  exact ⟨⟨count + 1, advanced.informed⟩, advanced.remote⟩

end Conditions

end MapReplica.Update
