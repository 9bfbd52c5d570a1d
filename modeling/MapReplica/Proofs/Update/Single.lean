import MapReplica.Proofs.Update.Favouring
import MapReplica.Proofs.Update.Flawless

/-!
# A single append

Without any failure a manager can be prepared at the start and appends up to the number
of its feed, as long as the cycles up to there can be done, however the work on the entities
is interleaved. What lasts then is what was defined to last without any failure.
-/

namespace MapReplica.Update

open Dialogue

namespace Conditions

variable {conditions : Conditions} {order manager : Manager} {reached : Nat}
variable {ground : Ground} {α β : Type}

/-! ## Activities -/

/-- Without any failure, an activity that starts from a state ends well in the same way. -/
abbrev GoesFrom {σ : Type} (conditions : Conditions) (reached : Nat) (activity : Activity σ α)
    (known : α → σ → Ground → Prop) (state : σ) (ground : Ground) : Prop :=
  (activity.starting state).Keeps (conditions.flawless reached)
    (conditions.Answerable reached)
    (fun result after => ∃ value, result.1 = .ok value ∧ known value result.2 after) ground

section Activities

variable {σ : Type} {state : σ}

theorem goesFrom_pure {value : α} {known : α → σ → Ground → Prop}
    (holds : known value state ground) :
    conditions.GoesFrom reached (pure value : Activity σ α) known state ground :=
  ⟨value, rfl, holds⟩

theorem GoesFrom.bind {activity : Activity σ α} {rest : α → Activity σ β}
    {known : α → σ → Ground → Prop} {wanted : β → σ → Ground → Prop}
    (goes : conditions.GoesFrom reached activity known state ground)
    (later : ∀ value after now, known value after now →
      conditions.GoesFrom reached (rest value) wanted after now) :
    conditions.GoesFrom reached (activity >>= rest) wanted state ground := by
  refine Activity.keeps_bind goes ?_ ?_
  · rintro value after now ⟨_, same, holds⟩
    cases same
    exact later value after now holds
  · rintro failure after now ⟨_, impossible, _⟩
    cases impossible

theorem GoesFrom.mono {activity : Activity σ α} {known weaker : α → σ → Ground → Prop}
    (goes : conditions.GoesFrom reached activity known state ground)
    (weaken : ∀ value after now, known value after now → weaker value after now) :
    conditions.GoesFrom reached activity weaker state ground :=
  Keeps.mono goes fun result now ⟨value, ok, holds⟩ => ⟨value, ok, weaken value result.2 now holds⟩

/-- What holds whether or not there are failures holds without any. -/
theorem GoesFrom.also {activity : Activity σ α} {known other : α → σ → Ground → Prop}
    {allows : Ground → Inquiry → Prop}
    (goes : conditions.GoesFrom reached activity known state ground)
    (keeps : (activity.starting state).Keeps conditions.world allows
      (fun result now => ∀ value, result.1 = .ok value → other value result.2 now) ground) :
    conditions.GoesFrom reached activity
      (fun value after now => known value after now ∧ other value after now) state ground := by
  have fewer : (activity.starting state).Keeps (conditions.flawless reached) (fun _ _ => True)
      (fun result now => ∀ value, result.1 = .ok value → other value result.2 now) ground :=
    keeps.relax (fun _ _ _ _ step => step.1) fun _ _ _ => trivial
  refine (goes.and fewer).mono ?_
  rintro result now ⟨⟨value, ok, holds⟩, all⟩
  exact ⟨value, ok, holds, all value ok⟩

/-- A task within an activity leaves its state as it is. -/
theorem goesFrom_task {task : Task α} {known : α → Ground → Prop}
    (goes : conditions.Goes reached task known ground) :
    conditions.GoesFrom reached (liftM task : Activity σ α)
      (fun value after now => after = state ∧ known value now) state ground := by
  rw [GoesFrom, Activity.starting_task]
  refine Keeps.bind goes ?_
  rintro outcome now ⟨value, rfl, holds⟩
  exact ⟨value, rfl, rfl, holds⟩

theorem goesFrom_get :
    conditions.GoesFrom reached (get : Activity σ σ)
      (fun value after now => value = state ∧ after = state ∧ now = ground) state ground :=
  ⟨state, rfl, rfl, rfl, rfl⟩

theorem goesFrom_ofExcept {outcome : Except Failure α} {value : α} (found : outcome = .ok value) :
    conditions.GoesFrom reached (Activity.ofExcept outcome)
      (fun result after now => result = value ∧ after = state ∧ now = ground) state ground :=
  ⟨value, found, rfl, rfl, rfl⟩

theorem goesFrom_modify {change : σ → σ} :
    conditions.GoesFrom reached (modify change : Activity σ PUnit)
      (fun _ after now => after = change state ∧ now = ground) state ground :=
  ⟨⟨⟩, rfl, rfl, rfl⟩

theorem goesFrom_attempt {activity : Activity σ α} {known : α → σ → Ground → Prop}
    (goes : conditions.GoesFrom reached activity known state ground) :
    conditions.GoesFrom reached activity.attempt
      (fun outcome after now => ∃ value, outcome = .ok value ∧ known value after now) state
        ground := by
  rw [GoesFrom, Activity.starting_attempt]
  refine Keeps.bind goes ?_
  rintro result now ⟨value, ok, holds⟩
  exact ⟨_, rfl, value, ok, holds⟩

theorem goesFrom_taskAttempt {task : Task α} {known : α → Ground → Prop}
    (goes : conditions.Goes reached task known ground) :
    conditions.GoesFrom reached (Task.attempt task : Activity σ (Except Failure α))
      (fun outcome after now => after = state ∧ ∃ value, outcome = .ok value ∧ known value now)
      state ground := by
  rw [GoesFrom, Activity.starting_taskAttempt]
  refine Keeps.bind goes ?_
  rintro outcome now ⟨value, ok, holds⟩
  exact ⟨_, rfl, rfl, value, ok, holds⟩

end Activities

theorem goesFrom_onProgress {activity : Activity Progress α} {known : α → Progress → Ground → Prop}
    (goes : conditions.GoesFrom reached activity known manager.progress ground) :
    conditions.GoesFrom reached (onProgress activity)
      (fun value after now => ∃ progress, after = { manager with progress } ∧
        known value progress now)
      manager ground := by
  rw [GoesFrom, Activity.starting_onProgress]
  refine Keeps.bind goes ?_
  rintro ⟨outcome, progress⟩ now ⟨value, rfl, holds⟩
  exact ⟨value, rfl, progress, rfl, holds⟩

theorem goesFrom_onResources {activity : Activity Resource.Cache α}
    {known : α → Resource.Cache → Ground → Prop}
    (goes : conditions.GoesFrom reached activity known manager.resources ground) :
    conditions.GoesFrom reached (onResources activity)
      (fun value after now => ∃ resources, after = { manager with resources } ∧
        known value resources now) manager ground := by
  rw [GoesFrom, Activity.starting_onResources]
  refine Keeps.bind goes ?_
  rintro ⟨outcome, resources⟩ now ⟨value, rfl, holds⟩
  exact ⟨value, rfl, resources, rfl, holds⟩

theorem goesFrom_commit :
    conditions.GoesFrom reached (onProgress Progress.commit)
      (fun _ _ now => now.durable.jobs = ground.durable.jobs) manager ground := by
  refine ⟨⟨.ok (), ⟨ground.durable.put manager.progress.key
    (Utf8.encodeChars manager.progress.nextContent), ground.files⟩,
    ⟨rfl, ⟨fun _ _ => rfl, trivial⟩, trivial⟩, rfl⟩, ?_⟩
  rintro answer after ⟨step, well⟩
  obtain rfl := ok_of_toBool well
  have put : after.durable = ground.durable.put manager.progress.key
    (Utf8.encodeChars manager.progress.nextContent) := step.1
  have kept : after.durable.jobs = ground.durable.jobs := put ▸ rfl
  exact ⟨(), rfl, kept⟩

section Cycles

variable {weaver : Weaver} {count : Nat}

/-- The cycle of the next number and its commit, with what the cycle leaves in the queue. -/
theorem goesFrom_appendNext (serves : conditions.Serves order) (same : SameOrder order manager)
    (informed : conditions.InformedAt order count manager ground)
    (fits : reached ≤ Number.maxSigned64) (remote : manager.progress.remote = reached)
    (behind : manager.progress.isUpToDate = false) {left : List Queue.Request → Prop}
    (cycle : conditions.Goes reached
      (cycleBy weaver conditions.setup order conditions.feed (conditions.start + count + 1))
      (fun _ after => left after.durable.jobs) ground) :
    conditions.GoesFrom reached (appendNextBy weaver conditions.setup conditions.feed)
      (fun _ result now => left now.durable.jobs ∧ SameOrder order result ∧
        conditions.Advanced order (count + 1) manager result now) manager ground := by
  have range : manager.progress.remote ≤ Number.maxSigned64 := by
    rw [remote]
    exact Int.ofNat_le.mpr fits
  have goes : conditions.GoesFrom reached (appendNextBy weaver conditions.setup conditions.feed)
      (fun _ _ now => left now.durable.jobs) manager ground := by
    simp only [GoesFrom, appendNextBy, Activity.starting_bind, Activity.starting_get, done_bind,
      Activity.starting_taskAttempt, Dialogue.bind_assoc, same.cycleBy, same.removeArtifacts,
      next_of_current informed.current]
    refine Keeps.bind cycle ?_
    rintro _ worked ⟨_, rfl, jobs⟩
    simp only [Except.toOption, Option.isNone_some, Bool.false_eq_true, if_false,
      Activity.starting_bind, Activity.starting_task, Dialogue.bind_assoc, done_bind,
      Activity.starting_ofExcept]
    refine Keeps.bind goes_removeArtifacts ?_
    rintro _ removed ⟨_, rfl, still⟩
    refine Keeps.bind goesFrom_commit ?_
    rintro ⟨_, committed⟩ last ⟨_, rfl, kept⟩
    exact ⟨⟨⟩, rfl, kept ▸ still ▸ jobs⟩
  have facts : ((appendNextBy weaver conditions.setup conditions.feed).starting manager).Keeps
      conditions.world (conditions.Settled order)
      (fun result now => ∀ value, result.1 = .ok value → SameOrder order result.2 ∧
        conditions.Advanced order (count + 1) manager result.2 now) ground := by
    refine (keeps_settled_next weaver serves same informed range behind).mono ?_
    intro result now within value ok
    exact ⟨within.same, within.known value ok⟩
  exact goes.also facts

end Cycles

/-! ## A single append -/

/-- Reading the text of the project at the start. -/
theorem goesFrom_load (key : manager.progress.key = conditions.key)
    (durable : ground.durable = conditions.first) :
    conditions.GoesFrom reached (onProgress Progress.load)
      (fun _ result now => now = ground ∧ result =
        { manager with progress := manager.progress.loaded conditions.content conditions.start })
      manager ground := by
  obtain ⟨body, there, decoded⟩ := conditions.stored
  rw [GoesFrom, Activity.starting_onProgress, starting_load, key]
  refine ⟨⟨.ok body, ground, ⟨⟨rfl, ?_⟩, ⟨fun _ _ => rfl, trivial⟩, ?_⟩, rfl⟩, ?_⟩
  · intro other same
    cases same
    rw [durable]
    exact there
  · intro other same entity member resource among own
    cases same
    have kept := conditions.kept entity member resource among
    rw [own] at kept
    exact Option.some.inj (there.symm.trans kept)
  · rintro (failure | other) after ⟨step, well⟩
    · cases well
    · obtain ⟨same, truthful⟩ := step.1
      have found := truthful other rfl
      rw [durable] at found
      cases there.symm.trans found
      have read : readProject manager.progress (.ok body) =
          (.ok (), manager.progress.loaded conditions.content conditions.start) :=
        readProject_ok decoded conditions.numbered
      exact ⟨(), congrArg Prod.fst read, ground_of_idle step rfl same,
        congrArg (fun result => { manager with progress := result.2 }) read⟩

/-- Reading the text of the feed. -/
theorem goesFrom_loadRemote (fits : reached ≤ Number.maxSigned64) :
    conditions.GoesFrom reached (onProgress (Progress.loadRemote conditions.feed))
      (fun _ result now => now = ground ∧ result =
        { manager with progress := { manager.progress with remote := reached } })
      manager ground := by
  have reads : conditions.Goes reached (Feed.state conditions.feed)
      (fun content now => now = ground ∧ Marker.read? content = some reached) ground := by
    unfold Feed.state
    refine Goes.bind (goes_get fits) ?_
    rintro response now ⟨rfl, complete, number⟩
    unfold Feed.bodyOf
    simp only [complete, if_true]
    exact goes_pure ⟨rfl, number rfl⟩
  rw [GoesFrom, Activity.starting_onProgress, starting_loadRemote, Dialogue.bind_assoc]
  refine Keeps.bind reads ?_
  rintro _ now ⟨content, rfl, rfl, number⟩
  rw [done_bind, readFeed_ok number]
  exact ⟨(), rfl, rfl, rfl⟩

/--
Cycles on all occasions up to a number of commits can be done without any failure, and leave
something in the queue after each commit.
-/
def Course (conditions : Conditions) (order : Manager) (reached : Nat) (weavers : Nat → Weaver)
    (total : Nat) (left : Nat → List Queue.Request → Prop) : Prop :=
  ∀ count occasion ground, count + occasion + 1 = total → conditions.Calm order count ground →
    left count ground.durable.jobs → conditions.Goes reached
      (cycleBy (weavers occasion) conditions.setup order conditions.feed
        (conditions.start + count + 1))
      (fun _ after => left (count + 1) after.durable.jobs) ground

/-- Cycles up to the number of the feed, each with a weaver of its own. -/
theorem goesFrom_appendUpTo {weavers : Nat → Weaver} {total : Nat}
    {left : Nat → List Queue.Request → Prop}
    (course : conditions.Course order reached weavers total left) (serves : conditions.Serves order)
    (fits : reached ≤ Number.maxSigned64) (ends : conditions.start + total = reached)
    {cycles count : Nat} (whole : count + cycles = total) (same : SameOrder order manager)
    (informed : conditions.InformedAt order count manager ground)
    (lasts : conditions.Lasts order count ground.durable) (jobs : left count ground.durable.jobs)
    (remote : manager.progress.remote = reached) (unlimited : manager.progress.remaining = none) :
    conditions.GoesFrom reached (appendUpToBy
        (fun occasion => appendNextBy (weavers occasion) conditions.setup conditions.feed) cycles)
      (fun _ _ now => conditions.Lasts order total now.durable ∧ left total now.durable.jobs)
      manager ground := by
  -- The manager stays behind the feed by as many commits as there are cycles left.
  induction cycles generalizing count manager ground with
  | zero =>
      obtain rfl : count = total := whole
      exact goesFrom_pure ⟨lasts, jobs⟩
  | succ cycles ih =>
      have behind : manager.progress.isUpToDate = false := by
        rw [Progress.isUpToDate, remote, informed.current]
        exact decide_eq_false (by omega)
      have unfinished : manager.progress.isFinished = false := by
        rw [Progress.isFinished, Progress.hasReachedLimit, unlimited, behind]
        rfl
      have next := goesFrom_appendNext serves same informed fits remote behind
        (course count cycles ground whole informed.calm jobs)
      refine GoesFrom.bind goesFrom_get ?_
      rintro _ _ _ ⟨rfl, rfl, rfl⟩
      simp only [unfinished, Bool.false_eq_true, if_false]
      refine GoesFrom.bind next ?_
      rintro _ result now ⟨jobs, same, advanced⟩
      exact ih (by omega) same advanced.informed advanced.lasts jobs
        (advanced.remote.trans remote) (advanced.unlimited unlimited)

theorem goes_bucketExists :
    conditions.Goes reached Task.bucketExists (fun found after => found = true ∧ after = ground)
      ground := by
  refine ⟨⟨.ok true, ground, ⟨rfl, ⟨fun _ _ => rfl, trivial⟩, trivial⟩, rfl⟩, ?_⟩
  rintro answer after ⟨step, well⟩
  exact ⟨true, well, rfl, ground_of_idle step rfl step.1⟩

theorem goes_startQueue :
    conditions.Goes reached Task.startQueue (fun _ after => after = ground) ground := by
  refine ⟨⟨.ok (), ground, ⟨rfl, ⟨fun _ _ => rfl, trivial⟩, trivial⟩, rfl⟩, ?_⟩
  rintro answer after ⟨step, well⟩
  exact ⟨(), ok_of_toBool well, ground_of_idle step rfl step.1⟩

theorem goes_reserve {project : String} :
    conditions.Goes reached (Task.reserve project) (fun _ after => after = ground) ground := by
  refine ⟨⟨.ok (), ground, ⟨rfl, ⟨fun _ _ => rfl, trivial⟩, trivial⟩, rfl⟩, ?_⟩
  rintro answer after ⟨step, well⟩
  exact ⟨(), ok_of_toBool well, ground_of_idle step rfl step.1⟩

theorem goes_release {project : String} :
    conditions.Goes reached (Task.release project) (fun _ after => after = ground) ground := by
  refine ⟨⟨.ok (), ground, ⟨rfl, ⟨fun _ _ => rfl, trivial⟩, trivial⟩, rfl⟩, ?_⟩
  rintro answer after ⟨step, well⟩
  exact ⟨(), ok_of_toBool well, ground_of_idle step rfl step.1⟩

/-- Work within the lock. -/
theorem goesFrom_locked {work : Activity Manager Unit} {known : Ground → Prop}
    (goes : conditions.GoesFrom reached work (fun _ _ now => known now) manager ground) :
    conditions.GoesFrom reached (locked work) (fun _ _ now => known now) manager ground := by
  refine GoesFrom.bind goesFrom_get ?_
  rintro manager _ ground ⟨rfl, rfl, rfl⟩
  refine GoesFrom.bind (goesFrom_task goes_reserve) ?_
  rintro _ manager ground ⟨rfl, rfl⟩
  refine GoesFrom.bind (goesFrom_attempt goes) ?_
  rintro _ after now ⟨value, rfl, holds⟩
  refine GoesFrom.bind (goesFrom_taskAttempt goes_release) ?_
  rintro _ after now ⟨rfl, _, rfl, rfl⟩
  exact goesFrom_pure holds

/-- An append from the start to the number of the feed. -/
theorem goesFrom_append {weavers : Nat → Weaver} {total : Nat}
    {left : Nat → List Queue.Request → Prop}
    (course : conditions.Course order reached weavers total left) (serves : conditions.Serves order)
    (fits : reached ≤ Number.maxSigned64) (ends : conditions.start + total = reached)
    (same : SameOrder order manager) (unlimited : manager.progress.remaining = none)
    (durable : ground.durable = conditions.first) (jobs : left 0 conditions.first.jobs)
    (calm : conditions.Calm order 0 ground) :
    conditions.GoesFrom reached
      ((WovenDrive.mk (.append conditions.feed) weavers).work conditions.setup)
      (fun _ _ now => conditions.Lasts order total now.durable ∧ left total now.durable.jobs)
      manager ground := by
  have key : manager.progress.key = conditions.key :=
    congrArg Progress.keyOf (same.project.trans serves.project)
  refine goesFrom_locked ?_
  have loads : conditions.GoesFrom reached (loadBoth conditions.feed)
      (fun _ result now => now = ground ∧ ∃ progress, result = { manager with progress } ∧
        progress = { manager.progress.loaded conditions.content conditions.start with
          remote := reached }) manager ground := by
    refine GoesFrom.bind (goesFrom_load key durable) ?_
    rintro _ _ _ ⟨rfl, rfl⟩
    refine (goesFrom_loadRemote fits).mono ?_
    rintro _ _ _ ⟨rfl, rfl⟩
    exact ⟨rfl, _, rfl, rfl⟩
  refine GoesFrom.bind loads ?_
  rintro _ _ ground ⟨rfl, progress, rfl, read⟩
  refine GoesFrom.bind goesFrom_get ?_
  rintro _ _ ground ⟨rfl, rfl, rfl⟩
  have cycles : 0 + (progress.remote - progress.current).toNat = total := by
    rw [read]
    show 0 + ((reached : Int) - (conditions.start : Int)).toNat = total
    omega
  have lasts : conditions.Lasts order 0 ground.durable := durable ▸ .start
  have informed : conditions.InformedAt order 0 { manager with progress } ground :=
    ⟨calm, congrArg (·.content) read, congrArg (·.current) read⟩
  have project : progress.project = manager.progress.project := congrArg (·.project) read
  exact goesFrom_appendUpTo course serves fits ends cycles (same.onProgress project) informed lasts
    (durable ▸ jobs) (congrArg (·.remote) read) ((congrArg (·.remaining) read).trans unlimited)

/-! ## Preparing -/

/-- A preparation leaves what lasts as it was at the start. -/
theorem leave_first :
    conditions.Leave reached conditions.Preparing fun ground => ground.durable = conditions.first :=
  fun _ _ _ _ asked same step => (asked.durable step.1).trans same

section Fetch

variable {resource : Resource}
variable {leave : conditions.Leave reached conditions.Preparing
  fun ground => ground.durable = conditions.first}

theorem goesAmid_place {path : Path} {content : Bytes}
    (may : conditions.Preparing (.writeFile path content)) :
    conditions.GoesAmid leave (Resource.place path content) fun _ => True := by
  have parents : conditions.GoesAmid leave (Feed.makeParent path) fun _ => True := by
    unfold Feed.makeParent
    cases path.parent? with
    | none => exact goesAmid_pure trivial
    | some directory =>
        refine goesAmid_of_goes rfl (fun answer => ?_) (.directory directory) fun _ _ =>
          goes_createDirectory.mono fun _ _ _ => trivial
        cases answer with
        | error fault => exact ⟨_, rfl⟩
        | ok _ => exact ⟨_, rfl⟩
  refine parents.bind fun _ _ => ?_
  refine goesAmid_of_goes rfl (fun answer => ?_) may fun _ _ => goes_writeFile
  cases answer with
  | error fault => exact ⟨_, rfl⟩
  | ok _ => exact ⟨_, rfl⟩

/-- What the store has of a resource is got. -/
theorem goes_getObject (needed : conditions.Needed resource)
    (durable : ground.durable = conditions.first) :
    conditions.Goes reached (Task.outcome (Task.getObject resource.id))
      (fun outcome _ => outcome = .ok (conditions.resources resource.id)) ground := by
  obtain ⟨entity, member, among⟩ := needed
  have there := conditions.kept entity member resource among
  rw [← durable] at there
  constructor
  · refine ⟨.ok (conditions.resources resource.id), ground,
      ⟨⟨rfl, ?_⟩, ⟨fun _ _ => rfl, trivial⟩, ?_⟩, rfl⟩
    · intro body same
      cases same
      exact there
    · intro body same _ _ _ _ _
      cases same
      rfl
  · rintro (failure | body) after ⟨step, well⟩
    · cases well
    · exact ⟨_, rfl, congrArg Except.ok (step.2.2 body rfl entity member resource among rfl)⟩

/-- A resource that is in the object store and can be used is fetched while others are. -/
theorem goesAmid_fetchEntry (needed : conditions.Needed resource) {loaded : Resource.Loaded}
    (usable : conditions.loadedOf resource = .ok loaded) :
    conditions.GoesAmid leave (Resource.fetchEntry conditions.setup.workDirectory resource)
      fun _ => True := by
  obtain ⟨content, text, made⟩ := exists_of_bind_ok usable
  have texts : conditions.GoesAmid leave (Resource.fetchText resource.id)
      fun value => value = content := by
    refine (goesAmid_of_goes rfl (fun _ => ⟨_, rfl⟩) (.get resource.id) fun _ durable =>
      goes_getObject needed durable).bind ?_
    rintro _ rfl
    exact goesAmid_ofExcept text
  have fetches : conditions.GoesAmid leave (Resource.fetch conditions.setup.workDirectory resource)
      fun _ => True := by
    refine texts.bind ?_
    rintro content rfl
    cases kind : resource.kind with
    | script =>
        obtain ⟨entity, member, own⟩ := script_of_needed needed kind
        have may : conditions.Preparing (.writeFile
            (Resource.scriptPathOf conditions.setup.workDirectory resource.id)
            (Utf8.encode content)) := own ▸ .write entity _ member
        exact (goesAmid_place may).bind fun _ _ => goesAmid_pure trivial
    | area =>
        simp only [kind] at made
        obtain ⟨area, found, _⟩ := exists_of_bind_ok made
        exact (goesAmid_ofExcept found).bind fun _ _ => goesAmid_pure trivial
  exact fetches.bind fun _ _ => goesAmid_pure trivial

end Fetch

/-- Resources that can be used are loaded at the same time. -/
theorem goesFrom_load_resources (weaver : Weaver) {fetched cache : Resource.Cache}
    (usable : conditions.cache? (Resource.firstsById [] conditions.needs) = .ok fetched)
    (durable : ground.durable = conditions.first) :
    conditions.GoesFrom reached (loadBy weaver conditions.setup.workDirectory conditions.needs)
      (fun _ _ _ => True) cache ground := by
  have leave : conditions.Leave reached conditions.Preparing
      fun ground => ground.durable = conditions.first := leave_first
  have each : ∀ task ∈ (Resource.firstsById [] conditions.needs).map
      (Resource.fetchEntry conditions.setup.workDirectory),
        conditions.GoesAmid leave task fun _ => True := by
    refine List.forall_mem_map.mpr fun resource member => ?_
    obtain ⟨_, _, loads⟩ := exists_of_forall₂ (forall₂_of_mapM usable) member
    obtain ⟨loaded, usable, _⟩ := exists_of_bind_ok loads
    exact goesAmid_fetchEntry (needed_of_mem member) usable
  refine GoesFrom.bind (goesFrom_task (goes_join weaver leave each durable)) fun _ _ _ _ => ?_
  exact goesFrom_modify.mono fun _ _ _ _ => trivial

/-- The manager can be prepared at the start. -/
theorem goesFrom_prepare (weaver : Weaver) (serves : conditions.Serves order)
    (durable : ground.durable = conditions.first) :
    conditions.GoesFrom reached (conditions.preparation weaver none) (fun _ _ _ => True) .fresh
      ground := by
  obtain ⟨dispatcher, resources, targets, usable, _⟩ := of_order? serves.made
  have checked : checkOrder conditions.entities none = .ok () := by
    rw [checkOrder, serves.checked]
    rfl
  unfold preparation prepareBy
  refine GoesFrom.bind (goesFrom_ofExcept checked) ?_
  rintro _ _ ground ⟨-, rfl, rfl⟩
  refine GoesFrom.bind (goesFrom_ofExcept targets) ?_
  rintro _ _ ground ⟨rfl, rfl, rfl⟩
  have begins : ∀ progress, conditions.GoesFrom reached
      (Progress.prepare conditions.setup.workDirectory conditions.setup.bucket
        conditions.project none)
      (fun _ _ now => now = ground) progress ground := by
    intro progress
    refine GoesFrom.bind goesFrom_modify ?_
    rintro _ _ ground ⟨rfl, rfl⟩
    refine GoesFrom.bind (goesFrom_task goes_createDirectory) ?_
    rintro _ _ ground ⟨rfl, rfl⟩
    refine GoesFrom.bind (goesFrom_task goes_bucketExists) ?_
    rintro _ _ ground ⟨rfl, rfl, rfl⟩
    exact goesFrom_pure rfl
  refine GoesFrom.bind (goesFrom_onProgress (begins _)) ?_
  rintro _ _ ground ⟨progress, rfl, rfl⟩
  refine GoesFrom.bind (goesFrom_onResources (goesFrom_load_resources weaver usable durable)) ?_
  rintro _ _ now _
  refine GoesFrom.bind goesFrom_modify ?_
  rintro _ _ _ _
  split
  case isFalse => exact goesFrom_pure trivial
  case isTrue =>
    refine GoesFrom.bind (goesFrom_task goes_startQueue) fun _ _ _ _ => ?_
    exact goesFrom_modify.mono fun _ _ _ _ => trivial

/--
A single append without a limit by a manager that is prepared for it, with any way to do at
the same time what is done so.
-/
def single (conditions : Conditions) (loading : Weaver) (weavers : Nat → Weaver) :
    Activity Manager Unit := do
  conditions.preparation loading none
  (WovenDrive.mk (.append conditions.feed) weavers).work conditions.setup

/-- With nothing at the same time, it is a preparation and an append. -/
theorem single_inOrder :
    conditions.single .inOrder (fun _ => .inOrder) = (do
      prepare conditions.setup conditions.project conditions.entities conditions.targets none
      append conditions.setup conditions.feed) := by
  rw [single, preparation_inOrder, work_inOrder]
  rfl

/-- A single append goes well, and then lasts what may last after its commits. -/
theorem goesFrom_single (loading : Weaver) {weavers : Nat → Weaver} {total : Nat}
    {left : Nat → List Queue.Request → Prop}
    (course : conditions.Course conditions.prepared reached weavers total left)
    (serves : conditions.Serves conditions.prepared) (fits : reached ≤ Number.maxSigned64)
    (ends : conditions.start + total = reached) (jobs : left 0 conditions.first.jobs)
    (durable : ground.durable = conditions.first) (swept : conditions.Swept ground.files) :
    conditions.GoesFrom reached (conditions.single loading weavers)
      (fun _ _ now => conditions.Lasts conditions.prepared total now.durable ∧
        left total now.durable.jobs) .fresh ground := by
  have calm : conditions.Calm conditions.prepared 0 ground := calm_first durable swept
  have facts : ((conditions.preparation loading none).starting .fresh).Keeps conditions.world
      (conditions.Settled conditions.prepared)
      (fun result now => ∀ value, result.1 = .ok value →
        conditions.Calm conditions.prepared 0 now ∧ now.durable = ground.durable ∧
          SameOrder conditions.prepared result.2 ∧
            result.2.progress = Manager.fresh.progress.begun conditions.project none) ground := by
    refine ((keeps_calm_prepare calm).and keeps_prepared).mono ?_
    rintro result now ⟨⟨calm, same⟩, ready⟩ value ok
    exact ⟨calm, same, (ready ok).2⟩
  have prepares : conditions.GoesFrom reached (conditions.preparation loading none)
      (fun _ manager now =>
        conditions.Calm conditions.prepared 0 now ∧ now.durable = ground.durable ∧
        SameOrder conditions.prepared manager ∧
          manager.progress = Manager.fresh.progress.begun conditions.project none) .fresh ground :=
    ((goesFrom_prepare loading serves durable).also facts).mono fun _ _ _ known => known.2
  refine GoesFrom.bind prepares ?_
  rintro _ manager now ⟨calm, still, same, begun⟩
  exact goesFrom_append course serves fits ends same (congrArg (·.remaining) begun)
    (still.trans durable) jobs calm

/-! ## Courses -/

section Course

variable {total : Nat}

/-- Cycles that can be done go on whatever their weavers are. -/
theorem course_of_feasible (weavers : Nat → Weaver) (serves : conditions.Serves order)
    (fits : reached ≤ Number.maxSigned64)
    (feasible : ∀ index < total, conditions.Feasible order (conditions.start + index + 1)) :
    conditions.Course order reached weavers total fun _ _ => True :=
  fun count _ _ whole calm _ =>
    goes_cycle _ serves fits (feasible count (by omega)) calm.unapplied

/-- What lasts after each of some commits, up to what lasts in the end. -/
theorem Lasts.exists_targets {durable : Durable}
    (lasts : conditions.Lasts order total durable) :
    ∃ targets : Nat → Durable, targets 0 = conditions.first ∧ targets total = durable ∧
      ∀ count < total, ∃ uploaded,
        Durable.Partly (conditions.effects order (conditions.start + count + 1)) (targets count)
          uploaded ∧
        (∀ effect ∈ conditions.effects order (conditions.start + count + 1),
          uploaded.Made effect) ∧ (targets (count + 1)).jobs = uploaded.jobs := by
  induction lasts with
  | start => exact ⟨fun _ => conditions.first, rfl, rfl, fun _ less => absurd less (Nat.not_lt_zero _)⟩
  | @commit total before uploaded _ part made ih =>
      obtain ⟨targets, start, final, each⟩ := ih
      refine ⟨Function.update targets (total + 1) (uploaded.put conditions.key
        (Utf8.encodeChars (conditions.textAt (total + 1)))), ?_, Function.update_self .., ?_⟩
      · rw [Function.update_of_ne (Nat.succ_ne_zero total).symm, start]
      · intro count less
        rw [Function.update_of_ne (Nat.ne_of_lt less)]
        rcases Nat.lt_succ_iff_lt_or_eq.mp less with earlier | rfl
        · rw [Function.update_of_ne (by omega)]
          exact each count earlier
        · rw [Function.update_self, final]
          exact ⟨uploaded, part, made, rfl⟩

/-- Whichever requests came to wait, there are cycles without any failure that bring the same. -/
theorem exists_course_favouring (serves : conditions.Serves order)
    (fits : reached ≤ Number.maxSigned64)
    (feasible : ∀ index < total, conditions.Feasible order (conditions.start + index + 1))
    {durable : Durable} (lasts : conditions.Lasts order total durable) :
    ∃ weavers : Nat → Weaver, ∃ left : Nat → List Queue.Request → Prop,
      conditions.Course order reached weavers total left ∧ left 0 conditions.first.jobs ∧
        ∀ jobs, left total jobs → ∀ job, job ∈ jobs ↔ job ∈ durable.jobs := by
  obtain ⟨targets, start, final, each⟩ := lasts.exists_targets
  have favouring : ∀ count, ∃ weaver : Weaver, count < total → ∀ ground durable,
      durable.SameJobs (targets count) →
        conditions.Unapplied (conditions.start + count + 1) durable ground →
          (cycleBy weaver conditions.setup order conditions.feed
              (conditions.start + count + 1)).run.Keeps conditions.world (conditions.Settled order)
            (fun outcome after => outcome = .ok () → ∀ job,
              job ∈ after.durable.jobs ↔ job ∈ (targets (count + 1)).jobs) ground := by
    intro count
    by_cases less : count < total
    · obtain ⟨uploaded, part, made, same⟩ := each count less
      obtain ⟨weaver, keeps⟩ := exists_cycle_favouring serves part made
      exact ⟨weaver, fun _ => same ▸ keeps⟩
    · exact ⟨.inOrder, fun impossible => absurd impossible less⟩
  choose weavers keeps using favouring
  refine ⟨fun occasion => weavers (total - 1 - occasion),
    fun count jobs => ∀ job, job ∈ jobs ↔ job ∈ (targets count).jobs, ?_, ?_, ?_⟩
  · intro count occasion ground whole calm jobs
    have own : total - 1 - occasion = count := by omega
    simp only [own]
    have facts := (keeps count (by omega) ground ground.durable jobs calm.unapplied).mono
      fun outcome after favoured => (fun _ ok => favoured ok :
        ∀ value, outcome = .ok value → ∀ job,
          job ∈ after.durable.jobs ↔ job ∈ (targets (count + 1)).jobs)
    have goes := goes_cycle (weavers count) serves fits (feasible count (by omega)) calm.unapplied
    exact (goes.also facts).mono fun _ _ reached => reached.2
  · exact fun job => by rw [start]
  · exact fun jobs same => final ▸ same

end Course

end Conditions

end MapReplica.Update
