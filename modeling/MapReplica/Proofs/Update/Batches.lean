import MapReplica.Proofs.Dialogue.Passages
import MapReplica.Proofs.Update.Limits

/-!
# Batches

A batch reads how far the project and its feed are and then runs cycles until the feed or
the limit is reached. Every cycle that ends well brings the project one number closer to its
feed, so the loop comes to an end. How many cycles there are to run follows from the two
numbers and the limit; a batch that ends well has committed all of them, and one that fails
has committed those before the failure, and nothing of the one that failed.
-/

namespace MapReplica.Update

open Dialogue

variable {setup : Setup} {manager after between order : Manager} {feed : String}
variable {exchanges : List (Exchange collaborators)} {outcome : Except Failure Unit}

/-! ## The loop -/

/--
The complete runs of the loop of a batch: it is finished when nothing is left to do, fails
with a cycle that fails, and goes on after a cycle that ended well.
-/
inductive Cycles (setup : Setup) (feed : String) :
    Manager → List (Exchange collaborators) → Except Failure Unit → Manager → Prop where
  | finished {manager : Manager} (finished : manager.progress.isFinished = true) :
      Cycles setup feed manager [] (.ok ()) manager
  | failed {manager after : Manager} {said : List (Exchange collaborators)} {failure : Failure}
      (unfinished : Unfinished manager)
      (fails : Ends ((appendNext setup feed).starting manager) said (.error failure, after)) :
      Cycles setup feed manager said (.error failure) after
  | next {manager between after : Manager} {said later : List (Exchange collaborators)}
      {outcome : Except Failure Unit} (unfinished : Unfinished manager)
      (commits : Ends ((appendNext setup feed).starting manager) said (.ok (), between))
      (rest : Cycles setup feed between later outcome after) :
      Cycles setup feed manager (said ++ later) outcome after

/-- How far a project is behind its feed. -/
def Manager.distance (manager : Manager) : Nat :=
  (manager.progress.remote - manager.progress.current).toNat

theorem distance_pos (unfinished : Unfinished manager) : 0 < manager.distance := by
  have behind := (Bool.or_eq_false_iff.mp unfinished).2
  simp only [Progress.isUpToDate, decide_eq_false_iff_not, Int.not_le] at behind
  simp only [Manager.distance]
  omega

/-- A cycle that ended well has made an attempt, and its commit was the last exchange. -/
theorem committed_of_ends
    (ends : Ends ((appendNext setup feed).starting manager) exchanges (.ok (), after)) :
    after = { manager with progress := manager.progress.advanced.countDown } ∧
      ∃ attempt, Attempt setup manager manager.progress.next feed attempt ∧
        exchanges = attempt ++ [Inquiry.answered (.putObject manager.progress.key
          (Utf8.encodeChars manager.progress.nextContent)) (Except.ok ())] := by
  obtain ⟨progress, worked, cleared, works, clears, said⟩ := (cycled_of_ends ends).of_ok
  exact ⟨progress, worked ++ cleared,
    ⟨worked, cleared, rfl, performed_of_ends works, clears⟩, said⟩

/-- A cycle that failed leaves its manager as it was; at most its last exchange was a put. -/
theorem failed_of_ends {failure : Failure}
    (ends : Ends ((appendNext setup feed).starting manager) exchanges (.error failure, after)) :
    after = manager ∧ ∃ spared,
      (∀ exchange ∈ spared, Inquiry.SparesProgress exchange.question) ∧
        (exchanges = spared ∨
          exchanges = spared ++ [Inquiry.answered (.putObject manager.progress.key
            (Utf8.encodeChars manager.progress.nextContent)) (Except.error failure)]) := by
  obtain ⟨same, worked, cleared, clears, ⟨works, said⟩ | ⟨works, said⟩⟩ :=
    (cycled_of_ends ends).of_error
  · refine ⟨same, _, List.forall_mem_append.mpr ⟨spares_of_cycle works, ?_⟩, .inl said⟩
    exact List.forall_mem_cons.mpr ⟨trivial, spares_of_cleared clears⟩
  · exact ⟨same, _, List.forall_mem_append.mpr ⟨spares_of_cycle works, spares_of_cleared clears⟩,
      .inr said⟩

/-- After a commit a project is one number closer to its feed. -/
theorem distance_advanced :
    Manager.distance { manager with progress := manager.progress.advanced.countDown } =
      manager.distance - 1 := by
  obtain ⟨remaining, counted⟩ := Progress.countDown_eq manager.progress.advanced
  rw [counted]
  simp only [Manager.distance, Progress.advanced]
  omega

/-- A bound that is not below the distance never cuts the loop off. -/
theorem cycles_of_ends {bound : Nat} (enough : manager.distance ≤ bound)
    (ends : Ends ((appendUpTo setup feed bound).starting manager) exchanges (outcome, after)) :
    Cycles setup feed manager exchanges outcome after := by
  induction bound generalizing manager exchanges with
  | zero =>
      cases ends
      refine .finished ?_
      by_contra unfinished
      have behind : 0 < after.distance := distance_pos ((Bool.not_eq_true _).mp unfinished)
      omega
  | succ bound ih =>
      rw [appendUpTo, Activity.starting_get_bind] at ends
      split at ends
      case isTrue finished =>
        cases ends
        exact .finished finished
      case isFalse unfinished =>
        have begun : Unfinished manager := (Bool.not_eq_true _).mp unfinished
        rcases Activity.of_ends_bind ends with ⟨_, rfl, fails⟩ | ⟨_, _, _, _, rfl, commits, rest⟩
        · exact .failed begun fails
        · refine .next begun commits (ih ?_ rest)
          rw [(committed_of_ends commits).1, distance_advanced]
          omega

theorem starting_appendUpTo_of_finished (finished : manager.progress.isFinished = true)
    (bound : Nat) : (appendUpTo setup feed bound).starting manager = .done (.ok (), manager) := by
  cases bound with
  | zero => rfl
  | succ bound =>
      rw [appendUpTo, Activity.starting_get_bind, if_pos finished]
      rfl

/-- Any bound that is not below the distance makes the same loop. -/
theorem starting_appendUpTo_eq {bound other : Nat} (enough : manager.distance ≤ bound)
    (enough' : manager.distance ≤ other) :
    (appendUpTo setup feed bound).starting manager =
      (appendUpTo setup feed other).starting manager := by
  induction bound generalizing manager other with
  | zero =>
      have finished : manager.progress.isFinished = true := by
        by_contra unfinished
        have behind := distance_pos ((Bool.not_eq_true _).mp unfinished)
        omega
      rw [starting_appendUpTo_of_finished finished, starting_appendUpTo_of_finished finished]
  | succ bound ih =>
      by_cases finished : manager.progress.isFinished = true
      · rw [starting_appendUpTo_of_finished finished, starting_appendUpTo_of_finished finished]
      · have behind := distance_pos ((Bool.not_eq_true _).mp finished)
        obtain ⟨other, rfl⟩ := Nat.exists_eq_succ_of_ne_zero (show other ≠ 0 by omega)
        rw [appendUpTo, appendUpTo, Activity.starting_get_bind, Activity.starting_get_bind,
          if_neg finished, if_neg finished, Activity.starting_bind, Activity.starting_bind]
        -- The bounds must agree only after cycles that ended well, which shorten the distance.
        refine bind_congr_of_ends ?_
        rintro exchanges ⟨failure | ⟨⟩, between⟩ ends
        · rfl
        · have closer : between.distance = manager.distance - 1 := by
            rw [(committed_of_ends ends).1, distance_advanced]
          exact ih (by omega) (by omega)

/-- Every cycle of the loop begins with a number below that of the feed, so that adding one is safe. -/
theorem Cycles.course (cycles : Cycles setup feed manager exchanges outcome after) :
    Course setup
      (fun begun => begun.progress.current + 1 ≤ begun.progress.remote ∧
        begun.progress.remote = manager.progress.remote)
      manager exchanges after := by
  have behind {manager : Manager} (unfinished : Unfinished manager) :
      manager.progress.current + 1 ≤ manager.progress.remote := by
    have below := (Bool.or_eq_false_iff.mp unfinished).2
    simp only [Progress.isUpToDate, decide_eq_false_iff_not, Int.not_le] at below
    omega
  induction cycles with
  | finished _ => exact .nil _
  | failed unfinished fails => exact (Part.cycle ⟨behind unfinished, rfl⟩ fails).course
  | next unfinished commits _ ih =>
      refine .cons (.cycle ⟨behind unfinished, rfl⟩ commits) ?_
      obtain ⟨remaining, counted⟩ := Progress.countDown_eq (Progress.advanced _)
      rw [(committed_of_ends commits).1, counted] at ih
      rw [(committed_of_ends commits).1, counted]
      exact ih

/-! ## The progress text -/

/-- A put that failed stored nothing. -/
def StoresNothing (texts : List Bytes) :
    (question : Inquiry) → question.Answer → List Bytes → Prop
  | .putObject _ _, (answer : Except Failure Unit), after => answer.toBool = false → after = texts
  | _, _, _ => True

/--
Collaborators that answer anything, but let nobody else write the progress text of a project.
Only if puts can be torn, a put that failed may have stored its text all the same.
-/
def aloneWith (torn : Prop) (project : String) : Surroundings collaborators Scene :=
  fun scene question answer after => alone project scene question answer after ∧
    (¬ torn → StoresNothing scene.texts question answer after.texts)

/-- The number of the newest text. -/
def Scene.number? (scene : Scene) : Option Nat :=
  scene.texts.head?.bind Progress.numberOf?

section Passages

variable {torn : Prop} {project : String} {scene last : Scene}

theorem past_of_passage (passage : Passage (aloneWith torn project) scene exchanges last) :
    last.past = scene.past ++ exchanges := by
  induction passage with
  | nil scene => exact (List.append_nil _).symm
  | cons answered _ ih =>
      rw [ih, answered.1.1, List.append_assoc]
      rfl

/-- Without a put of the progress text the texts stay as they are. -/
theorem texts_of_passage (passage : Passage (aloneWith torn project) scene exchanges last)
    (others : ∀ exchange ∈ exchanges, ¬ Commits project exchange.question) :
    last.texts = scene.texts := by
  refine passage.invariant (fun now => now.texts = scene.texts) rfl ?_
  rintro ⟨question, answer⟩ member before after same ⟨⟨-, writes⟩, -⟩
  have spares (body : Bytes) : question ≠ .putObject (Progress.keyOf project) body := by
    rintro rfl
    exact others _ member rfl
  exact (same_of_writes spares writes).trans same

/-- A put of the progress text stores it if it succeeds, and not before it is asked. -/
theorem texts_of_put {body : Bytes} {answer : Except Failure Unit}
    (passage : Passage (aloneWith torn project) scene
      [Inquiry.answered (.putObject (Progress.keyOf project) body) answer] last) :
    (answer.toBool = true → last.texts = body :: scene.texts) ∧
      (answer.toBool = false → last.texts = scene.texts ∨ torn ∧ last.texts = body :: scene.texts) := by
  obtain ⟨_, ⟨⟨-, writes⟩, whole⟩, rest⟩ := passage_cons_iff.mp passage
  obtain rfl := passage_nil_iff.mp rest
  rcases writes with ⟨-, stored⟩ | ⟨failed, same⟩
  · refine ⟨fun _ => stored, fun fails => ?_⟩
    by_cases tears : torn
    · exact .inr ⟨tears, stored⟩
    · exact .inl (whole tears fails)
  · refine ⟨fun well => ?_, fun _ => .inl same⟩
    rw [failed rfl] at well
    cases well

/-- A cycle that failed leaves the texts as they are; only a torn put may have stored its text. -/
theorem texts_of_failed {failure : Failure}
    (fails : Ends ((appendNext setup feed).starting manager) exchanges (.error failure, after))
    (passage : Passage (aloneWith torn manager.progress.project) scene exchanges last) :
    last.texts = scene.texts ∨
      torn ∧ last.texts = Utf8.encodeChars manager.progress.nextContent :: scene.texts := by
  obtain ⟨-, spared, spare, said⟩ := failed_of_ends fails
  have others (exchange : Exchange collaborators) (member : exchange ∈ spared) :
      ¬ Commits manager.progress.project exchange.question :=
    not_commits_of_spares (spare exchange member)
  rcases said with rfl | rfl
  · exact .inl (texts_of_passage passage others)
  · obtain ⟨middle, works, puts⟩ := passage_append_iff.mp passage
    rw [← texts_of_passage works others]
    exact (texts_of_put puts).2 rfl

end Passages

/-! ## Loads -/

section Loads

variable {torn : Prop} {scene last : Scene} {project : String}

theorem not_commits_of_looks {inquiry : Inquiry} (looks : Looks project feed inquiry) :
    ¬ Commits project inquiry := by
  cases looks with
  | _ => exact id

theorem looks_of_ends_loadBoth
    (ends : Ends ((loadBoth feed).starting manager) exchanges (outcome, after)) :
    ∀ exchange ∈ exchanges, Looks manager.progress.project feed exchange.question :=
  (asks_loadBoth .load .fetch).of_ends ends

/-- Loads leave the texts as they are. -/
theorem texts_of_loads
    (ends : Ends ((loadBoth feed).starting manager) exchanges (outcome, after))
    (passage : Passage (aloneWith torn manager.progress.project) scene exchanges last) :
    last.texts = scene.texts :=
  texts_of_passage passage fun exchange member =>
    not_commits_of_looks (looks_of_ends_loadBoth ends exchange member)

/-- A load that ends well has read a text with a number. -/
theorem of_ends_load_ok
    (ends : Ends ((onProgress Progress.load).starting manager) exchanges (.ok (), after)) :
    ∃ body content number, exchanges =
        [Inquiry.answered (.getObject manager.progress.key) (Except.ok body)] ∧
      Utf8.decode? body = some (String.ofList content) ∧ Marker.read? content = some number ∧
      after = { manager with progress := manager.progress.loaded content number } := by
  rw [Activity.starting_onProgress, starting_load] at ends
  obtain ⟨answer, _, rfl, loaded⟩ := ends_ask_iff.mp ends
  obtain ⟨rfl, same⟩ := ends_done_iff.mp loaded
  obtain ⟨well, rfl⟩ := Prod.mk.inj same
  obtain ⟨body, content, number, rfl, decoded, read, progress⟩ :=
    of_readProject_ok (Prod.ext well.symm rfl)
  exact ⟨body, content, number, rfl, decoded, read,
    congrArg (fun progress => { manager with progress }) progress⟩

/-- Reading the text of the feed changes nothing but its number. -/
theorem of_ends_loadRemote_ok
    (ends : Ends ((onProgress (Progress.loadRemote feed)).starting manager) exchanges
      (.ok (), after)) :
    ∃ remote : Nat, remote ≤ Number.maxSigned64 ∧
      after = { manager with progress := { manager.progress with remote } } := by
  rw [Activity.starting_onProgress, starting_loadRemote, Dialogue.bind_assoc] at ends
  obtain ⟨_, fetched, _, -, -, ended⟩ := ends_bind_iff.mp ends
  obtain ⟨-, same⟩ := ends_done_iff.mp ended
  obtain ⟨well, rfl⟩ := Prod.mk.inj same
  obtain ⟨remote, small, progress⟩ := of_readFeed_ok (Prod.ext well.symm rfl)
  exact ⟨remote, small, congrArg (fun progress => { manager with progress }) progress⟩

/-- After loads that end well the manager knows the number of the text and that of its feed. -/
theorem numbers_of_loads
    (ends : Ends ((loadBoth feed).starting manager) exchanges (.ok (), after))
    (passage : Passage (aloneWith torn manager.progress.project) scene exchanges last) :
    ∃ number remote : Nat, scene.number? = some number ∧
      Marker.read? after.progress.content = some number ∧ after.progress.current = number ∧
      after.progress.remote = remote ∧ remote ≤ Number.maxSigned64 := by
  obtain ⟨_, ⟨⟩, between, _, rfl, loads, fetches⟩ := Activity.ends_bind_ok_iff.mp ends
  obtain ⟨body, content, number, rfl, decoded, read, rfl⟩ := of_ends_load_ok loads
  obtain ⟨remote, small, rfl⟩ := of_ends_loadRemote_ok fetches
  obtain ⟨_, ⟨⟨-, -, newest⟩, -⟩, -⟩ := passage_cons_iff.mp passage
  refine ⟨number, remote, ?_, read, rfl, rfl, small⟩
  rw [Scene.number?, newest body rfl rfl, Option.bind_some, Progress.numberOf?, decoded,
    Option.bind_some, String.toList_ofList, read]

end Loads

/-! ## Commits -/

/-- How many cycles there are to run, by the two numbers and the commits that are left. -/
def due (number remote : Nat) : Option Nat → Nat
  | none => remote - number
  | some remaining => min (remote - number) remaining

theorem due_of_finished {number remote : Nat} (finished : manager.progress.isFinished = true)
    (current : manager.progress.current = number) (reached : manager.progress.remote = remote) :
    due number remote manager.progress.remaining = 0 := by
  simp only [Progress.isFinished, Bool.or_eq_true, Progress.hasReachedLimit, beq_iff_eq,
    Progress.isUpToDate, decide_eq_true_eq, current, reached] at finished
  rcases finished with limit | upToDate
  · rw [limit]
    exact Nat.min_zero _
  · have none : remote - number = 0 := by omega
    cases manager.progress.remaining with
    | none => exact none
    | some remaining =>
        rw [due, none]
        exact Nat.zero_min _

theorem due_of_unfinished {number remote : Nat} (unfinished : Unfinished manager)
    (current : manager.progress.current = number) (reached : manager.progress.remote = remote) :
    number + 1 ≤ remote ∧ due number remote manager.progress.remaining =
      due (number + 1) remote (manager.progress.remaining.map (· - 1)) + 1 := by
  simp only [Unfinished, Progress.isFinished, Bool.or_eq_false_iff, Progress.hasReachedLimit,
    beq_eq_false_iff_ne, Progress.isUpToDate, decide_eq_false_iff_not, current, reached]
    at unfinished
  obtain ⟨limit, behind⟩ := unfinished
  refine ⟨by omega, ?_⟩
  cases left : manager.progress.remaining with
  | none =>
      simp only [due, Option.map_none]
      omega
  | some remaining =>
      have some : remaining ≠ 0 := fun zero => limit (zero ▸ left)
      simp only [due, Option.map_some]
      omega

/-- Where nothing is due, no cycle is run. -/
theorem Cycles.of_nothing_due {number remote : Nat}
    (cycles : Cycles setup feed manager exchanges outcome after)
    (current : manager.progress.current = number) (reached : manager.progress.remote = remote)
    (nothing : due number remote manager.progress.remaining = 0) :
    exchanges = [] ∧ outcome = .ok () := by
  have finished : manager.progress.isFinished = true := by
    by_contra unfinished
    have more := (due_of_unfinished ((Bool.not_eq_true _).mp unfinished) current reached).2
    omega
  cases cycles with
  | finished _ => exact ⟨rfl, rfl⟩
  | failed unfinished _ => exact (Bool.eq_false_iff.mp unfinished finished).elim
  | next unfinished _ _ => exact (Bool.eq_false_iff.mp unfinished finished).elim

/--
Cycles that were committed one after the other from a number on: each is a complete attempt at
the next number and the put of a text with this number.
-/
inductive Series (setup : Setup) (order : Manager) (feed : String) :
    Nat → Nat → List (Exchange collaborators) → Prop where
  | nil (number : Nat) : Series setup order feed number 0 []
  | cons {number count : Nat} {attempt later : List (Exchange collaborators)} {body : Bytes}
      (attempted : Attempt setup order (number + 1) feed attempt)
      (next : Progress.numberOf? body = some (number + 1))
      (rest : Series setup order feed (number + 1) count later) :
      Series setup order feed number (count + 1)
        (attempt ++ Inquiry.answered (.putObject order.progress.key body) (Except.ok ()) :: later)

/-- A manager that knows the text of its project, within the surroundings as they are. -/
structure Informed (order manager : Manager) (scene : Scene) (number remote : Nat) : Prop where
  same : SameOrder order manager
  limited : Limited manager
  content : Marker.read? manager.progress.content = some number
  current : manager.progress.current = number
  reached : manager.progress.remote = remote
  small : remote ≤ Number.maxSigned64
  stored : scene.number? = some number

section Commits

variable {torn : Prop} {scene last : Scene} {number remote : Nat}

theorem Informed.next (informed : Informed order manager scene number remote) :
    manager.progress.next = number + 1 := by
  rw [Progress.next, informed.current]
  exact Int.toNat_natCast (number + 1)

theorem Informed.key (informed : Informed order manager scene number remote) :
    manager.progress.key = order.progress.key :=
  congrArg Progress.keyOf informed.same.project

/-- The text with the next number has this number, as a text and as it is stored. -/
theorem Informed.nextContent (informed : Informed order manager scene number remote)
    (behind : number + 1 ≤ remote) :
    Marker.read? manager.progress.nextContent = some (number + 1) ∧
      Progress.numberOf? (Utf8.encodeChars manager.progress.nextContent) = some (number + 1) := by
  have read : Marker.read? manager.progress.nextContent = some (number + 1) := by
    rw [Progress.nextContent, informed.next]
    exact Marker.read?_withNumber informed.content (Nat.le_trans behind informed.small)
  refine ⟨read, ?_⟩
  rw [Progress.numberOf?, Utf8.decode?_encodeChars, Option.bind_some, String.toList_ofList, read]

/-- A commit brings the manager, the text and the limit one number on. -/
theorem Informed.committed (informed : Informed order manager scene number remote)
    (unfinished : Unfinished manager)
    (commits : Ends ((appendNext setup feed).starting manager) exchanges (.ok (), between))
    (passage : Passage (aloneWith torn order.progress.project) scene exchanges last) :
    Informed order between last (number + 1) remote ∧
      between.progress.remaining = manager.progress.remaining.map (· - 1) ∧
      ∃ attempt body, Attempt setup order (number + 1) feed attempt ∧
        Progress.numberOf? body = some (number + 1) ∧
        exchanges = attempt ++
          [Inquiry.answered (.putObject order.progress.key body) (Except.ok ())] := by
  obtain ⟨rfl, attempt, attempted, rfl⟩ := committed_of_ends commits
  have behind := (due_of_unfinished unfinished informed.current informed.reached).1
  obtain ⟨read, written⟩ := informed.nextContent behind
  rw [informed.next] at attempted
  rw [informed.key] at passage ⊢
  obtain ⟨middle, works, puts⟩ := passage_append_iff.mp passage
  have stored := (texts_of_put puts).1 rfl
  have counted := counted_advanced informed.limited
  obtain ⟨remaining, down⟩ := Progress.countDown_eq manager.progress.advanced
  refine ⟨⟨informed.same.advanced, counted.limited informed.limited, ?_, ?_, ?_, informed.small, ?_⟩,
    counted.remaining, attempt, _, informed.same.attempt attempted, written, rfl⟩
  · rw [down]
    exact read
  · rw [down]
    exact congrArg (· + 1) informed.current
  · rw [down]
    exact informed.reached
  · rw [Scene.number?, stored]
    exact written

/-- A cycle that failed leaves the text; only a torn put may have stored the next number. -/
theorem Informed.failed (informed : Informed order manager scene number remote)
    (behind : number + 1 ≤ remote) {failure : Failure}
    (fails : Ends ((appendNext setup feed).starting manager) exchanges (.error failure, after))
    (passage : Passage (aloneWith torn order.progress.project) scene exchanges last) :
    after = manager ∧ (last.number? = some number ∨ torn ∧ last.number? = some (number + 1)) := by
  obtain ⟨rfl, -⟩ := failed_of_ends fails
  rw [← informed.same.project] at passage
  refine ⟨rfl, ?_⟩
  rcases texts_of_failed fails passage with same | ⟨tears, stored⟩
  · refine .inl ?_
    rw [Scene.number?, same]
    exact informed.stored
  · refine .inr ⟨tears, ?_⟩
    rw [Scene.number?, stored]
    exact (informed.nextContent behind).2

/--
What a batch that had some cycles to run came to, with `count` of them committed: those in
front, and after them at most the exchanges of a cycle that failed.
-/
structure Batched (setup : Setup) (order : Manager) (feed : String) (torn : Prop) (number : Nat)
    (cycles : Nat) (loaded : Manager) (exchanges : List (Exchange collaborators))
    (outcome : Except Failure Unit) (after : Manager) (last : Scene) (count : Nat) : Prop where
  said : ∃ committed rest, exchanges = committed ++ rest ∧
    Series setup order feed number count committed ∧
    match outcome with
    | .ok _ => rest = []
    | .error failure => Ends ((appendNext setup feed).starting after) rest (.error failure, after)
  current : after.progress.current = number + count
  reached : after.progress.remote = loaded.progress.remote
  remaining : after.progress.remaining = loaded.progress.remaining.map (· - count)
  /-- A batch that ended well ran all cycles that there were to run. -/
  well : outcome = .ok () → count = cycles ∧ last.number? = some (number + count)
  /-- A batch that failed has run fewer; a put that failed stored nothing, unless it was torn. -/
  failed : ∀ failure, outcome = .error failure → count < cycles ∧
    (last.number? = some (number + count) ∨ torn ∧ last.number? = some (number + count + 1))

/-- The loop of an informed manager comes to what is due. -/
theorem Informed.batched (informed : Informed order manager scene number remote)
    (cycles : Cycles setup feed manager exchanges outcome after)
    (passage : Passage (aloneWith torn order.progress.project) scene exchanges last) :
    ∃ count, Batched setup order feed torn number (due number remote manager.progress.remaining)
      manager exchanges outcome after last count := by
  induction cycles generalizing scene number with
  | @finished manager finished =>
      obtain rfl := passage_nil_iff.mp passage
      refine ⟨0, ⟨[], [], rfl, .nil number, rfl⟩, informed.current, rfl, ?_, fun _ => ⟨?_, ?_⟩, nofun⟩
      · exact (Counted.refl manager).remaining
      · exact (due_of_finished finished informed.current informed.reached).symm
      · exact informed.stored
  | @failed manager after said failure unfinished fails =>
      obtain ⟨behind, more⟩ := due_of_unfinished unfinished informed.current informed.reached
      obtain ⟨rfl, stored⟩ := informed.failed behind fails passage
      refine ⟨0, ⟨[], said, rfl, .nil number, fails⟩, informed.current, rfl, ?_, nofun, ?_⟩
      · exact (Counted.refl after).remaining
      · rintro _ -
        exact ⟨by omega, stored⟩
  | @next manager between after said later outcome unfinished commits rest ih =>
      obtain ⟨middle, first, further⟩ := passage_append_iff.mp passage
      obtain ⟨-, more⟩ := due_of_unfinished unfinished informed.current informed.reached
      obtain ⟨next, left, attempt, body, attempted, numbered, rfl⟩ :=
        informed.committed unfinished commits first
      obtain ⟨count, ⟨committed, failed, rfl, series, ended⟩, current, reached, remaining, well,
        fewer⟩ := ih next further
      have shifted : number + 1 + count = number + (count + 1) := by omega
      rw [shifted] at well fewer
      rw [left] at well fewer remaining
      refine ⟨count + 1, ⟨_, failed, ?_, .cons attempted numbered series, ended⟩, ?_, ?_, ?_, ?_, ?_⟩
      · simp only [List.append_assoc, List.cons_append, List.nil_append]
      · rw [current]
        push_cast
        omega
      · rw [reached, next.reached, informed.reached]
      · rw [remaining, Option.map_map]
        refine congrArg (manager.progress.remaining.map ·) (funext fun remaining => ?_)
        show remaining - 1 - count = remaining - (count + 1)
        omega
      · intro ok
        obtain ⟨all, stored⟩ := well ok
        exact ⟨by omega, stored⟩
      · intro failure fails
        obtain ⟨some, stored⟩ := fewer failure fails
        exact ⟨by omega, stored⟩

end Commits

/-! ## Batches of managers that were called before -/

variable {past : List (Exchange collaborators)}

theorem limited_fresh : Limited .fresh := by
  intro remaining left
  cases left

/-- However a manager was called before, its commits are limited by what was asked for. -/
theorem limited_of_history
    (history : History recorded setup (fun _ _ _ _ => True) .fresh [] manager past) :
    Limited manager := by
  induction history with
  | start => exact limited_fresh
  | @call manager after state last call outcome _ run _ limited =>
      cases call with
      | prepare assignment =>
          have prepares := (keeps_prepare_progress (σ := List (Exchange collaborators))).leads run
          split at prepares
          case h_1 =>
            obtain rfl : after = manager := congrArg Prod.snd prepares
            exact limited
          case h_2 =>
            have begun : after.progress = _ := prepares
            intro remaining left
            rw [begun] at left ⊢
            exact ⟨remaining, left, Nat.le_refl remaining⟩
      | drive | next | stop =>
          obtain ⟨exchanges, rfl, ends⟩ := ends_of_leads run rfl
          exact (counted_of_course limited (course_of_ends_call rfl ends)).limited limited

/--
What a batch comes to while nobody else writes the progress text, whatever was called before and
however the collaborators answer. Loads that fail leave the text. After loads that find the
project at `number`, its feed at `remote` and a budget, the loop ends: any bound on its cycles
from the distance on is as good as none. A batch that ends well has committed as many cycles as
are due, each one a complete attempt, and one that fails has committed fewer; number, text and
budget are counted on by those that it committed. Without anything due nothing is said after the
loads. No cycle begins with a number from which adding one leads beyond the feed.
-/
theorem batch_commits_what_is_due (torn : Prop) {scene last : Scene}
    (called : History recorded setup (fun _ _ _ _ => True) .fresh [] manager past)
    (run : Leads (aloneWith torn manager.progress.project) ((appendAll setup feed).starting manager)
      scene (.done (outcome, after)) last) :
    (∃ failure said, outcome = .error failure ∧ last.past = scene.past ++ said ∧
      Ends ((loadBoth feed).starting manager) said (.error failure, after) ∧
      last.texts = scene.texts) ∨
    ∃ (number remote : Nat) (loaded : Manager) (loads cycles : List (Exchange collaborators)),
      last.past = scene.past ++ (loads ++ cycles) ∧
      Ends ((loadBoth feed).starting manager) loads (.ok (), loaded) ∧
      (∀ exchange ∈ loads, Looks manager.progress.project feed exchange.question) ∧
      scene.number? = some number ∧ loaded.progress.current = number ∧
      loaded.progress.remote = remote ∧ remote ≤ Number.maxSigned64 ∧
      loaded.progress.remaining = manager.progress.remaining ∧
      (∀ bound, remote - number ≤ bound → (appendUpTo setup feed bound).starting loaded =
        (appendUpTo setup feed (remote - number)).starting loaded) ∧
      Cycles setup feed loaded cycles outcome after ∧
      (∃ count, Batched setup manager feed torn number
        (due number remote manager.progress.remaining) loaded cycles outcome after last count) ∧
      (due number remote manager.progress.remaining = 0 → cycles = [] ∧ outcome = .ok ()) ∧
      Course setup
        (fun begun => begun.progress.current + 1 ≤ begun.progress.remote ∧
          begun.progress.remote = remote)
        loaded cycles after := by
  obtain ⟨exchanges, ends, passage⟩ := exists_passage_of_leads run rfl
  have said := past_of_passage passage
  rcases Activity.of_ends_bind ends with
    ⟨failure, rfl, loads⟩ | ⟨front, ⟨⟩, loaded, back, rfl, loads, rest⟩
  · exact .inl ⟨failure, exchanges, rfl, said, loads, texts_of_loads loads passage⟩
  obtain ⟨middle, first, further⟩ := passage_append_iff.mp passage
  obtain ⟨number, remote, stored, content, current, reached, small⟩ := numbers_of_loads loads first
  have rereads := rereads_of_ends_loadBoth loads
  have counted := rereads.counted
  have left : loaded.progress.remaining = manager.progress.remaining :=
    counted.remaining.trans (Counted.refl manager).remaining.symm
  have distance : loaded.distance = remote - number := by
    rw [Manager.distance, current, reached]
    omega
  have informed : Informed manager loaded middle number remote :=
    ⟨rereads.sameOrder, counted.limited (limited_of_history called), content, current, reached,
      small, by rw [Scene.number?, texts_of_loads loads first]; exact stored⟩
  rw [Activity.starting_get_bind] at rest
  have cycles : Cycles setup feed loaded back outcome after :=
    cycles_of_ends (Nat.le_refl loaded.distance) rest
  obtain ⟨count, batched⟩ := informed.batched cycles further
  rw [left] at batched
  refine .inr ⟨number, remote, loaded, front, back, said, loads, looks_of_ends_loadBoth loads, stored,
    current, reached, small, left, ?_, cycles, ⟨count, batched⟩, ?_, reached ▸ cycles.course⟩
  · intro bound enough
    exact starting_appendUpTo_eq (by omega) (by omega)
  · intro nothing
    rw [← left] at nothing
    exact cycles.of_nothing_due current reached nothing

theorem aloneWith_obligingly (torn : Prop) (project : String) (question : Inquiry) (scene : Scene) :
    aloneWith torn project scene question (obligingly project question scene).1
      (obligingly project question scene).2 := by
  refine ⟨⟨rfl, writes_obliging project scene.texts question⟩, fun _ => ?_⟩
  cases question with
  | putObject key body =>
      intro failed
      cases failed
  | _ => trivial

/-- A batch of the town from 0 with a limit of one commit, while its feed is at 2. -/
def shortBatch : Dialogue collaborators (Except Failure Unit × Manager) × Scene :=
  ((appendAll townSetup "feed").starting singleManager).advance (P := collaborators)
    (obligingly "town") 20 ⟨[], [Utf8.encode "sequenceNumber=0"]⟩

/-- Of two cycles to the feed the batch runs the only one that is allowed. -/
theorem shortBatch_stops_at_limit : ∃ after loaded cycles,
    shortBatch.1 = .done (.ok (), after) ∧
      Batched townSetup singleManager "feed" False 0 1 loaded cycles (.ok ()) after shortBatch.2 1 ∧
      after.progress.current = 1 ∧ after.progress.remote = 2 ∧
      after.progress.remaining = some 0 ∧ shortBatch.2.number? = some 1 := by
  obtain ⟨preparation, prepares⟩ := singleManager_prepared
  have called : History recorded townSetup (fun _ _ _ _ => True) .fresh [] singleManager
      preparation := by
    have run : Leads recorded
        (((Call.prepare ⟨"town", [roads], [.objectStore], some 1⟩).work townSetup).starting .fresh)
        [] (.done (.ok (), singleManager)) preparation := leads_of_ends prepares
    exact .call .start run trivial
  have ended : (shortBatch.1.value?.map fun result => (result.1.toBool, result.2.progress.remote)) =
      some (true, 2) := by decide +kernel
  obtain ⟨⟨outcome, after⟩, value, final⟩ := Option.map_eq_some_iff.mp ended
  obtain ⟨well, feed⟩ := Prod.mk.inj final
  have finished := eq_done_of_value? value
  have run : Leads (aloneWith False "town") ((appendAll townSetup "feed").starting singleManager)
      ⟨[], [Utf8.encode "sequenceNumber=0"]⟩ shortBatch.1 shortBatch.2 :=
    leads_advance (aloneWith_obligingly False "town") 20 _ _
  rw [finished] at run
  rcases batch_commits_what_is_due False called run with
    ⟨failure, _, rfl, -⟩ |
    ⟨number, remote, loaded, _, cycles, -, -, -, stored, current, reached, -, left, -, -,
      ⟨count, batched⟩, -, -⟩
  · cases well
  obtain rfl : number = 0 := by
    have zero : Scene.number? ⟨[], [Utf8.encode "sequenceNumber=0"]⟩ = some 0 := by decide +kernel
    exact Option.some.inj (stored.symm.trans zero)
  obtain rfl : remote = 2 := by
    have two := batched.reached.symm.trans feed
    rw [reached] at two
    exact Int.ofNat.inj two
  cases outcome with
  | error failure => cases well
  | ok _ =>
      obtain ⟨rfl, counted⟩ := batched.well rfl
      have remaining := batched.remaining
      rw [left] at remaining
      exact ⟨after, loaded, cycles, finished, batched, batched.current, feed, remaining, counted⟩

end MapReplica.Update
