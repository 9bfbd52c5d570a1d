import MapReplica.Proofs.Update.Batches

/-!
# What a failed cycle leaves behind

A cycle may fail with its download, its merge, an entity's application or upload, or with
the put of the progress text. However it fails, its manager and the progress text are as
before, and whether it fails or not, its files are removed at last, and no others. The
tools are ended once if it failed before the put, and not at all otherwise.
-/

namespace MapReplica.Update

open Dialogue

variable {setup : Setup} {manager after : Manager} {feed : String}
variable {exchanges front back : List (Exchange collaborators)} {outcome : Except Failure Unit}

/-! ## Terminations and removals -/

/-- Whether an exchange ended the tools. -/
def isTermination : Exchange collaborators → Bool
  | ⟨.terminateTools, _⟩ => true
  | _ => false

/-- How often the tools were ended. -/
def terminationsIn (exchanges : List (Exchange collaborators)) : Nat :=
  exchanges.countP isTermination

/-- The path that was to be removed in an exchange. -/
def removal? : Exchange collaborators → Option Path
  | ⟨.removeFile path, _⟩ => some path
  | _ => none

/-- The paths that were to be removed, in their order. -/
def removalsIn (exchanges : List (Exchange collaborators)) : List Path :=
  exchanges.filterMap removal?

/-- The inquiries that neither end tools nor remove a file. -/
def Keeping : Inquiry → Prop
  | .terminateTools => False
  | .removeFile _ => False
  | _ => True

theorem counts_of_keeping (keeping : ∀ exchange ∈ exchanges, Keeping exchange.question) :
    terminationsIn exchanges = 0 ∧ removalsIn exchanges = [] := by
  constructor
  · rw [terminationsIn, List.countP_eq_zero]
    intro exchange member
    have keeps := keeping exchange member
    obtain ⟨question, answer⟩ := exchange
    cases question with
    | terminateTools => exact keeps.elim
    | _ => exact Bool.false_ne_true
  · rw [removalsIn, List.filterMap_eq_nil_iff]
    intro exchange member
    have keeps := keeping exchange member
    obtain ⟨question, answer⟩ := exchange
    cases question with
    | removeFile path => exact keeps.elim
    | _ => rfl

/-- The work of a cycle ends no tools and removes no files. -/
theorem keeping_of_cycle {sequence : Nat}
    (works : Ends (cycle setup manager feed sequence).run exchanges outcome) :
    ∀ exchange ∈ exchanges, Keeping exchange.question := by
  have asks : (cycle setup manager feed sequence).run.Asks Keeping :=
    asks_cycle_of trivial (fun _ _ => trivial) (fun _ => trivial) trivial
      (fun _ _ _ _ => trivial) (fun _ _ => trivial) (fun _ _ _ => trivial) fun _ => trivial
  exact asks.of_ends works

/-- Where the files of a cycle are removed, these are all removals, and no tools are ended. -/
theorem counts_of_cleared {sequence : Nat} (clears : Cleared setup manager sequence exchanges) :
    terminationsIn exchanges = 0 ∧ removalsIn exchanges =
      artifacts setup.workDirectory manager.progress.project manager.entities sequence := by
  unfold Cleared at clears
  generalize artifacts setup.workDirectory manager.progress.project manager.entities sequence =
    paths at clears ⊢
  induction clears with
  | nil => exact ⟨rfl, rfl⟩
  | cons removed _ ih =>
      obtain ⟨answer, rfl⟩ := removed
      obtain ⟨none, rest⟩ := ih
      exact ⟨none, congrArg (_ :: ·) rest⟩

theorem terminationsIn_append :
    terminationsIn (front ++ back) = terminationsIn front + terminationsIn back :=
  List.countP_append

theorem removalsIn_append : removalsIn (front ++ back) = removalsIn front ++ removalsIn back :=
  List.filterMap_append

/-! ## Files -/

/-- What was said, the progress texts, and the paths that lead to a regular file. -/
structure Premises where
  scene : Scene
  regular : Set Path

/--
What an answer says about the regular files. A removal succeeds where there is one, and if it
succeeds there is none; it makes no other. An object is no file. All other work may make and
remove files at will.
-/
def Leaves (regular : Set Path) : (question : Inquiry) → question.Answer → Set Path → Prop
  | .removeFile path, (answer : Except FileFault Unit), after =>
      after ⊆ regular ∧ (path ∈ regular → answer.toBool = true) ∧
        (answer.toBool = true → path ∉ after)
  | .putObject _ _, _, after => after = regular
  | _, _, _ => True

/--
Collaborators that answer anything, but let nobody else write the progress text of a project,
store nothing with a put that failed, and remove every regular file that is to be removed.
-/
def reliable (project : String) : Surroundings collaborators Premises :=
  fun before question answer after =>
    aloneWith False project before.scene question answer after.scene ∧
      Leaves before.regular question answer after.regular

section Premises

variable {project : String} {first last : Premises}

/-- After its removal a path leads to no regular file, and no other path leads to a new one. -/
theorem irregular_of_removal {path : Path} {answer : Except FileFault Unit} {regular after : Set Path}
    (leaves : Leaves regular (.removeFile path) answer after) : after ⊆ regular ∧ path ∉ after := by
  obtain ⟨fewer, possible, gone⟩ := leaves
  exact ⟨fewer, fun still => gone (possible (fewer still)) still⟩

/-- After the removal of its files a cycle has left no regular file. -/
theorem irregular_of_cleared {sequence : Nat} (clears : Cleared setup manager sequence exchanges)
    (passage : Passage (reliable project) first exchanges last) :
    ∀ path ∈ artifacts setup.workDirectory manager.progress.project manager.entities sequence,
      path ∉ last.regular := by
  unfold Cleared at clears
  generalize artifacts setup.workDirectory manager.progress.project manager.entities sequence =
    paths at clears ⊢
  -- A file that is gone stays away only because no later removal makes one.
  suffices last.regular ⊆ first.regular ∧ ∀ path ∈ paths, path ∉ last.regular from this.2
  induction clears generalizing first with
  | nil =>
      obtain rfl := passage_nil_iff.mp passage
      exact ⟨fun _ still => still, nofun⟩
  | cons removed _ ih =>
      obtain ⟨answer, rfl⟩ := removed
      obtain ⟨between, ⟨-, leaves⟩, rest⟩ := passage_cons_iff.mp passage
      obtain ⟨fewer, gone⟩ := irregular_of_removal leaves
      obtain ⟨less, others⟩ := ih rest
      exact ⟨fun _ still => fewer (less still),
        List.forall_mem_cons.mpr ⟨fun still => gone (less still), others⟩⟩

theorem regular_of_put {key : String} {body : Bytes} {answer : Except Failure Unit}
    (passage : Passage (reliable project) first
      [Inquiry.answered (.putObject key body) answer] last) :
    last.regular = first.regular := by
  obtain ⟨_, ⟨-, same⟩, rest⟩ := passage_cons_iff.mp passage
  obtain rfl := passage_nil_iff.mp rest
  exact same

/-- The premises without their files. -/
theorem Premises.passage (passage : Passage (reliable project) first exchanges last) :
    Passage (aloneWith False project) first.scene exchanges last.scene :=
  passage.map Premises.scene fun _ _ _ _ answered => answered.1

end Premises

/-! ## Cycles -/

/-- However a cycle ends, it removes its files and no others. -/
theorem removals_of_cycled {result : Except Failure Unit × Manager}
    (cycled : Cycled setup manager feed exchanges result) :
    removalsIn exchanges = artifacts setup.workDirectory manager.progress.project manager.entities
      manager.progress.next := by
  cases cycled with
  | failed works clears =>
      rw [removalsIn_append, (counts_of_keeping (keeping_of_cycle works)).2, List.nil_append]
      exact (counts_of_cleared clears).2
  | committed answer works clears =>
      rw [removalsIn_append, removalsIn_append, (counts_of_keeping (keeping_of_cycle works)).2,
        (counts_of_cleared clears).2]
      exact List.append_nil _

/-- A cycle that is to be committed ends no tools. -/
theorem terminations_of_attempt {worked cleared : List (Exchange collaborators)}
    {key : String} {body : Bytes} {answer : Except Failure Unit}
    (works : Ends (cycle setup manager feed manager.progress.next).run worked (.ok ()))
    (clears : Cleared setup manager manager.progress.next cleared) :
    terminationsIn (worked ++ cleared ++ [Inquiry.answered (.putObject key body) answer]) = 0 := by
  rw [terminationsIn_append, terminationsIn_append, (counts_of_keeping (keeping_of_cycle works)).1,
    (counts_of_cleared clears).1]
  rfl

/-- However a cycle ends, it has left no file. -/
theorem irregular_of_cycled {result : Except Failure Unit × Manager} {project : String}
    {first last : Premises} (cycled : Cycled setup manager feed exchanges result)
    (passage : Passage (reliable project) first exchanges last) :
    ∀ path ∈ artifacts setup.workDirectory manager.progress.project manager.entities
      manager.progress.next, path ∉ last.regular := by
  cases cycled with
  | failed works clears =>
      obtain ⟨_, -, ending⟩ := passage_append_iff.mp passage
      obtain ⟨_, -, removing⟩ := passage_cons_iff.mp ending
      exact irregular_of_cleared clears removing
  | committed answer works clears =>
      obtain ⟨_, working, putting⟩ := passage_append_iff.mp passage
      obtain ⟨_, -, removing⟩ := passage_append_iff.mp working
      -- The removals come before the put, which changes objects only.
      rw [regular_of_put putting]
      exact irregular_of_cleared clears removing

/--
How a cycle can have failed. Its work failed: then its tools were ended once, its files removed,
and nothing was put as progress text. Or the put of the progress text failed after a whole
attempt: then its tools were not ended.
-/
inductive FailedCycle (setup : Setup) (manager : Manager) (feed : String) (failure : Failure)
    (said : List (Exchange collaborators)) : Prop where
  | work (worked cleared : List (Exchange collaborators))
      (fails : Ends (cycle setup manager feed manager.progress.next).run worked (.error failure))
      (clears : Cleared setup manager manager.progress.next cleared)
      (whole : said = worked ++ Inquiry.answered .terminateTools () :: cleared)
      (ended : terminationsIn said = 1)
      (spare : ∀ exchange ∈ said, Inquiry.SparesProgress exchange.question)
  | put (attempt : List (Exchange collaborators))
      (attempted : Attempt setup manager manager.progress.next feed attempt)
      (whole : said = attempt ++ [Inquiry.answered (.putObject manager.progress.key
        (Utf8.encodeChars manager.progress.nextContent)) (Except.error failure)])
      (running : terminationsIn said = 0)

theorem failedCycle_of_cycled {failure : Failure}
    (cycled : Cycled setup manager feed exchanges (.error failure, after)) :
    FailedCycle setup manager feed failure exchanges := by
  obtain ⟨-, worked, cleared, clears, ⟨works, rfl⟩ | ⟨works, rfl⟩⟩ := cycled.of_error
  · refine .work worked cleared works clears rfl ?_ ?_
    · have ended : terminationsIn (Inquiry.answered .terminateTools () :: cleared) =
          terminationsIn cleared + 1 := List.countP_cons_of_pos rfl
      rw [terminationsIn_append, ended, (counts_of_keeping (keeping_of_cycle works)).1,
        (counts_of_cleared clears).1]
    · refine List.forall_mem_append.mpr ⟨spares_of_cycle works, ?_⟩
      exact List.forall_mem_cons.mpr ⟨trivial, spares_of_cleared clears⟩
  · exact .put (worked ++ cleared) ⟨worked, cleared, rfl, performed_of_ends works, clears⟩ rfl
      (terminations_of_attempt works clears)

/--
What a cycle leaves behind, however the collaborators answer. If it fails, its manager and the
progress text are as before; its tools were ended once if it failed before the put of the progress
text, and not at all if it failed with it. A cycle that ends well ends no tools either. In every
case its files are removed, and no others, and none of them is left as a regular file.
-/
theorem failed_cycle_leaves_no_trace {first last : Premises}
    (run : Leads (reliable manager.progress.project) ((appendNext setup feed).starting manager) first
      (.done (outcome, after)) last) :
    ∃ said, last.scene.past = first.scene.past ++ said ∧
      (∀ failure, outcome = .error failure →
        after = manager ∧ last.scene.texts = first.scene.texts ∧
          FailedCycle setup manager feed failure said) ∧
      (outcome = .ok () → terminationsIn said = 0) ∧
      removalsIn said = artifacts setup.workDirectory manager.progress.project manager.entities
        manager.progress.next ∧
      ∀ path ∈ artifacts setup.workDirectory manager.progress.project manager.entities
        manager.progress.next, path ∉ last.regular := by
  obtain ⟨said, ends, passage⟩ := exists_passage_of_leads run rfl
  have cycled := cycled_of_ends ends
  have scenes := Premises.passage passage
  refine ⟨said, past_of_passage scenes, ?_, ?_, removals_of_cycled cycled,
    irregular_of_cycled cycled passage⟩
  · rintro failure rfl
    refine ⟨(failed_of_ends ends).1, ?_, failedCycle_of_cycled cycled⟩
    rcases texts_of_failed ends scenes with same | ⟨torn, -⟩
    · exact same
    · exact torn.elim
  · rintro rfl
    obtain ⟨-, worked, cleared, works, clears, rfl⟩ := cycled.of_ok
    exact terminations_of_attempt works clears

/-- Obliging collaborators, but for merges that break off. -/
def unmerging (texts : List Bytes) : (question : Inquiry) → question.Answer
  | .merge _ _ => (.error (.mergeTool (some 1) "broken off") : Except Failure Unit)
  | question => obliging texts question

/-- The regular files after a write, a merge that breaks off with half of its output, or a removal. -/
def filed (regular : Set Path) : Inquiry → Set Path
  | .writeFile path _ => regular ∪ {path}
  | .merge _ output => regular ∪ {output}
  | .removeFile path => regular \ {path}
  | _ => regular

/-- These collaborators for a town, with a record, the progress texts and the regular files. -/
def unmergingly (question : Inquiry) (now : Premises) : question.Answer × Premises :=
  (unmerging now.scene.texts question,
    ⟨⟨now.scene.past ++ [Inquiry.answered question (unmerging now.scene.texts question)],
      putInto "town" now.scene.texts question⟩, filed now.regular question⟩)

theorem reliable_unmergingly (question : Inquiry) (now : Premises) :
    reliable "town" now question (unmergingly question now).1 (unmergingly question now).2 := by
  cases question with
  | merge input output => exact ⟨⟨⟨rfl, rfl⟩, fun _ => trivial⟩, trivial⟩
  | putObject key body =>
      refine ⟨⟨⟨rfl, writes_obliging "town" now.scene.texts (.putObject key body)⟩, fun _ => ?_⟩, rfl⟩
      intro failed
      cases failed
  | removeFile path =>
      refine ⟨⟨⟨rfl, rfl⟩, fun _ => trivial⟩, ?_⟩
      exact ⟨fun _ still => still.1, fun _ => rfl, fun _ still => still.2 rfl⟩
  | getObject key =>
      exact ⟨⟨⟨rfl, writes_obliging "town" now.scene.texts (.getObject key)⟩, fun _ => trivial⟩,
        trivial⟩
  | _ => exact ⟨⟨⟨rfl, rfl⟩, fun _ => trivial⟩, trivial⟩

/-- The manager of the town that has loaded that its project is at 1 and its feed at 2. -/
def behindManager : Manager :=
  { townManager with
    progress :=
      { project := "town", start := 1, current := 1, remote := 2
        content := "sequenceNumber=1".toList } }

/-- A cycle whose merge breaks off. -/
def brokenCycle : Dialogue collaborators (Except Failure Unit × Manager) × Premises :=
  ((appendNext townSetup "feed").starting behindManager).advance (P := collaborators)
    unmergingly 20 ⟨⟨[], [firstText]⟩, ∅⟩

/-- The diff and half of the merged diff are removed, the tools ended, and the project is at 1. -/
theorem brokenCycle_leaves_no_trace : ∃ failure,
    brokenCycle.1 = .done (.error failure, behindManager) ∧
      FailedCycle townSetup behindManager "feed" failure brokenCycle.2.scene.past ∧
      terminationsIn brokenCycle.2.scene.past = 1 ∧ brokenCycle.2.scene.texts = [firstText] ∧
      (removalsIn brokenCycle.2.scene.past).length = 3 ∧
      diffPath townSetup.workDirectory 2 ∉ brokenCycle.2.regular ∧
      mergedPath townSetup.workDirectory 2 ∉ brokenCycle.2.regular := by
  have ended : (brokenCycle.1.value?.map fun result => result.1.toBool) = some false := by
    decide +kernel
  obtain ⟨⟨outcome, after⟩, value, failed⟩ := Option.map_eq_some_iff.mp ended
  have finished := eq_done_of_value? value
  have run : Leads (reliable behindManager.progress.project)
      ((appendNext townSetup "feed").starting behindManager) ⟨⟨[], [firstText]⟩, ∅⟩
      brokenCycle.1 brokenCycle.2 :=
    leads_advance reliable_unmergingly 20 _ _
  rw [finished] at run
  obtain ⟨said, past, fails, -, removes, irregular⟩ := failed_cycle_leaves_no_trace run
  rw [List.nil_append] at past
  subst past
  cases outcome with
  | ok _ => cases failed
  | error failure =>
      obtain ⟨rfl, texts, failing⟩ := fails failure rfl
      refine ⟨failure, finished, failing, by decide +kernel, texts, ?_, ?_, ?_⟩
      · rw [removes]
        rfl
      · exact irregular _ List.mem_cons_self
      · exact irregular _ (List.mem_cons_of_mem _ List.mem_cons_self)

end MapReplica.Update
