import Mathlib.Logic.Function.Basic
import MapReplica.Proofs.Update.CommitSafety
import MapReplica.Proofs.Update.Disk

/-!
# Sharing a directory

Any number of projects run cycles on one disk, each one cycle at a time. They move one at
a time, by one answer of a collaborator. As the files of a cycle are named after its
number, projects do not disturb each other as long as their cycles have different numbers
and no script lies where a cycle puts a file; otherwise a project may apply the diff of
another one, or lose a script to it.
-/

namespace MapReplica.Update

open Dialogue

/-- A project that is brought forward: what its manager was prepared as, and its feed. -/
structure Party where
  setup : Setup
  order : Manager
  feed : String
  checked : Entity.check order.entities = .ok ()

/--
What a project is doing: nothing, or a cycle, with what was said in it and what is left
of it.
-/
inductive Cycling where
  | resting
  | running (sequence : Nat) (past : List (Exchange collaborators))
      (rest : Dialogue collaborators (Except Failure Unit × Manager))

/-- The number of the cycle that a project is running. -/
def Cycling.sequence? : Cycling → Option Nat
  | .resting => none
  | .running sequence _ _ => some sequence

/-- What all projects are doing, and the files that they share. -/
structure Bench (ι : Type) where
  cycling : ι → Cycling
  files : Files

section Steps

variable {ι : Type} [DecidableEq ι] (parties : ι → Party) (directory : List String)
variable (merges : Bytes → Bytes → Prop)

/-- A step: a project begins a cycle, gets an answer in it, or is done with it. -/
inductive Bench.Step (bench : Bench ι) : Bench ι → Prop where
  | begin (who : ι) (manager : Manager) (same : SameOrder (parties who).order manager)
      (resting : bench.cycling who = .resting) :
      Step bench
        { bench with
          cycling := Function.update bench.cycling who
            (.running manager.progress.next []
              ((appendNext (parties who).setup (parties who).feed).starting manager)) }
  | answer (who : ι) {sequence : Nat} {past : List (Exchange collaborators)} {question : Inquiry}
      {next : question.Answer → Dialogue collaborators (Except Failure Unit × Manager)}
      (answer : question.Answer) (files : Files)
      (running : bench.cycling who =
        .running sequence past (.ask (P := collaborators) question next))
      (stores : Stores directory merges bench.files question answer files) :
      Step bench
        { cycling := Function.update bench.cycling who
            (.running sequence (past ++ [Inquiry.answered question answer]) (next answer))
          files }
  | finish (who : ι) {sequence : Nat} {past : List (Exchange collaborators)}
      {result : Except Failure Unit × Manager}
      (running : bench.cycling who = .running sequence past (.done result)) :
      Step bench { bench with cycling := Function.update bench.cycling who .resting }

/-- What any number of steps leads to, if all that they lead to is admitted. -/
inductive Bench.Reaches (admits : Bench ι → Prop) (first : Bench ι) : Bench ι → Prop where
  | refl : Reaches admits first first
  | step {middle last : Bench ι} :
      Reaches admits first middle → Step parties directory merges middle last → admits last →
        Reaches admits first last

/-- No two projects run cycles of the same number. -/
def Bench.Apart (bench : Bench ι) : Prop :=
  ∀ who other sequence, who ≠ other → (bench.cycling who).sequence? = some sequence →
    (bench.cycling other).sequence? ≠ some sequence

/-- The scripts of the entities of a project. -/
def Party.Script (party : Party) (path : Path) : Prop :=
  ∃ entity ∈ party.order.entities,
    party.order.resources.scriptPath (entity.scriptKey party.order.progress.project) = .ok path

/-- The files of a cycle of a project. -/
def Party.artifacts (party : Party) (sequence : Nat) : List Path :=
  Update.artifacts party.setup.workDirectory party.order.progress.project party.order.entities
    sequence

/-- The files that a cycle of a project may need: its own, and the scripts of the project. -/
def Party.Needs (party : Party) (sequence : Nat) (path : Path) : Prop :=
  path ∈ party.artifacts sequence ∨ party.Script path

/--
No project disturbs another one: what a project applies was merged from what it fetched
from its own feed in this cycle, and it removes nothing that a running cycle of another
project needs.
-/
structure Bench.Undisturbed (bench : Bench ι) : Prop where
  applies : ∀ {who sequence past arguments next},
    bench.cycling who =
        .running sequence past (.ask (P := collaborators) (.applyDiff arguments) next) →
      ∃ headers response merged,
        Inquiry.answered
            (.fetch (Diff.joinUrl (parties who).feed (Diff.path sequence)) headers)
            (Except.ok response) ∈ past ∧
          Http.isSuccess response.status = true ∧ response.complete = true ∧
          merges response.body merged ∧
          bench.files (arguments.diff.resolveFrom directory) = some merged
  removes : ∀ {who other sequence running past path needed next}, who ≠ other →
    bench.cycling who =
        .running sequence past (.ask (P := collaborators) (.removeFile path) next) →
      (bench.cycling other).sequence? = some running → (parties other).Needs running needed →
        path.resolveFrom directory ≠ needed.resolveFrom directory

end Steps

/-! ## What holds of all projects -/

section Soundness

variable {ι : Type} [DecidableEq ι] {parties : ι → Party} {directory : List String}
variable {merges : Bytes → Bytes → Prop} {bench after : Bench ι}

theorem Party.flat (party : Party) : Flat party.order.entities :=
  flat_of_check party.checked

/-- A cycle goes on as it should, and its diff lies on the disk as far as it is done. -/
def Cycling.Sound (party : Party) (directory : List String) (merges : Bytes → Bytes → Prop)
    (files : Files) : Cycling → Prop
  | .resting => True
  | .running sequence past rest =>
      rest.Keeps recorded (Tidy party.setup party.order party.feed sequence)
        (fun _ _ => True) past ∧
        (makingOf past).Lies party.setup sequence directory merges files

omit [DecidableEq ι] in
/-- What a cycle asks changes no file of a cycle with another number. -/
theorem frame_of_stores {party other : Party} {sequence number : Nat}
    {past : List (Exchange collaborators)} {question : Inquiry} {answer : question.Answer}
    {files : Files} (different : sequence ≠ number)
    (tidy : Tidy party.setup party.order party.feed sequence past question)
    (stores : Stores directory merges bench.files question answer files) {path : Path}
    (member : path ∈ other.artifacts number) :
    files (path.resolveFrom directory) = bench.files (path.resolveFrom directory) :=
  stores.1 _ fun _ written =>
    artifacts_disjoint party.flat other.flat different (tidy.1.writes written) member

/-- A step keeps all cycles sound while their numbers differ. -/
theorem sound_of_step (step : bench.Step parties directory merges after) (apart : bench.Apart)
    (sound : ∀ who, (bench.cycling who).Sound (parties who) directory merges
      bench.files) (who : ι) :
    (after.cycling who).Sound (parties who) directory merges after.files := by
  cases step with
  | begin mover manager same resting =>
      by_cases moved : who = mover
      · subst moved
        simp only [Function.update_self]
        exact ⟨keeps_tidy same rfl, trivial⟩
      · simp only [Function.update_of_ne moved]
        exact sound who
  | finish mover running =>
      by_cases moved : who = mover
      · subst moved
        simp only [Function.update_self]
        trivial
      · simp only [Function.update_of_ne moved]
        exact sound who
  | @answer mover sequence past question next answer files running stores =>
      have tidy := sound mover
      rw [running] at tidy
      by_cases moved : who = mover
      · subst moved
        simp only [Function.update_self]
        exact ⟨tidy.1.2 _ _ rfl, lies_of_stores (parties who).flat tidy.1.1 tidy.2 stores⟩
      · simp only [Function.update_of_ne moved]
        have own := sound who
        have different := apart mover who sequence (Ne.symm moved) (by rw [running]; rfl)
        revert own different
        cases bench.cycling who with
        | resting => exact fun _ _ => trivial
        | running number said rest =>
            intro own different
            have other : sequence ≠ number := fun same => different (same ▸ rfl)
            refine ⟨own.1, own.2.of_frame ?_ ?_⟩
            · exact frame_of_stores other tidy.1.1 stores diffPath_mem_artifacts
            · exact frame_of_stores other tidy.1.1 stores mergedPath_mem_artifacts

/-- All cycles are sound wherever steps lead to while their numbers differ. -/
theorem sound_of_reaches {first : Bench ι}
    (reached : Bench.Reaches parties directory merges Bench.Apart first bench)
    (resting : ∀ who, first.cycling who = .resting) :
    bench.Apart ∧
      ∀ who, (bench.cycling who).Sound (parties who) directory merges bench.files := by
  induction reached with
  | refl =>
      refine ⟨fun who _ _ _ running => ?_, fun who => ?_⟩
      · rw [resting who] at running
        cases running
      · rw [resting who]
        trivial
  | step _ step admitted ih => exact ⟨admitted, sound_of_step step ih.1 ih.2⟩

/--
Projects do not disturb each other, in any order of their steps, if no two of them run
cycles of the same number at once and no script of one lies where a cycle of another puts
a file.
-/
theorem undisturbed_of_apart {first : Bench ι}
    (scripts : ∀ who other sequence path script, who ≠ other →
      path ∈ (parties who).artifacts sequence → (parties other).Script script →
        path.resolveFrom directory ≠ script.resolveFrom directory)
    (resting : ∀ who, first.cycling who = .resting)
    (reached : Bench.Reaches parties directory merges Bench.Apart first bench) :
    bench.Undisturbed parties directory merges := by
  obtain ⟨apart, sound⟩ := sound_of_reaches reached resting
  constructor
  · intro who sequence past arguments next running
    have cycle := sound who
    rw [running] at cycle
    obtain ⟨⟨⟨asked, response, making, success, complete⟩, _⟩, lies⟩ := cycle
    obtain ⟨headers, fetched⟩ := fetched_of_makingOf (congrArg Making.source? making)
    rw [making] at lies
    obtain ⟨merged, related, there⟩ := lies
    cases asked with
    | cycle asked =>
        cases asked with
        | apply entity style member found =>
            exact ⟨headers, response, merged, fetched, success, complete, related, there⟩
  · intro who other sequence number past path needed next different running busy needs
    have cycle := sound who
    rw [running] at cycle
    have own : path ∈ (parties who).artifacts sequence :=
      cycle.1.1.1.writes List.mem_cons_self
    rcases needs with file | script
    · refine artifacts_disjoint (parties who).flat (parties other).flat ?_ own file
      rintro rfl
      exact apart who other sequence different (by rw [running]; rfl) busy
    · exact scripts who other sequence path needed different own script

end Soundness

/-! ## Neighbours -/

/--
Collaborators that do all that they are asked, and the disk after that. A feed has its
url as every diff.
-/
def obligingDisk (directory : List String) (files : Files) :
    (question : Inquiry) → question.Answer × Files
  | .fetch url _ =>
      ((.ok { status := 200, body := Utf8.encode url, complete := true } :
        Except Http.Fault Http.Response), files)
  | .writeFile path content =>
      ((.ok () : Except FileFault Unit),
        Function.update files (path.resolveFrom directory) (some content))
  | .readFile path =>
      (match files (path.resolveFrom directory) with
        | some content => (.ok content : Except FileFault Bytes)
        | none => (.error .notFound : Except FileFault Bytes), files)
  | .removeFile path =>
      ((.ok () : Except FileFault Unit), Function.update files (path.resolveFrom directory) none)
  | .merge input output =>
      match files (input.resolveFrom directory) with
      | some content =>
          ((.ok () : Except Failure Unit),
            Function.update files (output.resolveFrom directory) (some content))
      | none => ((.error (.configuration "no input") : Except Failure Unit), files)
  | question => (obliging [] question, files)

theorem stores_obligingDisk {directory : List String} {files : Files} {question : Inquiry} :
    Stores directory Eq files question (obligingDisk directory files question).1
      (obligingDisk directory files question).2 := by
  cases question with
  | writeFile path content =>
      refine ⟨fun place other => ?_, fun _ => Function.update_self ..⟩
      exact Function.update_of_ne (other path List.mem_cons_self).symm ..
  | removeFile path =>
      refine ⟨fun place other => ?_, fun _ => Function.update_self ..⟩
      exact Function.update_of_ne (other path List.mem_cons_self).symm ..
  | readFile path =>
      refine ⟨fun _ _ => rfl, fun content read => ?_⟩
      cases there : files (path.resolveFrom directory) with
      | none => simp [obligingDisk, there] at read
      | some found =>
          simp only [obligingDisk, there] at read
          cases read
          rfl
  | merge input output =>
      cases there : files (input.resolveFrom directory) with
      | none =>
          simp only [obligingDisk, there]
          refine ⟨fun _ _ => rfl, fun impossible => ?_⟩
          cases impossible
      | some content =>
          simp only [obligingDisk, there]
          refine ⟨fun place other => ?_, fun _ =>
            ⟨content, content, there, rfl, Function.update_self ..⟩⟩
          exact Function.update_of_ne (other output List.mem_cons_self).symm ..
  | _ => exact ⟨fun _ _ => rfl, trivial⟩

/-- The next step of a project among two whose collaborators oblige it. -/
def Bench.obligingStep (parties : Bool → Party) (directory : List String) (bench : Bench Bool)
    (who : Bool) : Bench Bool :=
  match bench.cycling who with
  | .resting =>
      { bench with
        cycling := Function.update bench.cycling who
          (.running (parties who).order.progress.next []
            ((appendNext (parties who).setup (parties who).feed).starting (parties who).order)) }
  | .running sequence past (.ask question next) =>
      let answered := obligingDisk directory bench.files question
      { cycling := Function.update bench.cycling who
          (.running sequence (past ++ [Inquiry.answered question answered.1]) (next answered.1))
        files := answered.2 }
  | .running _ _ (.done _) =>
      { bench with cycling := Function.update bench.cycling who .resting }

theorem step_obliging {parties : Bool → Party} {directory : List String} {bench : Bench Bool}
    {who : Bool} : bench.Step parties directory Eq (bench.obligingStep parties directory who) := by
  unfold Bench.obligingStep
  split
  case h_1 resting => exact .begin who _ (.refl _) resting
  case h_2 sequence past question next running => exact .answer who _ _ running stores_obligingDisk
  case h_3 running => exact .finish who running

/-- The cycles have the numbers after those that the orders were left at. -/
def Bench.Numbered (parties : Bool → Party) (bench : Bench Bool) : Prop :=
  ∀ who sequence, (bench.cycling who).sequence? = some sequence →
    sequence = (parties who).order.progress.next

theorem Bench.Numbered.apart {parties : Bool → Party} {bench : Bench Bool}
    (numbered : bench.Numbered parties)
    (different : (parties true).order.progress.next ≠ (parties false).order.progress.next) :
    bench.Apart := by
  intro who other sequence distinct first second
  have same := (numbered who sequence first).symm.trans (numbered other sequence second)
  cases who with
  | true =>
      cases other with
      | true => exact distinct rfl
      | false => exact different same
  | false =>
      cases other with
      | true => exact different same.symm
      | false => exact distinct rfl

theorem Bench.Numbered.obligingStep {parties : Bool → Party} {bench : Bench Bool}
    (numbered : bench.Numbered parties) (directory : List String) (mover : Bool) :
    (bench.obligingStep parties directory mover).Numbered parties := by
  intro who sequence running
  unfold Bench.obligingStep at running
  by_cases moved : who = mover
  · subst moved
    split at running
    case h_1 resting =>
      simp only [Function.update_self] at running
      cases running
      rfl
    case h_2 busy =>
      simp only [Function.update_self] at running
      cases running
      exact numbered who _ (by rw [busy]; rfl)
    case h_3 busy =>
      simp only [Function.update_self] at running
      cases running
  · refine numbered who sequence ?_
    split at running
    case h_1 => simpa only [Function.update_of_ne moved] using running
    case h_2 => simpa only [Function.update_of_ne moved] using running
    case h_3 => simpa only [Function.update_of_ne moved] using running

/-- The bench after steps of two projects, given by who moves. -/
def Bench.play (parties : Bool → Party) (directory : List String) (moves : List Bool)
    (bench : Bench Bool) : Bench Bool :=
  moves.foldl (Bench.obligingStep parties directory) bench

theorem reaches_play_of_numbered {parties : Bool → Party} {directory : List String}
    {admits : Bench Bool → Prop} {first bench : Bench Bool}
    (admitted : ∀ bench : Bench Bool, bench.Numbered parties → admits bench) (moves : List Bool)
    (numbered : bench.Numbered parties)
    (reached : Bench.Reaches parties directory Eq admits first bench) :
    Bench.Reaches parties directory Eq admits first (bench.play parties directory moves) := by
  induction moves generalizing bench with
  | nil => exact reached
  | cons who rest ih =>
      have next := numbered.obligingStep directory who
      exact ih next (.step reached step_obliging (admitted _ next))

/-- Two projects that are at rest, with an empty disk. -/
def Bench.empty : Bench Bool :=
  { cycling := fun _ => .resting, files := fun _ => none }

theorem reaches_play_of_empty {parties : Bool → Party} {directory : List String}
    {admits : Bench Bool → Prop}
    (admitted : ∀ bench : Bench Bool, bench.Numbered parties → admits bench) (moves : List Bool) :
    Bench.Reaches parties directory Eq admits .empty (Bench.empty.play parties directory moves) :=
  reaches_play_of_numbered admitted moves (fun _ _ running => by cases running) .refl

/-- A project in the directory of the others, with one entity, that is at a number. -/
def neighbour (project script : String) (current : Int)
    (checked : Entity.check [{ roads with script }] = .ok ()) : Party :=
  { setup := townSetup
    order :=
      { progress := { project, current }
        resources := [(project ++ "/" ++ script,
          .script (townSetup.workDirectory.join (project ++ "/" ++ script)))]
        entities := [{ roads with script }] }
    feed := project ++ "-feed"
    checked }

/-- The bodies that were fetched. -/
def fetchedBodies (past : List (Exchange collaborators)) : List Bytes :=
  past.filterMap fun exchange =>
    match exchange with
    | ⟨.fetch _ _, (answer : Except Http.Fault Http.Response)⟩ => answer.toOption.map (·.body)
    | _ => none

theorem mem_fetchedBodies {past : List (Exchange collaborators)} {url : String}
    {headers : List Http.Header} {response : Http.Response}
    (fetched : Inquiry.answered (.fetch url headers) (Except.ok response) ∈ past) :
    response.body ∈ fetchedBodies past :=
  List.mem_filterMap.mpr ⟨_, fetched, rfl⟩

/-- The diff that a project is about to apply, and the bodies that it fetched. -/
def Cycling.applying? : Cycling → Option (Path × List Bytes)
  | .running _ past (.ask (Inquiry.applyDiff arguments) _) =>
      some (arguments.diff, fetchedBodies past)
  | _ => none

/-- The file that a project is about to remove. -/
def Cycling.removing? : Cycling → Option Path
  | .running _ _ (.ask (Inquiry.removeFile path) _) => some path
  | _ => none

theorem Cycling.running_of_applying? {cycling : Cycling} {diff : Path} {bodies : List Bytes}
    (applying : cycling.applying? = some (diff, bodies)) :
    ∃ sequence past arguments next, cycling =
      .running sequence past (.ask (P := collaborators) (.applyDiff arguments) next) ∧
        arguments.diff = diff ∧ fetchedBodies past = bodies := by
  unfold Cycling.applying? at applying
  split at applying
  case h_1 sequence past arguments next =>
    cases applying
    exact ⟨sequence, past, arguments, next, rfl, rfl, rfl⟩
  case h_2 => cases applying

theorem Cycling.running_of_removing? {cycling : Cycling} {path : Path}
    (removing : cycling.removing? = some path) :
    ∃ sequence past next, cycling =
      .running sequence past (.ask (P := collaborators) (.removeFile path) next) := by
  unfold Cycling.removing? at removing
  split at removing
  case h_1 sequence past path next =>
    cases removing
    exact ⟨sequence, past, next, rfl⟩
  case h_2 => cases removing

/-- Two projects at the same number. -/
def twins : Bool → Party
  | true => neighbour "town" "roads.lua" 1 rfl
  | false => neighbour "city" "roads.lua" 1 rfl

/-- Town downloads its diff, then city does, and then town merges what lies there. -/
def mixed : Bench Bool :=
  Bench.empty.play twins []
    [true, true, true, true, false, false, false, false, true]

theorem mixed_applying : (mixed.cycling true).applying? =
    some (⟨"work/2.simplified.osc.gz"⟩, [Utf8.encode "town-feed/000/000/002.osc.gz"]) := by
  decide +kernel

theorem mixed_files : mixed.files (Path.resolveFrom [] ⟨"work/2.simplified.osc.gz"⟩) =
    some (Utf8.encode "city-feed/000/000/002.osc.gz") := by
  decide +kernel

/--
A project whose script has the name of a diff, and one that gets this diff while the
other runs a cycle.
-/
def squatters : Bool → Party
  | true => neighbour "town" "roads.lua" 1 rfl
  | false => neighbour "." "2.osc.gz" 2 rfl

/-- Both projects run cycles, and the one at 2 is about to remove its diff. -/
def cleared : Bench Bool :=
  Bench.empty.play squatters []
    [false, true, true, true, true, true, true]

theorem cleared_removing : (cleared.cycling true).removing? = some ⟨"work/2.osc.gz"⟩ := by
  decide +kernel

theorem cleared_busy : (cleared.cycling false).sequence? = some 3 := by
  decide +kernel

theorem squatters_script : (squatters false).Script ⟨"work/./2.osc.gz"⟩ := by
  refine ⟨_, List.mem_singleton_self _, ?_⟩
  decide +kernel

/--
Without such care a project applies the diff of another one, or loses its script to
another one.
-/
theorem disturbed_without_care :
    (∃ bench, Bench.Reaches twins [] Eq (fun _ => True) .empty bench ∧
      ¬ bench.Undisturbed twins [] Eq) ∧
    ∃ bench, Bench.Reaches squatters [] Eq Bench.Apart .empty bench ∧
      ¬ bench.Undisturbed squatters [] Eq := by
  constructor
  · refine ⟨mixed, reaches_play_of_empty (fun _ _ => trivial) _, fun undisturbed => ?_⟩
    obtain ⟨sequence, past, arguments, next, running, diff, bodies⟩ :=
      Cycling.running_of_applying? mixed_applying
    obtain ⟨headers, response, merged, fetched, _, _, same, there⟩ := undisturbed.applies running
    have own := mem_fetchedBodies fetched
    rw [diff, mixed_files] at there
    cases there
    rw [bodies, same] at own
    revert own
    decide +kernel
  · refine ⟨cleared, reaches_play_of_empty (fun _ numbered => numbered.apart ?_) _,
      fun undisturbed => ?_⟩
    · decide +kernel
    · obtain ⟨sequence, past, next, running⟩ := Cycling.running_of_removing? cleared_removing
      refine undisturbed.removes (by decide) running cleared_busy (.inr squatters_script) ?_
      decide +kernel

/-- Two projects at different numbers. -/
def strangers : Bool → Party
  | true => neighbour "town" "roads.lua" 1 rfl
  | false => neighbour "city" "roads.lua" 2 rfl

/-- Town and city take the same steps as the twins. -/
def met : Bench Bool :=
  Bench.empty.play strangers []
    [true, true, true, true, false, false, false, false, true]

theorem strangers_script {who : Bool} {script : Path} (found : (strangers who).Script script) :
    ∃ outer, script.resolveFrom [] = outer ++ ["roads.lua"] := by
  obtain ⟨entity, member, found⟩ := found
  cases who with
  | true =>
      obtain rfl := List.mem_singleton.mp member
      have path : Except.ok ⟨"work/town/roads.lua"⟩ = Except.ok script := found
      cases path
      exact ⟨["work", "town"], by decide +kernel⟩
  | false =>
      obtain rfl := List.mem_singleton.mp member
      have path : Except.ok ⟨"work/city/roads.lua"⟩ = Except.ok script := found
      cases path
      exact ⟨["work", "city"], by decide +kernel⟩

/-- What town merges after the same steps is what it fetched. -/
theorem strangers_undisturbed : (met.cycling true).applying? =
      some (⟨"work/2.simplified.osc.gz"⟩, [Utf8.encode "town-feed/000/000/002.osc.gz"]) ∧
    met.Undisturbed strangers [] Eq := by
  refine ⟨by decide +kernel, undisturbed_of_apart ?_ (fun _ => rfl)
    (reaches_play_of_empty (fun _ numbered => numbered.apart ?_) _)⟩
  · intro who other sequence path script _ member found
    obtain ⟨outer, place⟩ := strangers_script found
    rw [place]
    exact place_ne_of_getLast? (strangers who).flat member (by decide) (by decide)
  · decide +kernel

end MapReplica.Update
