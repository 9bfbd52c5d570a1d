import MapReplica.Proofs.Dialogue.Passages
import MapReplica.Proofs.Text.Blank
import MapReplica.Proofs.Upload.Requests
import Mathlib.Logic.Function.Basic

/-!
# What a dispatch does

A dispatch reads its list and then does nothing, or asks the object store once to keep the list
as it is and after that the queue once to take the request for its boxes, as far as these are
targets. It ends at the first refusal, apart from that of a request that waits already. Only
which targets there are matters, neither their order nor how often each is given.

The object that a dispatch puts depends on its list only, so that a second dispatch of the list
puts what lies in the object store already.
-/

namespace MapReplica.Upload

open Dialogue

variable {targets others : List Target} {queue : Option Queue.Settings} {dispatcher : Dispatcher}
  {listing : Listing} {content : Bytes} {file : Except FileFault Bytes} {areas : List Box}
  {exchanges further : List (Exchange collaborators)} {outcome : Except Failure Unit}

/-! ## Blank lists -/

/-- A list of blanks and ends of lines only. -/
def Blank (content : Bytes) : Prop :=
  ∀ line ∈ Text.lines (Utf8.decodeLossy content), ∀ c ∈ line, Text.isBlank c = true

/-- No line counts exactly if all of them are blank. -/
theorem linesOf_isEmpty_iff : (linesOf content).isEmpty = true ↔ Blank content := by
  rw [List.isEmpty_iff, List.eq_nil_iff_forall_not_mem]
  constructor
  · intro none line member
    refine Text.trim_eq_nil_iff.mp ?_
    by_contra something
    exact none _ (Expiry.mem_uniqueLines.mpr ⟨something, line, member, rfl⟩)
  · rintro blank line counts
    obtain ⟨something, raw, member, rfl⟩ := Expiry.mem_uniqueLines.mp counts
    exact something (Text.trim_eq_nil_iff.mpr (blank raw member))

/-! ## The dispatcher of some targets -/

theorem make_eq_ok_iff :
    Dispatcher.make targets queue = .ok dispatcher ↔
      (.queue ∈ targets → queue.isSome = true) ∧
        dispatcher = ⟨decide (.objectStore ∈ targets), if .queue ∈ targets then queue else none⟩ := by
  unfold Dispatcher.make
  split
  case isTrue target =>
    cases queue with
    | none => simp [target]
    | some settings => simp [target, eq_comm]
  case isFalse other => simp [other, @eq_comm _ _ dispatcher]

/-- Neither the order of the targets nor how often each is given makes a difference. -/
theorem make_congr (same : ∀ target, target ∈ others ↔ target ∈ targets) :
    Dispatcher.make others queue = Dispatcher.make targets queue := by
  simp only [Dispatcher.make, same]

/-- Nothing is served exactly if there are no targets. -/
theorem targets_isEmpty_iff (made : Dispatcher.make targets queue = .ok dispatcher) :
    dispatcher.targets.isEmpty = true ↔ targets = [] := by
  obtain ⟨known, rfl⟩ := make_eq_ok_iff.mp made
  rw [List.eq_nil_iff_forall_not_mem]
  constructor
  · intro nowhere target member
    cases target with
    | objectStore => simp [Dispatcher.targets, member] at nowhere
    | queue => simp [Dispatcher.targets, member, known member] at nowhere
  · intro none
    simp [Dispatcher.targets, none]

/-! ## How a dispatch can go -/

/--
What becomes of areas: if the queue is a target and there are any, it is asked once to take
them, each with the zooms of the settings. That it knows the request already is no failure.
-/
inductive Enqueued (targets : List Target) (queue : Option Queue.Settings) (areas : List Box) :
    List (Exchange collaborators) → Except Failure Unit → Prop
  | untargeted (other : .queue ∉ targets) : Enqueued targets queue areas [] (.ok ())
  | nothing (none : areas = []) : Enqueued targets queue areas [] (.ok ())
  | once (target : .queue ∈ targets) (some : areas ≠ []) {settings : Queue.Settings}
      (set : queue = .some settings) (answer : Except Failure Unit) :
      Enqueued targets queue areas
        [Inquiry.answered
          (.push ⟨areas.map fun area => ⟨area, settings.minZoom, settings.maxZoom⟩, "expiredTiles"⟩)
          answer]
        (pushed answer)

/--
What becomes of a list that is not blank: if the object store is a target, it is asked once to
keep the list, octet for octet, and if it refuses, that is all. Then it is the turn of the boxes.
-/
inductive Served (targets : List Target) (queue : Option Queue.Settings) (listing : Listing)
    (content : Bytes) : List (Exchange collaborators) → Except Failure Unit → Prop
  | untargeted (other : .objectStore ∉ targets) {exchanges : List (Exchange collaborators)}
      {outcome : Except Failure Unit}
      (rest : Enqueued targets queue (boxes listing.area (linesOf content)) exchanges outcome) :
      Served targets queue listing content exchanges outcome
  | stored (target : .objectStore ∈ targets) {exchanges : List (Exchange collaborators)}
      {outcome : Except Failure Unit}
      (rest : Enqueued targets queue (boxes listing.area (linesOf content)) exchanges outcome) :
      Served targets queue listing content
        (Inquiry.answered (.putObject (listing.project ++ "/" ++ listing.entity ++ "/" ++
          Number.numeral listing.sequence ++ "/" ++ "expire.list") content) (Except.ok ()) ::
            exchanges)
        outcome
  | refused (target : .objectStore ∈ targets) (failure : Failure) :
      Served targets queue listing content
        [Inquiry.answered (.putObject (listing.project ++ "/" ++ listing.entity ++ "/" ++
          Number.numeral listing.sequence ++ "/" ++ "expire.list") content) (Except.error failure)]
        (.error failure)

/--
What becomes of a list that was read. That there is none is no failure, and a blank one is as
good as none.
-/
inductive Received (targets : List Target) (queue : Option Queue.Settings) (listing : Listing) :
    Except FileFault Bytes → List (Exchange collaborators) → Except Failure Unit → Prop
  | missing : Received targets queue listing (.error .notFound) [] (.ok ())
  | unread {fault : FileFault} (other : fault ≠ .notFound) :
      Received targets queue listing (.error fault) [] (.error fault.failure)
  | blank {content : Bytes} (blank : Blank content) :
      Received targets queue listing (.ok content) [] (.ok ())
  | served {content : Bytes} (solid : ¬ Blank content) {exchanges : List (Exchange collaborators)}
      {outcome : Except Failure Unit}
      (rest : Served targets queue listing content exchanges outcome) :
      Received targets queue listing (.ok content) exchanges outcome

/-- What becomes of a list, given what comes of reading it: if there is any target, it is read. -/
inductive Handled (targets : List Target) (queue : Option Queue.Settings) (listing : Listing)
    (file : Except FileFault Bytes) :
    List (Exchange collaborators) → Except Failure Unit → Prop
  | untargeted (none : targets = []) : Handled targets queue listing file [] (.ok ())
  | received (some : targets ≠ []) {exchanges : List (Exchange collaborators)}
      {outcome : Except Failure Unit}
      (rest : Received targets queue listing file exchanges outcome) :
      Handled targets queue listing file
        (Inquiry.answered (.readFile listing.list) file :: exchanges) outcome

/-- A complete run of a dispatch, in which this comes of reading the list if it is read. -/
structure Runs (dispatcher : Dispatcher) (listing : Listing) (file : Except FileFault Bytes)
    (exchanges : List (Exchange collaborators)) (outcome : Except Failure Unit) : Prop where
  ends : Ends (dispatcher.dispatch listing).run exchanges outcome
  read : ∀ answer, Inquiry.answered (.readFile listing.list) answer ∈ exchanges → answer = file

theorem enqueued_iff (made : Dispatcher.make targets queue = .ok dispatcher) :
    Ends (dispatcher.enqueue areas).run exchanges outcome ↔
      Enqueued targets queue areas exchanges outcome := by
  obtain ⟨known, rfl⟩ := make_eq_ok_iff.mp made
  unfold Dispatcher.enqueue
  by_cases target : Target.queue ∈ targets
  case neg =>
    simp only [if_neg target]
    constructor
    · intro ends
      obtain ⟨rfl, rfl⟩ := ends_done_iff.mp ends
      exact .untargeted target
    · intro enqueued
      cases enqueued with
      | untargeted => exact .done _
      | nothing => exact .done _
      | once other => exact absurd other target
  case pos =>
    obtain ⟨settings, rfl⟩ := Option.isSome_iff_exists.mp (known target)
    simp only [if_pos target, run_pushBoxes]
    constructor
    · intro ends
      split at ends
      case isTrue nothing =>
        obtain ⟨rfl, rfl⟩ := ends_done_iff.mp ends
        exact .nothing (List.isEmpty_iff.mp nothing)
      case isFalse something =>
        obtain ⟨answer, rfl, rfl⟩ := ends_answer_iff.mp ends
        exact .once target (fun none => something (List.isEmpty_iff.mpr none)) rfl answer
    · intro enqueued
      cases enqueued with
      | untargeted other => exact absurd target other
      | nothing none => rw [none]; exact .done _
      | once _ something set answer =>
          cases set
          rw [if_neg (mt List.isEmpty_iff.mp something)]
          exact ends_answer_iff.mpr ⟨answer, rfl, rfl⟩

theorem served_iff (made : Dispatcher.make targets queue = .ok dispatcher)
    (solid : ¬ Blank content) :
    Ends (dispatcher.serve listing content).run exchanges outcome ↔
      Served targets queue listing content exchanges outcome := by
  have stores : dispatcher.toStore = decide (Target.objectStore ∈ targets) := by
    rw [(make_eq_ok_iff.mp made).2]
  rw [Dispatcher.serve_eq, if_neg (mt linesOf_isEmpty_iff.mp solid), stores]
  by_cases target : Target.objectStore ∈ targets
  case neg =>
    rw [if_neg (by simpa using target), enqueued_iff made]
    constructor
    · exact .untargeted target
    · intro served
      cases served with
      | untargeted _ rest => exact rest
      | stored other => exact absurd other target
      | refused other => exact absurd other target
  case pos =>
    rw [if_pos (by simpa using target)]
    constructor
    · intro ends
      obtain ⟨answer, later, rfl, rest⟩ := ends_ask_iff.mp ends
      obtain failure | ⟨⟨⟩⟩ := answer
      · obtain ⟨rfl, rfl⟩ := ends_done_iff.mp rest
        exact .refused target failure
      · exact .stored target ((enqueued_iff made).mp rest)
    · intro served
      cases served with
      | untargeted other => exact absurd target other
      | stored _ rest => exact ends_ask_iff.mpr ⟨_, _, rfl, (enqueued_iff made).mpr rest⟩
      | refused _ failure => exact ends_ask_iff.mpr ⟨_, _, rfl, .done _⟩

/-- How a dispatch goes on, by what came of reading the list. -/
def Dispatcher.receive (dispatcher : Dispatcher) (listing : Listing) :
    Except FileFault Bytes → Dialogue collaborators (Except Failure Unit)
  | .error fault => .done (if fault = .notFound then .ok () else .error fault.failure)
  | .ok content => (dispatcher.serve listing content).run

/-- The list is read at once, if there are targets. -/
theorem Dispatcher.run_dispatch (dispatcher : Dispatcher) (listing : Listing) :
    (dispatcher.dispatch listing).run =
      if dispatcher.targets.isEmpty then .done (.ok ())
      else .ask (P := collaborators) (.readFile listing.list) (dispatcher.receive listing) := by
  unfold Dispatcher.dispatch
  split
  case isTrue => rfl
  case isFalse =>
    refine congrArg (Dialogue.ask (P := collaborators) _) (funext fun answer => ?_)
    obtain fault | content := answer
    · cases fault <;> rfl
    · rfl

theorem received_iff (made : Dispatcher.make targets queue = .ok dispatcher) :
    Ends (dispatcher.receive listing file) exchanges outcome ↔
      Received targets queue listing file exchanges outcome := by
  cases file with
  | error fault =>
      rw [Dispatcher.receive, ends_done_iff]
      constructor
      · rintro ⟨rfl, rfl⟩
        split
        case isTrue absent => exact absent ▸ .missing
        case isFalse other => exact .unread other
      · intro received
        cases received with
        | missing => exact ⟨rfl, rfl⟩
        | unread other => exact ⟨rfl, (if_neg other).symm⟩
  | ok content =>
      rw [Dispatcher.receive]
      by_cases blank : Blank content
      case pos =>
        rw [Dispatcher.serve_eq, if_pos (linesOf_isEmpty_iff.mpr blank)]
        constructor
        · intro ends
          obtain ⟨rfl, rfl⟩ := ends_done_iff.mp ends
          exact .blank blank
        · intro received
          cases received with
          | blank => exact .done _
          | served solid => exact absurd blank solid
      case neg =>
        rw [served_iff made blank]
        constructor
        · exact .served blank
        · intro received
          cases received with
          | blank other => exact absurd other blank
          | served _ rest => exact rest

/-! ## Nothing is read twice -/

/-- What becomes of areas asks for no file. -/
theorem Enqueued.reads_nothing (enqueued : Enqueued targets queue areas exchanges outcome)
    (path : Path) (answer : Except FileFault Bytes) :
    Inquiry.answered (.readFile path) answer ∉ exchanges := by
  intro member
  cases enqueued with
  | untargeted => cases member
  | nothing => cases member
  | once => cases List.mem_singleton.mp member

theorem Served.reads_nothing (served : Served targets queue listing content exchanges outcome)
    (path : Path) (answer : Except FileFault Bytes) :
    Inquiry.answered (.readFile path) answer ∉ exchanges := by
  intro member
  cases served with
  | untargeted _ rest => exact rest.reads_nothing path answer member
  | stored _ rest =>
      rcases List.mem_cons.mp member with put | later
      · cases put
      · exact rest.reads_nothing path answer later
  | refused => cases List.mem_singleton.mp member

/-- Once the list is read, no file is read any more. -/
theorem Received.reads_nothing (received : Received targets queue listing file exchanges outcome)
    (path : Path) (answer : Except FileFault Bytes) :
    Inquiry.answered (.readFile path) answer ∉ exchanges := by
  cases received with
  | missing => exact List.not_mem_nil
  | unread => exact List.not_mem_nil
  | blank => exact List.not_mem_nil
  | served _ rest => exact rest.reads_nothing path answer

theorem runs_iff (made : Dispatcher.make targets queue = .ok dispatcher) :
    Runs dispatcher listing file exchanges outcome ↔
      Handled targets queue listing file exchanges outcome := by
  have run := dispatcher.run_dispatch listing
  by_cases nowhere : targets = []
  case pos =>
    rw [if_pos ((targets_isEmpty_iff made).mpr nowhere)] at run
    constructor
    · rintro ⟨ends, -⟩
      obtain ⟨rfl, rfl⟩ := ends_done_iff.mp (run ▸ ends)
      exact .untargeted nowhere
    · intro handled
      cases handled with
      | untargeted => exact ⟨run ▸ .done _, fun _ member => (List.not_mem_nil member).elim⟩
      | received somewhere => exact absurd nowhere somewhere
  case neg =>
    rw [if_neg (mt (targets_isEmpty_iff made).mp nowhere)] at run
    constructor
    · rintro ⟨ends, read⟩
      obtain ⟨answer, later, rfl, rest⟩ := ends_ask_iff.mp (run ▸ ends)
      obtain rfl := read answer List.mem_cons_self
      exact .received nowhere ((received_iff made).mp rest)
    · intro handled
      cases handled with
      | untargeted other => exact absurd other nowhere
      | received _ rest =>
          refine ⟨run ▸ ends_ask_iff.mpr ⟨file, _, rfl, (received_iff made).mpr rest⟩, ?_⟩
          intro answer member
          rcases List.mem_cons.mp member with same | later
          · cases same
            rfl
          · exact absurd later (rest.reads_nothing listing.list answer)

/-! ## What becomes of the objects -/

/-- What lies in the object store, by its key. -/
abbrev Objects := String → Option Bytes

/--
Collaborators that change the objects only as they are asked to. If puts can be torn, one that
failed may have taken effect.
-/
def keeping (torn : Prop) : Surroundings collaborators Objects :=
  fun objects question answer after =>
    match question, answer with
    | .putObject key body, (answer : Except Failure Unit) =>
        after = Function.update objects key (some body) ∧ (torn ∨ answer = .ok ()) ∨
          after = objects ∧ answer ≠ .ok ()
    | _, _ => after = objects

variable {torn : Prop} {objects middle last : Objects}

/-- What becomes of areas neither changes the objects nor is refused by the object store. -/
theorem Enqueued.keeps (enqueued : Enqueued targets queue areas exchanges outcome)
    (passage : Passage (keeping torn) objects exchanges last) :
    last = objects ∧ ¬ Refused exchanges := by
  cases enqueued with
  | untargeted => exact ⟨passage_nil_iff.mp passage, by simp [Refused]⟩
  | nothing => exact ⟨passage_nil_iff.mp passage, by simp [Refused]⟩
  | once =>
      obtain ⟨between, same, rest⟩ := passage_cons_iff.mp passage
      exact ⟨(passage_nil_iff.mp rest).trans same, not_refused_singleton (by rintro _ _ _ ⟨⟩)⟩

/-- Which content a dispatch puts, if any. -/
def Puts (targets : List Target) (file : Except FileFault Bytes) (content : Bytes) : Prop :=
  .objectStore ∈ targets ∧ file = .ok content ∧ ¬ Blank content

/-- What a dispatch leaves of the objects. -/
inductive Leaves (torn : Prop) (targets : List Target) (listing : Listing)
    (file : Except FileFault Bytes) (exchanges : List (Exchange collaborators))
    (objects : Objects) : Objects → Prop
  | nothing (none : ∀ content, ¬ Puts targets file content) :
      Leaves torn targets listing file exchanges objects objects
  | stored {content : Bytes} (puts : Puts targets file content)
      (taken : torn ∨ ¬ Refused exchanges) :
      Leaves torn targets listing file exchanges objects
        (Function.update objects listing.key (some content))
  | refused {content : Bytes} (puts : Puts targets file content) (refused : Refused exchanges) :
      Leaves torn targets listing file exchanges objects objects

theorem Served.leaves (served : Served targets queue listing content exchanges outcome)
    (solid : ¬ Blank content) (passage : Passage (keeping torn) objects exchanges last) :
    Leaves torn targets listing (.ok content) exchanges objects last := by
  cases served with
  | untargeted other rest =>
      rw [(rest.keeps passage).1]
      exact .nothing fun _ puts => other puts.1
  | stored target rest =>
      obtain ⟨between, ⟨rfl, -⟩ | ⟨-, impossible⟩, later⟩ := passage_cons_iff.mp passage
      · obtain ⟨same, taken⟩ := rest.keeps later
        rw [same]
        refine .stored ⟨target, rfl, solid⟩ (.inr (mt (refused_cons_iff ?_).mp taken))
        exact not_refused_singleton (by rintro _ _ _ ⟨⟩)
      · exact absurd rfl impossible
  | refused target failure =>
      have refused : Refused [Inquiry.answered (.putObject listing.key content)
          (Except.error failure)] := ⟨_, _, failure, List.mem_singleton_self _⟩
      obtain ⟨between, answered, rest⟩ := passage_cons_iff.mp passage
      obtain rfl := passage_nil_iff.mp rest
      rcases answered with ⟨rfl, possible⟩ | ⟨rfl, -⟩
      · exact .stored ⟨target, rfl, solid⟩ (.inl (possible.resolve_right nofun))
      · exact .refused ⟨target, rfl, solid⟩ refused

theorem Received.leaves (received : Received targets queue listing file exchanges outcome)
    (passage : Passage (keeping torn) objects exchanges last) :
    Leaves torn targets listing file exchanges objects last := by
  cases received with
  | missing =>
      rw [passage_nil_iff.mp passage]
      exact .nothing fun _ puts => nomatch puts.2.1
  | unread =>
      rw [passage_nil_iff.mp passage]
      exact .nothing fun _ puts => nomatch puts.2.1
  | blank blank =>
      rw [passage_nil_iff.mp passage]
      refine .nothing ?_
      rintro _ ⟨-, ⟨⟩, solid⟩
      exact solid blank
  | served solid rest => exact rest.leaves solid passage

theorem Leaves.cons {exchange : Exchange collaborators}
    (leaves : Leaves torn targets listing file exchanges objects last)
    (taken : ¬ Refused [exchange]) :
    Leaves torn targets listing file (exchange :: exchanges) objects last := by
  have same : Refused (exchange :: exchanges) ↔ Refused exchanges := refused_cons_iff taken
  cases leaves with
  | nothing none => exact .nothing none
  | stored puts taken => exact .stored puts (taken.imp_right same.not.mpr)
  | refused puts refused => exact .refused puts (same.mpr refused)

theorem Handled.leaves (handled : Handled targets queue listing file exchanges outcome)
    (passage : Passage (keeping torn) objects exchanges last) :
    Leaves torn targets listing file exchanges objects last := by
  cases handled with
  | untargeted none =>
      rw [passage_nil_iff.mp passage, none]
      exact .nothing fun _ puts => List.not_mem_nil puts.1
  | received _ rest =>
      obtain ⟨between, same, later⟩ := passage_cons_iff.mp passage
      obtain rfl : between = objects := same
      exact (rest.leaves later).cons (not_refused_singleton (by rintro _ _ _ ⟨⟩))

/--
A second dispatch of a list leaves the objects as the first one left them, unless the list was
refused to the first one, which left them as they were, and it is the second one that stores it.
-/
theorem Leaves.again (first : Leaves torn targets listing file exchanges objects middle)
    (second : Leaves torn targets listing file further middle last) :
    last = middle ∨
      Refused exchanges ∧ middle = objects ∧ (torn ∨ ¬ Refused further) ∧
        ∃ content, file = .ok content ∧
          last = Function.update objects listing.key (some content) := by
  cases second with
  | nothing => exact .inl rfl
  | refused => exact .inl rfl
  | stored puts taken =>
      cases first with
      | nothing none => exact (none _ puts).elim
      | stored before =>
          obtain rfl := Except.ok.inj (puts.2.1.symm.trans before.2.1)
          exact .inl (Function.update_idem ..)
      | refused _ refused => exact .inr ⟨refused, rfl, taken, _, puts.2.1, rfl⟩

/-! ## The effects of a dispatch -/

/--
Whatever the targets, the list and the answers are, a dispatch can go in the ways of `Handled`
and in no other. Targets in another order, or repeated, make the same dispatcher. A second
dispatch of the same list leaves the objects as the first one left them; only if the first one
failed to store the list may the second one do what the first one was to do.
-/
theorem dispatch_effects (made : Dispatcher.make targets queue = .ok dispatcher)
    (listing : Listing) (file : Except FileFault Bytes) :
    (∀ exchanges outcome, Runs dispatcher listing file exchanges outcome ↔
      Handled targets queue listing file exchanges outcome) ∧
    (∀ others, (∀ target, target ∈ others ↔ target ∈ targets) →
      Dispatcher.make others queue = .ok dispatcher) ∧
    ∀ torn exchanges further outcome again objects middle last,
      Runs dispatcher listing file exchanges outcome → Runs dispatcher listing file further again →
      Passage (keeping torn) objects exchanges middle → Passage (keeping torn) middle further last →
        last = middle ∨
          Refused exchanges ∧ middle = objects ∧ (torn ∨ ¬ Refused further) ∧
            ∃ content, file = .ok content ∧
              last = Function.update objects listing.key (some content) := by
  refine ⟨fun exchanges outcome => runs_iff made, fun others same => ?_, ?_⟩
  · exact (make_congr same).trans made
  · intro torn exchanges further outcome again objects middle last runs repeated passage onwards
    have first := ((runs_iff made).mp runs).leaves passage
    exact first.again (((runs_iff made).mp repeated).leaves onwards)

/-- Three tiles, the column of the first of which is no text. -/
def garbledList : Bytes := Utf8.encode "0/" ++ 0xFF :: Utf8.encode "\n1/0/1\n1/0/0\n"

/-- Where the list belongs. -/
def garbledListing : Listing := ⟨"town", "roads", 42, ⟨"list"⟩, none⟩

/-- What is done with the list, where the queue knows the request for its box already. -/
def garbledExchanges (box : Box) : List (Exchange collaborators) :=
  [Inquiry.answered (.readFile ⟨"list"⟩) (Except.ok garbledList),
    Inquiry.answered (.putObject "town/roads/42/expire.list" garbledList) (Except.ok ()),
    Inquiry.answered (.push ⟨[⟨box, 1, 3⟩], "expiredTiles"⟩)
      (Except.error (.alreadyQueued "tiles"))]

theorem garbledList_kept_and_requested :
    ∃ dispatcher box,
      Dispatcher.make [.queue, .objectStore, .objectStore] (some ⟨"tiles", 1, 3⟩) =
        .ok dispatcher ∧
      Dispatcher.make [.objectStore, .queue] (some ⟨"tiles", 1, 3⟩) = .ok dispatcher ∧
      boxes none (linesOf garbledList) = [box] ∧
      Runs dispatcher garbledListing (.ok garbledList) (garbledExchanges box) (.ok ()) ∧
      ∀ objects, ∃ middle, Passage (keeping False) objects (garbledExchanges box) middle ∧
        middle "town/roads/42/expire.list" = some garbledList ∧
          ∀ last, Passage (keeping False) middle (garbledExchanges box) last → last = middle := by
  have lines : linesOf garbledList = ["0/\uFFFD".toList, "1/0/1".toList, "1/0/0".toList] := by decide
  have sorted : (selection none).order.sort (linesOf garbledList) =
      ["1/0/1".toList, "1/0/0".toList, "0/\uFFFD".toList] := by
    rw [lines]
    exact Expiry.Order.Sorted.sort_eq (by decide) (by decide)
  have single : (boxes none (linesOf garbledList)).length = 1 := by
    rw [boxes, Expiry.Selection.boxes, Expiry.survivors_eq_filterMap, sorted]
    rfl
  obtain ⟨box, only⟩ := List.length_eq_one_iff.mp single
  have made : Dispatcher.make [.queue, .objectStore, .objectStore] (some ⟨"tiles", 1, 3⟩) =
      .ok ⟨true, some ⟨"tiles", 1, 3⟩⟩ := rfl
  obtain ⟨runs, others, again⟩ := dispatch_effects made garbledListing (.ok garbledList)
  have solid : ¬ Blank garbledList := by
    rw [← linesOf_isEmpty_iff, lines]
    simp
  have pushed : Enqueued [.queue, .objectStore, .objectStore] (some ⟨"tiles", 1, 3⟩)
      (boxes garbledListing.area (linesOf garbledList)) _ _ :=
    .once (by simp) (only ▸ List.cons_ne_nil _ _) rfl (.error (.alreadyQueued "tiles"))
  have run : Runs ⟨true, some ⟨"tiles", 1, 3⟩⟩ garbledListing (.ok garbledList) (garbledExchanges box)
      (.ok ()) := by
    rw [show boxes garbledListing.area (linesOf garbledList) = [box] from only] at pushed
    exact (runs _ _).mpr (.received (by simp) (.served solid (.stored (by simp) (only ▸ pushed))))
  refine ⟨_, box, made, others _ (by simp [or_comm]), only, run, ?_⟩
  intro objects
  have passage : Passage (keeping False) objects (garbledExchanges box)
      (Function.update objects "town/roads/42/expire.list" (some garbledList)) :=
    .cons rfl (.cons (.inl ⟨rfl, .inr rfl⟩) (.cons rfl (.nil _)))
  refine ⟨_, passage, Function.update_self .., fun last onwards => ?_⟩
  refine (again _ _ _ _ _ _ _ _ run run passage onwards).elim id ?_
  rintro ⟨⟨key, body, failure, member⟩, -⟩
  rcases List.mem_cons.mp member with read | member
  · cases read
  rcases List.mem_cons.mp member with put | member
  · cases put
  · cases List.mem_singleton.mp member

end MapReplica.Upload
