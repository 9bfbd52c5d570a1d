import Mathlib.Data.List.Induction
import MapReplica.Proofs.Update.Artifacts
import MapReplica.Proofs.Update.Discipline

/-!
# The disk during a cycle

What lies on the disk is known from what the cycle did: the diff as it was fetched until
it is merged, then the merged diff. A cycle writes the diff only as it was fetched, merges
it only after it was written to its end, and applies only what it merged.
-/

namespace MapReplica

open Dialogue

/-- The paths that an inquiry may change. -/
def Inquiry.writes : Inquiry → List Path
  | .writeFile path _ => [path]
  | .removeFile path => [path]
  | .merge _ output => [output]
  | .applyDiff arguments => arguments.list.toList
  | _ => []

namespace Update

/-- The contents of files, by the names from the root that lead to them. -/
abbrev Files := List String → Option Bytes

/--
What an answer says about the files before and after it, in a directory. Files that are
not written stay as they are, and a merge that succeeds makes its output of its input.
-/
def Stores (directory : List String) (merges : Bytes → Bytes → Prop) (before : Files)
    (question : Inquiry) (answer : question.Answer) (after : Files) : Prop :=
  (∀ place, (∀ path ∈ question.writes, path.resolveFrom directory ≠ place) →
      after place = before place) ∧
    match question, answer with
    | .writeFile path content, (answer : Except FileFault Unit) =>
        answer = .ok () → after (path.resolveFrom directory) = some content
    | .readFile path, (answer : Except FileFault Bytes) =>
        ∀ content, answer = .ok content → before (path.resolveFrom directory) = some content
    | .removeFile path, (answer : Except FileFault Unit) =>
        answer = .ok () → after (path.resolveFrom directory) = none
    | .merge input output, (answer : Except Failure Unit) =>
        answer = .ok () → ∃ body merged, before (input.resolveFrom directory) = some body ∧
          merges body merged ∧ after (output.resolveFrom directory) = some merged
    | _, _ => True

/--
How far the diff of a cycle is: nothing yet, or what was fetched from a url, as far as
it is done.
-/
inductive Making where
  | nothing
  | fetched (url : String) (response : Http.Response)
  | written (url : String) (response : Http.Response)
  | merged (url : String) (response : Http.Response)

/-- How far the diff is after an exchange. -/
def Making.after (making : Making) (exchange : Exchange collaborators) : Making :=
  match exchange with
  | ⟨.fetch url _, (answer : Except Http.Fault Http.Response)⟩ =>
      match answer with
      | .ok response => .fetched url response
      | .error _ => .nothing
  | ⟨.writeFile _ _, (answer : Except FileFault Unit)⟩ =>
      match answer.toBool, making with
      | true, .fetched url response => .written url response
      | _, _ => .nothing
  | ⟨.merge _ _, (answer : Except Failure Unit)⟩ =>
      match answer.toBool, making with
      | true, .written url response => .merged url response
      | _, _ => .nothing
  | ⟨.removeFile _, _⟩ => .nothing
  | _ => making

/-- How far the diff is after all exchanges of a cycle so far. -/
def makingOf (past : List (Exchange collaborators)) : Making :=
  past.foldl Making.after .nothing

variable {past : List (Exchange collaborators)}

@[simp]
theorem makingOf_append_singleton (exchange : Exchange collaborators) :
    makingOf (past ++ [exchange]) = (makingOf past).after exchange := by
  simp [makingOf]

/-- The url and the answer that a diff was made of. -/
def Making.source? : Making → Option (String × Http.Response)
  | .nothing => none
  | .fetched url response => some (url, response)
  | .written url response => some (url, response)
  | .merged url response => some (url, response)

/-- Only a fetch that was answered makes a diff of something else. -/
theorem source?_after {making : Making} {exchange : Exchange collaborators} {url : String}
    {response : Http.Response} (source : (making.after exchange).source? = some (url, response)) :
    making.source? = some (url, response) ∨
      ∃ headers, exchange = Inquiry.answered (.fetch url headers) (Except.ok response) := by
  obtain ⟨question, answer⟩ := exchange
  cases question with
  | fetch asked headers =>
      cases answer with
      | error fault => cases source
      | ok given =>
          cases source
          exact .inr ⟨headers, rfl⟩
  | writeFile path content =>
      cases answer with
      | error fault => cases source
      | ok _ =>
          cases making with
          | fetched asked given => exact .inl source
          | _ => cases source
  | merge input output =>
      cases answer with
      | error failure => cases source
      | ok _ =>
          cases making with
          | written asked given => exact .inl source
          | _ => cases source
  | removeFile path => cases source
  | _ => exact .inl source

/-- What a diff was made of was fetched. -/
theorem fetched_of_makingOf {url : String} {response : Http.Response}
    (source : (makingOf past).source? = some (url, response)) :
    ∃ headers, Inquiry.answered (.fetch url headers) (Except.ok response) ∈ past := by
  induction past using List.reverseRecOn with
  | nil => cases source
  | append_singleton past exchange ih =>
      rw [makingOf_append_singleton] at source
      rcases source?_after source with earlier | ⟨headers, rfl⟩
      · obtain ⟨headers, member⟩ := ih earlier
        exact ⟨headers, List.mem_append_left _ member⟩
      · exact ⟨headers, List.mem_append_right _ List.mem_cons_self⟩

variable (setup : Setup) (order : Manager) (feed : String) (sequence : Nat)

/-- What the making of the diff has to be like when something is asked. -/
def Ready (making : Making) : Inquiry → Prop
  | .writeFile _ content => ∃ url response, making = .fetched url response ∧ content = response.body
  | .merge _ _ => ∃ response, making = .written (Diff.joinUrl feed (Diff.path sequence)) response ∧
      Http.isSuccess response.status = true ∧ response.complete = true
  | .applyDiff _ => ∃ response, making = .merged (Diff.joinUrl feed (Diff.path sequence)) response ∧
      Http.isSuccess response.status = true ∧ response.complete = true
  | _ => True

/-- The inquiries of a cycle, of the end of its tools and of its commit. -/
inductive OfAppend : Inquiry → Prop where
  | cycle {inquiry : Inquiry} (asked : OfCycle setup order feed sequence inquiry) : OfAppend inquiry
  | terminate : OfAppend .terminateTools
  | commit (body : Bytes) : OfAppend (.putObject order.progress.key body)

/-- What a cycle may ask after what it asked before. -/
def Tidy (past : List (Exchange collaborators)) (inquiry : Inquiry) : Prop :=
  OfAppend setup order feed sequence inquiry ∧ Ready feed sequence (makingOf past) inquiry

variable {setup order feed sequence} {manager : Manager} {α : Type}

/-! ## The steps of a cycle -/

/-- Work whose questions leave the making of the diff as it is. -/
theorem keeps_neutral {work : Dialogue collaborators α} {permitted : Inquiry → Prop}
    (asks : work.Asks permitted) {making : Making} (now : makingOf past = making)
    (allowed : ∀ inquiry, permitted inquiry →
      OfAppend setup order feed sequence inquiry ∧ Ready feed sequence making inquiry)
    (neutral : ∀ inquiry answer, permitted inquiry →
      making.after (Inquiry.answered inquiry answer) = making) :
    work.Keeps recorded (Tidy setup order feed sequence) (fun _ after => makingOf after = making)
      past := by
  have still : ∀ front : List (Exchange collaborators),
      (∀ exchange ∈ front, permitted exchange.question) → makingOf (past ++ front) = making := by
    intro front
    induction front using List.reverseRecOn with
    | nil => exact fun _ => by rw [List.append_nil, now]
    | append_singleton front last ih =>
        intro all
        rw [← List.append_assoc, makingOf_append_singleton,
          ih fun exchange member => all exchange (List.mem_append_left _ member)]
        exact neutral _ _ (all last (List.mem_append_right _ List.mem_cons_self))
  refine asks.keeps (fun front inquiry permits all => ?_)
    (fun exchanges _ _ all => still exchanges all)
  obtain ⟨belongs, ready⟩ := allowed inquiry permits
  exact ⟨belongs, (still front all).symm ▸ ready⟩

/-- A diff that was fetched to its end is written. -/
def Downloaded (feed : String) (sequence : Nat) (past : List (Exchange collaborators)) : Prop :=
  ∃ response, makingOf past = .written (Diff.joinUrl feed (Diff.path sequence)) response ∧
    Http.isSuccess response.status = true ∧ response.complete = true

theorem keeps_fetch (url : String) (fits : url = Diff.joinUrl feed (Diff.path sequence)) :
    (Task.fetch url []).run.Keeps recorded (Tidy setup order feed sequence)
      (fun outcome after => ∀ response, outcome = .ok (.ok response) →
        makingOf after = .fetched url response) past := by
  subst fits
  refine ⟨⟨.cycle .fetch, trivial⟩, ?_⟩
  rintro answer _ rfl response same
  cases same
  exact makingOf_append_singleton _

theorem keeps_get (url : String) (fits : url = Diff.joinUrl feed (Diff.path sequence)) :
    (Feed.get url []).run.Keeps recorded (Tidy setup order feed sequence)
      (fun outcome after => ∀ response, outcome = .ok response →
        makingOf after = .fetched url response ∧ Http.isSuccess response.status = true) past := by
  unfold Feed.get
  refine Task.keeps_bind (keeps_fetch url fits) ?_ fun _ _ _ _ impossible => by cases impossible
  intro reply after fetched
  cases reply with
  | error fault =>
      intro response impossible
      cases impossible
  | ok response =>
      simp only
      split
      case isTrue success =>
        intro given same
        cases same
        exact ⟨fetched response rfl, success⟩
      case isFalse =>
        intro given impossible
        cases impossible

theorem keeps_makeParent {destination : Path} {making : Making}
    (place : destination = diffPath setup.workDirectory sequence)
    (now : makingOf past = making) :
    (Feed.makeParent destination).run.Keeps recorded (Tidy setup order feed sequence)
      (fun _ after => makingOf after = making) past := by
  have asks : (Feed.makeParent destination).run.Asks fun inquiry =>
      ∃ path, inquiry = Inquiry.createDirectory path ∧ destination.parent? = some path :=
    asks_makeParent fun path outer => ⟨path, rfl, outer⟩
  refine keeps_neutral asks now ?_ ?_
  · rintro _ ⟨path, rfl, outer⟩
    rw [place] at outer
    have asked : OfCycle setup order feed sequence (.createDirectory path) := .directory path outer
    exact ⟨.cycle asked, trivial⟩
  · rintro _ _ ⟨path, rfl, outer⟩
    rfl

theorem keeps_write {url : String} {response : Http.Response} {destination : Path}
    (place : destination = diffPath setup.workDirectory sequence)
    (now : makingOf past = .fetched url response) :
    (Task.writeFile destination response.body).run.Keeps recorded
      (Tidy setup order feed sequence)
      (fun outcome after => outcome = .ok () → makingOf after = .written url response) past := by
  refine ⟨⟨.cycle (place ▸ .write _), url, response, now, rfl⟩, ?_⟩
  rintro (fault | ⟨⟩) _ rfl
  · intro impossible
    cases impossible
  · intro _
    rw [makingOf_append_singleton, now]
    rfl

/-- A download that succeeds leaves the diff written as it was fetched. -/
theorem keeps_download {destination : Path}
    (place : destination = diffPath setup.workDirectory sequence) :
    (Feed.downloadDiff feed sequence destination).run.Keeps recorded
      (Tidy setup order feed sequence)
      (fun outcome after => outcome = .ok () → Downloaded feed sequence after) past := by
  unfold Feed.downloadDiff Feed.download
  refine Task.keeps_bind (keeps_get _ rfl) ?_ fun _ _ _ impossible => by cases impossible
  intro response fetched hfetched
  obtain ⟨making, success⟩ := hfetched response rfl
  refine Task.keeps_bind (keeps_makeParent place making) ?_ fun _ _ _ impossible => by cases impossible
  intro _ parent making
  refine Task.keeps_bind (keeps_write place making) ?_ fun _ _ _ impossible => by cases impossible
  intro _ written hwritten
  split
  case isTrue => exact Task.keeps_throw.mpr fun impossible => by cases impossible
  case isFalse complete =>
    refine Task.keeps_pure.mpr fun _ => ?_
    exact ⟨response, hwritten rfl, success, by simpa using complete⟩

/-- A merge that succeeds makes the merged diff of the one that was written. -/
theorem keeps_merge (downloaded : Downloaded feed sequence past) :
    (Task.merge (diffPath setup.workDirectory sequence)
        (mergedPath setup.workDirectory sequence)).run.Keeps recorded
      (Tidy setup order feed sequence)
      (fun outcome after => outcome = .ok () → ∃ response,
        makingOf after = .merged (Diff.joinUrl feed (Diff.path sequence)) response ∧
          Http.isSuccess response.status = true ∧ response.complete = true) past := by
  refine ⟨⟨.cycle .merge, downloaded⟩, ?_⟩
  obtain ⟨response, making, success, complete⟩ := downloaded
  rintro (failure | ⟨⟩) _ rfl
  · intro impossible
    cases impossible
  · intro _
    refine ⟨response, ?_, success, complete⟩
    rw [makingOf_append_singleton, making]
    rfl

/-- The inquiries of a cycle after its merge. -/
def Inquiry.afterMerge : Inquiry → Prop
  | .applyDiff _ => True
  | .readFile _ => True
  | .putObject _ _ => True
  | .push _ => True
  | _ => False

/-- What is asked of a merged diff. -/
theorem keeps_served {work : Dialogue collaborators α} {response : Http.Response}
    (asks : work.Asks fun inquiry => OfCycle setup order feed sequence inquiry ∧
      Inquiry.afterMerge inquiry)
    (making : makingOf past = .merged (Diff.joinUrl feed (Diff.path sequence)) response)
    (success : Http.isSuccess response.status = true) (complete : response.complete = true) :
    work.Keeps recorded (Tidy setup order feed sequence)
      (fun _ after => makingOf after = .merged (Diff.joinUrl feed (Diff.path sequence)) response)
      past := by
  refine keeps_neutral asks making ?_ ?_
  · rintro inquiry ⟨belongs, later⟩
    refine ⟨.cycle belongs, ?_⟩
    cases inquiry with
    | applyDiff arguments => exact ⟨response, rfl, success, complete⟩
    | readFile path => trivial
    | putObject key body => trivial
    | push request => trivial
    | _ => exact later.elim
  · rintro inquiry answer ⟨_, later⟩
    cases inquiry with
    | applyDiff arguments => rfl
    | readFile path => rfl
    | putObject key body => rfl
    | push request => rfl
    | _ => exact later.elim

/-- Work whose questions need no diff. -/
theorem keeps_free {work : Dialogue collaborators α}
    (asks : work.Asks fun inquiry =>
      OfAppend setup order feed sequence inquiry ∧ ∀ making, Ready feed sequence making inquiry) :
    work.Keeps recorded (Tidy setup order feed sequence) (fun _ _ => True) past :=
  asks.keeps (fun _ _ permits _ => ⟨permits.1, permits.2 _⟩) fun _ _ _ _ => trivial

/-- What a cycle asks depends on the order only. -/
theorem SameOrder.ofCycle (same : SameOrder order manager) {inquiry : Inquiry}
    (asked : OfCycle setup manager feed sequence inquiry) :
    OfCycle setup order feed sequence inquiry := by
  have arguments : argumentsFor setup manager = argumentsFor setup order := by
    funext sequence diff entity style
    simp only [argumentsFor, same.project]
  cases asked with
  | fetch => exact .fetch
  | directory path outer => exact .directory path outer
  | write content => exact .write content
  | merge => exact .merge
  | apply entity style member found =>
      rw [arguments]
      rw [same.entities] at member
      rw [same.resources, same.project] at found
      exact .apply entity style member found
  | read entity member =>
      rw [same.project]
      exact .read entity (same.entities ▸ member)
  | put entity content member =>
      rw [same.project]
      exact .put entity content (same.entities ▸ member)
  | push request => exact .push request
  | remove path member =>
      rw [same.project, same.entities] at member
      exact .remove path member

/-- The work of a cycle does with the diff what it is ready for. -/
theorem keeps_cycle (same : SameOrder order manager) :
    (cycle setup manager feed sequence).run.Keeps recorded (Tidy setup order feed sequence)
      (fun _ _ => True) past := by
  refine Task.keeps_bind (keeps_download rfl) ?_ fun _ _ _ => trivial
  intro _ fetched downloaded
  refine Task.keeps_bind (keeps_merge (downloaded rfl)) ?_ fun _ _ _ => trivial
  intro _ merged hmerged
  obtain ⟨response, making, success, complete⟩ := hmerged rfl
  have belongs {inquiry : Inquiry} (asked : OfCycle setup manager feed sequence inquiry)
      (later : Inquiry.afterMerge inquiry) :
      OfCycle setup order feed sequence inquiry ∧ Inquiry.afterMerge inquiry :=
    ⟨same.ofCycle asked, later⟩
  have applies : (Task.forEach manager.entities (applyTo setup manager sequence
      (mergedPath setup.workDirectory sequence))).run.Asks fun inquiry =>
        OfCycle setup order feed sequence inquiry ∧ Inquiry.afterMerge inquiry :=
    Task.asks_forEach fun entity member =>
      asks_applyTo fun style found => belongs (.apply entity style member found) trivial
  have uploads : (uploadAll setup manager sequence).run.Asks fun inquiry =>
      OfCycle setup order feed sequence inquiry ∧ Inquiry.afterMerge inquiry :=
    asks_uploadAll (fun entity member => belongs (.read entity member) trivial)
      (fun entity member content => belongs (.put entity content member) trivial)
      fun request => belongs (.push request) trivial
  refine Task.keeps_bind (keeps_served applies making success complete) ?_ fun _ _ _ => trivial
  intro _ applied making
  split
  case isFalse => exact Task.keeps_pure.mpr trivial
  case isTrue =>
    exact (keeps_served uploads making success complete).mono fun _ _ _ => trivial

/-- A cycle with what is done after it does with the diff what it is ready for. -/
theorem keeps_tidy (same : SameOrder order manager) (next : manager.progress.next = sequence) :
    ((appendNext setup feed).starting manager).Keeps recorded (Tidy setup order feed sequence)
      (fun _ _ => True) past := by
  subst next
  apply keeps_appendNext_of (fun _ _ => True) (keeps_cycle same)
  · intro outcome worked _
    apply keeps_free
    apply asks_cleanUp
    · exact ⟨.terminate, fun _ => trivial⟩
    · intro path member
      exact ⟨.cycle (same.ofCycle (.remove path member)), fun _ => trivial⟩
  · intro failure now _
    trivial
  · intro now _
    have key : manager.progress.key = order.progress.key := congrArg Progress.keyOf same.project
    exact ⟨⟨key ▸ .commit _, trivial⟩, fun _ _ _ => trivial⟩

/-! ## The files of a cycle -/

theorem mem_list_argumentsFor {diff style path : Path} {entity : Entity}
    (member : path ∈ (argumentsFor setup order sequence diff entity style).list.toList) :
    path = listPath setup.workDirectory order.progress.project entity.id sequence := by
  simp only [argumentsFor] at member
  split at member
  case isTrue => exact List.mem_singleton.mp member
  case isFalse => cases member

/-- A cycle changes no file but its own. -/
theorem OfAppend.writes {inquiry : Inquiry} (asked : OfAppend setup order feed sequence inquiry)
    {path : Path} (member : path ∈ inquiry.writes) :
    path ∈ artifacts setup.workDirectory order.progress.project order.entities sequence := by
  cases asked with
  | terminate => cases member
  | commit body => cases member
  | cycle asked =>
      cases asked with
      | write content =>
          obtain rfl := List.mem_singleton.mp member
          exact diffPath_mem_artifacts
      | merge =>
          obtain rfl := List.mem_singleton.mp member
          exact mergedPath_mem_artifacts
      | apply entity style among found =>
          obtain rfl := mem_list_argumentsFor member
          exact listPath_mem_artifacts among
      | remove removed among =>
          obtain rfl := List.mem_singleton.mp member
          exact among
      | _ => cases member

variable {directory : List String} {merges : Bytes → Bytes → Prop} {before after : Files}

/-- The diff lies on the disk as far as it is done. -/
def Making.Lies (setup : Setup) (sequence : Nat) (directory : List String)
    (merges : Bytes → Bytes → Prop) (files : Files) : Making → Prop
  | .nothing => True
  | .fetched _ _ => True
  | .written _ response =>
      files ((diffPath setup.workDirectory sequence).resolveFrom directory) = some response.body
  | .merged _ response => ∃ merged, merges response.body merged ∧
      files ((mergedPath setup.workDirectory sequence).resolveFrom directory) = some merged

/-- The diff still lies on the disk if neither it nor the merged diff was changed. -/
theorem Making.Lies.of_frame {making : Making}
    (lies : making.Lies setup sequence directory merges before)
    (diff : after ((diffPath setup.workDirectory sequence).resolveFrom directory) =
      before ((diffPath setup.workDirectory sequence).resolveFrom directory))
    (merged : after ((mergedPath setup.workDirectory sequence).resolveFrom directory) =
      before ((mergedPath setup.workDirectory sequence).resolveFrom directory)) :
    making.Lies setup sequence directory merges after := by
  cases making with
  | nothing => trivial
  | fetched url response => trivial
  | written url response => exact diff.trans lies
  | merged url response =>
      obtain ⟨content, related, there⟩ := lies
      exact ⟨content, related, merged.trans there⟩

/--
An inquiry that leaves the making of a diff as it is changes neither the diff nor the
merged diff.
-/
theorem lies_of_neutral {making : Making} {question : Inquiry} {answer : question.Answer}
    (lies : making.Lies setup sequence directory merges before)
    (stores : Stores directory merges before question answer after)
    (spares : ∀ path ∈ question.writes,
      path.resolveFrom directory ≠ (diffPath setup.workDirectory sequence).resolveFrom directory ∧
      path.resolveFrom directory ≠ (mergedPath setup.workDirectory sequence).resolveFrom
        directory) :
    making.Lies setup sequence directory merges after :=
  lies.of_frame (stores.1 _ fun path member => (spares path member).1)
    (stores.1 _ fun path member => (spares path member).2)

/-- What a cycle asks keeps its diff on the disk as far as it is done. -/
theorem lies_of_stores (flat : Flat order.entities) {question : Inquiry} {answer : question.Answer}
    (tidy : Tidy setup order feed sequence past question)
    (lies : (makingOf past).Lies setup sequence directory merges before)
    (stores : Stores directory merges before question answer after) :
    (makingOf (past ++ [Inquiry.answered question answer])).Lies setup sequence directory merges
      after := by
  rw [makingOf_append_singleton]
  obtain ⟨asked, ready⟩ := tidy
  cases asked with
  | terminate => exact lies_of_neutral lies stores nofun
  | commit body => exact lies_of_neutral lies stores nofun
  | cycle asked =>
      cases asked with
      | fetch =>
          cases answer with
          | error fault => trivial
          | ok response => trivial
      | write content =>
          obtain ⟨url, response, making, rfl⟩ := ready
          rw [making]
          cases answer with
          | error fault => trivial
          | ok _ => exact stores.2 rfl
      | merge =>
          obtain ⟨response, making, _⟩ := ready
          rw [making] at lies ⊢
          cases answer with
          | error failure => trivial
          | ok _ =>
              obtain ⟨body, merged, input, related, output⟩ := stores.2 rfl
              cases input.symm.trans lies
              exact ⟨merged, related, output⟩
      | apply entity style among found =>
          refine lies_of_neutral lies stores fun path member => ?_
          obtain rfl := mem_list_argumentsFor member
          exact ⟨listPath_ne_diffPath (flat entity among),
            listPath_ne_mergedPath (flat entity among)⟩
      | remove path member => trivial
      | _ => exact lies_of_neutral lies stores nofun

end Update

end MapReplica
