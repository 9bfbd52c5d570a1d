import MapReplica.Proofs.Dialogue.Work
import MapReplica.Resource

/-!
# Requests and files

How a request can end, how a file can be put in its place, and how a url can be fetched into a
file, each way with the failure that it ends with.
-/

namespace MapReplica.Feed

open Dialogue

variable {url : String} {headers : List Http.Header} {path : Path} {content : Bytes}
  {answer : Except Http.Fault Http.Response} {response : Http.Response}
  {exchanges : List (Exchange collaborators)}

/-- What an answer to a request is taken for: only a status of success counts. -/
inductive Answered (url : String) :
    Except Http.Fault Http.Response → Except Failure Http.Response → Prop
  | unreachable (message : String) :
      Answered url (.error (.unreachable message)) (.error (.serverUnreachable url message))
  | broken (message : String) :
      Answered url (.error (.broken message)) (.error (.requestBroken url message))
  | refused {response : Http.Response} (other : ¬ (200 ≤ response.status ∧ response.status < 300)) :
      Answered url (.ok response) (.error (.serverRefused url response.status))
  | accepted {response : Http.Response} (success : 200 ≤ response.status ∧ response.status < 300) :
      Answered url (.ok response) (.ok response)

theorem isSuccess_iff {status : Nat} :
    Http.isSuccess status = true ↔ 200 ≤ status ∧ status < 300 := by
  simp [Http.isSuccess]

theorem ends_get_iff {outcome : Except Failure Http.Response} :
    Ends (get url headers).run exchanges outcome ↔
      ∃ answer, exchanges = [Inquiry.answered (.fetch url headers) answer] ∧
        Answered url answer outcome := by
  constructor
  · intro ends
    obtain ⟨answer, later, rfl, rest⟩ := ends_ask_iff.mp ends
    rcases answer with (message | message) | response
    · obtain ⟨rfl, rfl⟩ := ends_done_iff.mp rest
      exact ⟨_, rfl, .unreachable message⟩
    · obtain ⟨rfl, rfl⟩ := ends_done_iff.mp rest
      exact ⟨_, rfl, .broken message⟩
    · change Ends (if Http.isSuccess response.status then _ else _ : Task _).run _ _ at rest
      split at rest
      case isTrue success =>
        obtain ⟨rfl, rfl⟩ := ends_done_iff.mp rest
        exact ⟨_, rfl, .accepted (isSuccess_iff.mp success)⟩
      case isFalse other =>
        obtain ⟨rfl, rfl⟩ := ends_done_iff.mp rest
        exact ⟨_, rfl, .refused (mt isSuccess_iff.mpr other)⟩
  · rintro ⟨answer, rfl, answered⟩
    refine ends_ask_iff.mpr ⟨answer, [], rfl, ?_⟩
    cases answered with
    | unreachable message => exact .done _
    | broken message => exact .done _
    | refused other =>
        change Ends (if _ then _ else _ : Task _).run _ _
        rw [if_neg (mt isSuccess_iff.mp other)]
        exact .done _
    | accepted success =>
        change Ends (if _ then _ else _ : Task _).run _ _
        rw [if_pos (isSuccess_iff.mpr success)]
        exact .done _

/-- How a file is put in its place: first the directory, if it lies in one, and then the file. -/
inductive Placed (path : Path) (content : Bytes) :
    List (Exchange collaborators) → Except Failure Unit → Prop
  | noDirectory {directory : Path} (outer : path.parent? = some directory) (fault : FileFault) :
      Placed path content [Inquiry.answered (.createDirectory directory) (Except.error fault)]
        (.error fault.failure)
  | inDirectory {directory : Path} (outer : path.parent? = some directory)
      (answer : Except FileFault Unit) :
      Placed path content
        [Inquiry.answered (.createDirectory directory) (Except.ok ()),
          Inquiry.answered (.writeFile path content) answer]
        (answer.mapError FileFault.failure)
  | alone (outer : path.parent? = none) (answer : Except FileFault Unit) :
      Placed path content [Inquiry.answered (.writeFile path content) answer]
        (answer.mapError FileFault.failure)

theorem ends_place_iff {outcome : Except Failure Unit} :
    Ends (Resource.place path content).run exchanges outcome ↔
      Placed path content exchanges outcome := by
  unfold Resource.place makeParent
  cases outer : path.parent? with
  | none =>
      constructor
      · intro ends
        obtain ⟨answer, rfl, rfl⟩ := ends_answer_iff.mp ends
        exact .alone outer answer
      · intro placed
        cases placed with
        | noDirectory other => cases outer.symm.trans other
        | inDirectory other => cases outer.symm.trans other
        | alone _ answer => exact ends_answer_iff.mpr ⟨answer, rfl, rfl⟩
  | some directory =>
      constructor
      · intro ends
        obtain ⟨made, later, rfl, rest⟩ := ends_ask_iff.mp ends
        obtain fault | ⟨⟨⟩⟩ := made
        · obtain ⟨rfl, rfl⟩ := ends_done_iff.mp rest
          exact .noDirectory outer fault
        · obtain ⟨answer, rfl, rfl⟩ := ends_answer_iff.mp rest
          exact .inDirectory outer answer
      · intro placed
        cases placed with
        | noDirectory other fault =>
            cases outer.symm.trans other
            exact ends_ask_iff.mpr ⟨_, [], rfl, .done _⟩
        | inDirectory other answer =>
            cases outer.symm.trans other
            exact ends_ask_iff.mpr ⟨_, _, rfl, ends_answer_iff.mpr ⟨answer, rfl, rfl⟩⟩
        | alone other => cases outer.symm.trans other

/-- How a url is fetched into a file, which is written as far as its content came. -/
inductive Fetched (url : String) (headers : List Http.Header) (path : Path) :
    List (Exchange collaborators) → Except Failure Unit → Prop
  | unanswered {answer : Except Http.Fault Http.Response} {failure : Failure}
      (answered : Answered url answer (.error failure)) :
      Fetched url headers path [Inquiry.answered (.fetch url headers) answer] (.error failure)
  | unplaced {answer : Except Http.Fault Http.Response} {response : Http.Response}
      {exchanges : List (Exchange collaborators)} {failure : Failure}
      (answered : Answered url answer (.ok response))
      (placed : Placed path response.body exchanges (.error failure)) :
      Fetched url headers path (Inquiry.answered (.fetch url headers) answer :: exchanges)
        (.error failure)
  | interrupted {answer : Except Http.Fault Http.Response} {response : Http.Response}
      {exchanges : List (Exchange collaborators)} (answered : Answered url answer (.ok response))
      (placed : Placed path response.body exchanges (.ok ())) (part : response.complete = false) :
      Fetched url headers path (Inquiry.answered (.fetch url headers) answer :: exchanges)
        (.error (.requestBroken url "error decoding response body"))
  | whole {answer : Except Http.Fault Http.Response} {response : Http.Response}
      {exchanges : List (Exchange collaborators)} (answered : Answered url answer (.ok response))
      (placed : Placed path response.body exchanges (.ok ())) (all : response.complete = true) :
      Fetched url headers path (Inquiry.answered (.fetch url headers) answer :: exchanges) (.ok ())

theorem ends_download_iff {outcome : Except Failure Unit} :
    Ends (download url headers path).run exchanges outcome ↔
      Fetched url headers path exchanges outcome := by
  have parts : download url headers path = (do
      let response ← get url headers
      Resource.place path response.body
      if !response.complete then throw (interrupted url)) := by
    simp only [download, Resource.place, LawfulMonad.bind_assoc]
  rw [parts, Task.ends_bind_iff]
  simp only [Task.ends_bind_iff, ends_get_iff, ends_place_iff]
  constructor
  · rintro (⟨failure, rfl, answer, rfl, answered⟩ |
      ⟨_, response, back, rfl, ⟨answer, rfl, answered⟩, rest⟩)
    · exact .unanswered answered
    rcases rest with ⟨failure, rfl, placed⟩ | ⟨_, _, last, rfl, placed, rest⟩
    · exact .unplaced answered placed
    cases all : response.complete with
    | false =>
        rw [all] at rest
        obtain ⟨rfl, rfl⟩ := ends_done_iff.mp rest
        rw [List.append_nil]
        exact .interrupted answered placed all
    | true =>
        rw [all] at rest
        obtain ⟨rfl, rfl⟩ := ends_done_iff.mp rest
        rw [List.append_nil]
        exact .whole answered placed all
  · intro fetched
    cases fetched with
    | unanswered answered => exact .inl ⟨_, rfl, _, rfl, answered⟩
    | unplaced answered placed =>
        exact .inr ⟨_, _, _, rfl, ⟨_, rfl, answered⟩, .inl ⟨_, rfl, placed⟩⟩
    | interrupted answered placed part =>
        refine .inr ⟨_, _, _, rfl, ⟨_, rfl, answered⟩,
          .inr ⟨_, (), [], (List.append_nil _).symm, placed, ?_⟩⟩
        rw [part]
        exact .done _
    | whole answered placed all =>
        refine .inr ⟨_, _, _, rfl, ⟨_, rfl, answered⟩,
          .inr ⟨_, (), [], (List.append_nil _).symm, placed, ?_⟩⟩
        rw [all]
        exact .done _

end MapReplica.Feed
