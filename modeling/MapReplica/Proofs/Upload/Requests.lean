import MapReplica.Proofs.Expiry.Lines
import MapReplica.Proofs.Expiry.Malformed
import MapReplica.Proofs.Queue.Jobs
import MapReplica.Proofs.Update.CommitSafety

/-!
# The request for a list

A dispatch puts at most one request into the queue, and which one depends on the
survivors of the lines only. So it depends on neither the order of the lines nor on how
often they occur, and a queue that keeps its jobs recognises the request when the list
comes again. Lines that are no tiles do not change the request either, as long as they
do not change which zoom is kept.
-/

namespace MapReplica.Upload

open Dialogue

variable {dispatcher : Dispatcher} {listing other : Listing} {content given : Bytes}
  {exchanges further : List (Exchange collaborators)} {outcome : Except Failure Unit}

/-! ## What a dispatch pushes -/

/-- The request that was put to the queue in an exchange. -/
def pushOf? (exchange : Exchange collaborators) : Option Queue.Request :=
  match (exchange.question : Inquiry) with
  | .push request => some request
  | _ => none

/-- The requests that were put to the queue, whatever it answered. -/
def pushes (exchanges : List (Exchange collaborators)) : List Queue.Request :=
  exchanges.filterMap pushOf?

/-- The object store did not take a list. -/
def Refused (exchanges : List (Exchange collaborators)) : Prop :=
  ∃ key body failure, Inquiry.answered (.putObject key body) (Except.error failure) ∈ exchanges

/-- The request that lines lead to, if the queue is a target and there are boxes. -/
def Dispatcher.requestFor (dispatcher : Dispatcher) (area : Option Area)
    (lines : List Expiry.Line) : Option Queue.Request :=
  dispatcher.toQueue.bind fun settings =>
    if (boxes area lines).isEmpty then none
    else some (Queue.Request.ofAreas (boxes area lines) settings)

/-- A request was pushed, or nothing was since the object store refused the list before. -/
def Pushed (request? : Option Queue.Request) (exchanges : List (Exchange collaborators)) : Prop :=
  Refused exchanges ∧ pushes exchanges = [] ∨
    ¬ Refused exchanges ∧ pushes exchanges = request?.toList

/-- A complete run of a dispatch, in which the list had a content if it was read. -/
structure Dispatched (dispatcher : Dispatcher) (listing : Listing) (content : Bytes)
    (exchanges : List (Exchange collaborators)) : Prop where
  run : ∃ outcome, Ends (dispatcher.dispatch listing).run exchanges outcome
  read : ∀ answer, Inquiry.answered (.readFile listing.list) answer ∈ exchanges →
    answer = Except.ok content

theorem Pushed.eq_toList {request? : Option Queue.Request} (pushed : Pushed request? exchanges)
    (taken : ¬ Refused exchanges) : pushes exchanges = request?.toList := by
  rcases pushed with ⟨refused, -⟩ | ⟨-, whole⟩
  · exact (taken refused).elim
  · exact whole

theorem pushed_nothing : Pushed none [] := .inr ⟨by simp [Refused], rfl⟩

theorem not_refused_singleton {exchange : Exchange collaborators}
    (other : ∀ key body failure,
      exchange ≠ Inquiry.answered (.putObject key body) (Except.error failure)) :
    ¬ Refused [exchange] := by
  rintro ⟨key, body, failure, member⟩
  exact other key body failure (List.mem_singleton.mp member).symm

/-- Whether the object store refused a list does not depend on an exchange that is no refusal. -/
theorem refused_cons_iff {exchange : Exchange collaborators} (taken : ¬ Refused [exchange]) :
    Refused (exchange :: exchanges) ↔ Refused exchanges := by
  constructor
  · rintro ⟨key, body, failure, member⟩
    rcases List.mem_cons.mp member with rfl | member
    · exact (taken ⟨key, body, failure, List.mem_singleton_self _⟩).elim
    · exact ⟨key, body, failure, member⟩
  · rintro ⟨key, body, failure, member⟩
    exact ⟨key, body, failure, List.mem_cons_of_mem _ member⟩

/-- An answer that is no refusal of the object store, to an inquiry that pushes nothing. -/
theorem Pushed.cons {request? : Option Queue.Request} {exchange : Exchange collaborators}
    (pushed : Pushed request? exchanges) (quiet : pushOf? exchange = none)
    (taken : ¬ Refused [exchange]) : Pushed request? (exchange :: exchanges) := by
  have same : pushes (exchange :: exchanges) = pushes exchanges := by
    rw [pushes, List.filterMap_cons_none quiet]
    rfl
  rw [Pushed, refused_cons_iff taken, same]
  exact pushed

theorem pushed_of_pushBoxes {settings : Queue.Settings} {areas : List Box}
    (ends : Ends (pushBoxes settings areas).run exchanges outcome) :
    Pushed (if areas.isEmpty then none else some (Queue.Request.ofAreas areas settings))
      exchanges := by
  rw [run_pushBoxes] at ends
  split at ends
  case isTrue nothing =>
    obtain ⟨rfl, -⟩ := ends_done_iff.mp ends
    rw [if_pos nothing]
    exact pushed_nothing
  case isFalse something =>
    obtain ⟨answer, rfl, -⟩ := ends_answer_iff.mp ends
    rw [if_neg something]
    exact .inr ⟨not_refused_singleton (by rintro _ _ _ ⟨⟩), rfl⟩

theorem pushed_of_enqueue {area : Option Area} {lines : List Expiry.Line}
    (ends : Ends (dispatcher.enqueue (boxes area lines)).run exchanges outcome) :
    Pushed (dispatcher.requestFor area lines) exchanges := by
  rw [Dispatcher.requestFor]
  unfold Dispatcher.enqueue at ends
  cases target : dispatcher.toQueue with
  | none =>
      rw [target] at ends
      obtain ⟨rfl, -⟩ := ends_done_iff.mp ends
      exact pushed_nothing
  | some settings =>
      rw [target] at ends
      exact pushed_of_pushBoxes ends

/-- Without lines there is nothing to request. -/
theorem requestFor_nil (dispatcher : Dispatcher) (area : Option Area) :
    dispatcher.requestFor area [] = none := by
  have nothing : boxes area [] = [] := Expiry.boxes_nil
  cases target : dispatcher.toQueue with
  | none => simp [Dispatcher.requestFor, target]
  | some settings => simp [Dispatcher.requestFor, target, nothing]

theorem pushed_of_serve
    (ends : Ends (dispatcher.serve listing content).run exchanges outcome) :
    Pushed (dispatcher.requestFor listing.area (linesOf content)) exchanges := by
  rw [Dispatcher.serve_eq] at ends
  split at ends
  case isTrue nothing =>
    obtain ⟨rfl, -⟩ := ends_done_iff.mp ends
    rw [List.isEmpty_iff.mp nothing, requestFor_nil]
    exact pushed_nothing
  case isFalse something =>
    split at ends
    case isTrue wanted =>
      obtain ⟨answer, later, rfl, rest⟩ := ends_ask_iff.mp ends
      cases answer with
      | ok value => exact (pushed_of_enqueue rest).cons rfl (not_refused_singleton (by rintro _ _ _ ⟨⟩))
      | error failure =>
          obtain ⟨rfl, -⟩ := ends_done_iff.mp rest
          exact .inl ⟨⟨listing.key, content, failure, List.mem_singleton_self _⟩, rfl⟩
    case isFalse => exact pushed_of_enqueue ends

/-- A dispatch pushes the request that its lines lead to. -/
theorem Dispatched.pushed (dispatched : Dispatched dispatcher listing content exchanges) :
    Pushed (dispatcher.requestFor listing.area (linesOf content)) exchanges := by
  obtain ⟨⟨outcome, ends⟩, read⟩ := dispatched
  rw [Dispatcher.dispatch] at ends
  split at ends
  case isTrue nowhere =>
    obtain ⟨rfl, -⟩ := ends_done_iff.mp ends
    have target : dispatcher.toQueue = none := by
      cases queue : dispatcher.toQueue with
      | none => rfl
      | some settings => simp [Dispatcher.targets, queue] at nowhere
    rw [Dispatcher.requestFor, target]
    exact pushed_nothing
  case isFalse =>
    obtain ⟨answer, later, rfl, rest⟩ := ends_ask_iff.mp ends
    cases read answer List.mem_cons_self
    exact (pushed_of_serve rest).cons rfl (not_refused_singleton (by rintro _ _ _ ⟨⟩))

/-- A dispatch into a queue pushes a request if there are boxes. -/
theorem Dispatched.length_pushes (dispatched : Dispatched dispatcher listing content exchanges)
    (taken : ¬ Refused exchanges) {settings : Queue.Settings}
    (queue : dispatcher.toQueue = some settings)
    (something : (boxes listing.area (linesOf content)).length ≠ 0) :
    (pushes exchanges).length = 1 := by
  have present : (boxes listing.area (linesOf content)).isEmpty = false :=
    List.isEmpty_eq_false_iff.mpr (List.ne_nil_of_length_pos (Nat.pos_of_ne_zero something))
  rw [dispatched.pushed.eq_toList taken, Dispatcher.requestFor, queue, Option.bind_some, present]
  rfl

/-- Answers that give a list its content and refuse nothing else that a dispatch asks. -/
def giving (content : Bytes) : (question : Inquiry) → question.Answer
  | .readFile _ => (.ok content : Except FileFault Bytes)
  | question => Update.obliging [] question

/-- A list can be dispatched with any content, without a refusal. -/
theorem exists_dispatched (dispatcher : Dispatcher) (listing : Listing) (content : Bytes) :
    ∃ exchanges, Dispatched dispatcher listing content exchanges ∧ ¬ Refused exchanges := by
  obtain ⟨exchanges, outcome, ends, answered⟩ :=
    exists_ends_answering (P := collaborators) (giving content) (dispatcher.dispatch listing).run
  refine ⟨exchanges, ⟨⟨outcome, ends⟩, fun answer member => answered _ member⟩, ?_⟩
  rintro ⟨key, body, failure, member⟩
  cases (answered _ member : (Except.error failure : Except Failure Unit) = Except.ok ())

/-- Two dispatches push the same request, or neither does, as far as the object store lets them. -/
def SameRequest (exchanges further : List (Exchange collaborators)) : Prop :=
  ∃ request?, Pushed request? exchanges ∧ Pushed request? further

theorem SameRequest.eq_of_mem {request again : Queue.Request}
    (same : SameRequest exchanges further) (pushed : request ∈ pushes exchanges)
    (repeated : again ∈ pushes further) : again = request := by
  have only {exchanges : List (Exchange collaborators)} {request? : Option Queue.Request}
      {request : Queue.Request} (pushed : Pushed request? exchanges)
      (member : request ∈ pushes exchanges) : request? = some request := by
    rcases pushed with ⟨-, nothing⟩ | ⟨-, whole⟩
    · simp [nothing] at member
    · simpa [whole] using member
  obtain ⟨request?, first, second⟩ := same
  exact Option.some.inj ((only second repeated).symm.trans (only first pushed))

/-- Boxes that are the same lead to the same request. -/
theorem requestFor_congr {area : Option Area} {lines others : List Expiry.Line}
    (same : boxes area lines = boxes area others) :
    dispatcher.requestFor area lines = dispatcher.requestFor area others := by
  rw [Dispatcher.requestFor, Dispatcher.requestFor, same]

/-! ## Lines that are no tiles -/

/-- Lines that are no tiles are left out of a list. -/
def Sifted (content given : Bytes) : Prop :=
  ∀ line, Expiry.Counts (Utf8.decodeLossy given) line ↔
    Expiry.Counts (Utf8.decodeLossy content) line ∧ ∃ tile, Tile.parse line = .ok tile

theorem Sifted.lines_perm (sifted : Sifted content given) :
    (linesOf given).Perm (Expiry.tileLines (linesOf content)) := by
  have distinct (content : Bytes) : (linesOf content).Nodup := Expiry.nodup_firsts
  refine (List.perm_ext_iff_of_nodup (distinct given) ((distinct content).filter _)).mpr
    fun line => ?_
  have parsed : (Tile.parse line).toBool = true ↔ ∃ tile, Tile.parse line = .ok tile := by
    cases Tile.parse line with
    | ok tile => simp [Except.toBool]
    | error fault => simp [Except.toBool]
  rw [List.mem_filter, parsed, linesOf, linesOf, Expiry.mem_uniqueLines, Expiry.mem_uniqueLines]
  exact sifted line

/--
Lines that are no tiles may be left out of a list exactly if the zoom that decides stays
or occurs among no tiles; then the boxes stay, and what a dispatch pushes stays too.
-/
theorem malformed_skipped_iff (selection : Expiry.Selection) (lines : List Expiry.Line) :
    (selection.survivors (Expiry.tileLines lines) = selection.survivors lines ↔
      selection.Unmoved lines) ∧
    (selection.Unmoved lines →
      selection.boxes (Expiry.tileLines lines) = selection.boxes lines) ∧
    ∀ (dispatcher : Dispatcher) (listing other : Listing) (content given : Bytes)
      (exchanges further : List (Exchange collaborators)),
      Dispatched dispatcher listing content exchanges →
      Dispatched dispatcher other given further → other.area = listing.area →
      Sifted content given → (Upload.selection listing.area).Unmoved (linesOf content) →
      SameRequest exchanges further := by
  refine ⟨Expiry.survivors_tileLines_iff selection lines, Expiry.boxes_tileLines, ?_⟩
  intro dispatcher listing other content given exchanges further dispatched repeated area sifted
    unmoved
  have same : dispatcher.requestFor other.area (linesOf given) =
      dispatcher.requestFor listing.area (linesOf content) := by
    rw [area]
    exact requestFor_congr ((Expiry.boxes_congr sifted.lines_perm).trans
      (Expiry.boxes_tileLines unmoved))
  exact ⟨_, dispatched.pushed, same ▸ repeated.pushed⟩

/-- Two tiles of zoom three and a line that is no tile, which is the smallest one. -/
def trailingLines : List Expiry.Line :=
  ["#".toList, "3/1/1".toList, "3/1/2".toList]

/-- A list of these lines. -/
def trailingList : Bytes := Utf8.encode "#\n3/1/1\n3/1/2\n"

/-- A list of the tiles alone. -/
def trailingTiles : Bytes := Utf8.encode "3/1/2\n3/1/1\n"

theorem sort_trailingLines :
    (selection none).order.sort trailingLines =
      ["3/1/2".toList, "3/1/1".toList, "#".toList] :=
  Expiry.Order.Sorted.sort_eq (by decide) (by decide)

theorem trailingLines_unmoved : (selection none).Unmoved trailingLines := by
  have tiles : (selection none).order.sort (Expiry.tileLines trailingLines) =
      ["3/1/2".toList, "3/1/1".toList] := by
    rw [Expiry.tileLines, Expiry.Order.sort_filter, sort_trailingLines]
    rfl
  intro _
  left
  rw [Expiry.Selection.deepest, Expiry.Selection.deepest, sort_trailingLines, tiles]
  rfl

theorem length_boxes_trailingLines : (boxes none trailingLines).length = 1 := by
  rw [boxes, Expiry.Selection.boxes, Expiry.survivors_eq_filterMap, sort_trailingLines]
  rfl

theorem linesOf_trailingList : linesOf trailingList = trailingLines := by
  decide

theorem sifted_trailingList : Sifted trailingList trailingTiles := by
  have tiles : linesOf trailingTiles = ["3/1/2".toList, "3/1/1".toList] := by decide
  intro line
  rw [← Expiry.mem_uniqueLines, ← Expiry.mem_uniqueLines, ← linesOf, ← linesOf, tiles,
    linesOf_trailingList]
  constructor
  · intro member
    rcases List.mem_pair.mp member with rfl | rfl
    · exact ⟨by decide, _, rfl⟩
    · exact ⟨by decide, _, rfl⟩
  · rintro ⟨member, tile, parsed⟩
    simp only [trailingLines, List.mem_cons, List.not_mem_nil, or_false] at member
    rcases member with rfl | rfl | rfl
    · cases parsed
    · decide
    · decide

/-- The line changes neither the box of the tiles nor the request that is pushed for it. -/
theorem trailingLines_keep_boxes :
    (selection none).Unmoved trailingLines ∧
      boxes none (Expiry.tileLines trailingLines) = boxes none trailingLines ∧
      (boxes none trailingLines).length = 1 ∧
      ∃ exchanges further,
        Dispatched ⟨false, some ⟨"tiles", 3, 3⟩⟩ ⟨"town", "roads", 42, ⟨"list"⟩, none⟩
          trailingList exchanges ∧
        Dispatched ⟨false, some ⟨"tiles", 3, 3⟩⟩ ⟨"town", "roads", 43, ⟨"again"⟩, none⟩
          trailingTiles further ∧
        (pushes exchanges).length = 1 ∧ pushes further = pushes exchanges := by
  obtain ⟨exchanges, dispatched, taken⟩ := exists_dispatched
    ⟨false, some ⟨"tiles", 3, 3⟩⟩ ⟨"town", "roads", 42, ⟨"list"⟩, none⟩ trailingList
  obtain ⟨further, repeated, taken'⟩ := exists_dispatched
    ⟨false, some ⟨"tiles", 3, 3⟩⟩ ⟨"town", "roads", 43, ⟨"again"⟩, none⟩ trailingTiles
  obtain ⟨-, same, push⟩ := malformed_skipped_iff (selection none) trailingLines
  have unmoved := trailingLines_unmoved
  obtain ⟨request?, pushed, again⟩ := push _ _ _ _ _ _ _ dispatched repeated rfl
    sifted_trailingList (linesOf_trailingList.symm ▸ unmoved)
  refine ⟨unmoved, same unmoved, length_boxes_trailingLines, exchanges, further, dispatched,
    repeated, ?_, ?_⟩
  · apply dispatched.length_pushes taken rfl
    rw [linesOf_trailingList, length_boxes_trailingLines]
    decide
  · rw [pushed.eq_toList taken, again.eq_toList taken']

/-- Two tiles of zoom three and a line that is no tile, which is the greatest one. -/
def strayLines : List Expiry.Line :=
  ["zzz".toList, "3/1/1".toList, "3/1/2".toList]

/-- The greatest line starts with no zoom, so only tiles of zoom zero are kept and none is pushed. -/
theorem strayLines_lose_boxes :
    (boxes none strayLines).length = 0 ∧
      (boxes none (Expiry.tileLines strayLines)).length = 1 ∧
      (Dispatcher.mk false (some ⟨"tiles", 3, 3⟩)).requestFor none strayLines = none ∧
      ((Dispatcher.mk false (some ⟨"tiles", 3, 3⟩)).requestFor none
        (Expiry.tileLines strayLines)).isSome = true := by
  have sorted : (selection none).order.sort strayLines =
      ["zzz".toList, "3/1/2".toList, "3/1/1".toList] :=
    Expiry.Order.Sorted.sort_eq (by decide) (by decide)
  have tiles : (selection none).order.sort (Expiry.tileLines strayLines) =
      ["3/1/2".toList, "3/1/1".toList] := by
    rw [Expiry.tileLines, Expiry.Order.sort_filter, sorted]
    rfl
  have nothing : boxes none strayLines = [] := by
    rw [boxes, Expiry.Selection.boxes, Expiry.survivors_eq_filterMap, sorted]
    rfl
  have single : (boxes none (Expiry.tileLines strayLines)).length = 1 := by
    rw [boxes, Expiry.Selection.boxes, Expiry.survivors_eq_filterMap, tiles]
    rfl
  obtain ⟨box, only⟩ := List.length_eq_one_iff.mp single
  refine ⟨by rw [nothing]; rfl, single, ?_, ?_⟩
  · rw [Dispatcher.requestFor, nothing]
    rfl
  · rw [Dispatcher.requestFor, only]
    rfl

/-! ## Lists of the same lines -/

/--
Lists in which the same lines count, in whatever order and however often, lead to the
same request or both to none, and a queue that keeps its jobs recognises the request when
it comes again.
-/
theorem same_request_of_same_lines (area : other.area = listing.area)
    (same : ∀ line, Expiry.Counts (Utf8.decodeLossy given) line ↔
      Expiry.Counts (Utf8.decodeLossy content) line)
    (dispatched : Dispatched dispatcher listing content exchanges)
    (repeated : Dispatched dispatcher other given further) :
    SameRequest exchanges further ∧
      ∀ request ∈ pushes exchanges, ∀ again ∈ pushes further,
        again = request ∧ again.key = request.key ∧
          ∀ jobs : Queue.Jobs, jobs.Recognises request again := by
  have equal : dispatcher.requestFor other.area (linesOf given) =
      dispatcher.requestFor listing.area (linesOf content) := by
    rw [area]
    exact requestFor_congr (Expiry.boxes_congr (Expiry.uniqueLines_perm same))
  have shared : SameRequest exchanges further := ⟨_, dispatched.pushed, equal ▸ repeated.pushed⟩
  refine ⟨shared, fun request pushed again repeated => ?_⟩
  have one : again = request := shared.eq_of_mem pushed repeated
  have key : again.key = request.key := congrArg Queue.Request.key one
  exact ⟨one, key, fun jobs => jobs.recognises_of_key key⟩

/-- Two tiles of a column, the second one twice, with blanks and different ends of lines. -/
def townList : Bytes := Utf8.encode "1/0/1\n 1/0/0\r\n\n1/0/1"

/-- The same tiles in the other order. -/
def townListAgain : Bytes := Utf8.encode "1/0/0\n1/0/1\n"

theorem townList_same_request :
    ∃ exchanges further,
      Dispatched ⟨true, some ⟨"tiles", 1, 3⟩⟩ ⟨"town", "roads", 42, ⟨"list"⟩, none⟩ townList
        exchanges ∧
      Dispatched ⟨true, some ⟨"tiles", 1, 3⟩⟩ ⟨"town", "roads", 43, ⟨"again"⟩, none⟩ townListAgain
        further ∧
      (pushes exchanges).length = 1 ∧ pushes further = pushes exchanges := by
  obtain ⟨exchanges, dispatched, taken⟩ := exists_dispatched
    ⟨true, some ⟨"tiles", 1, 3⟩⟩ ⟨"town", "roads", 42, ⟨"list"⟩, none⟩ townList
  obtain ⟨further, repeated, taken'⟩ := exists_dispatched
    ⟨true, some ⟨"tiles", 1, 3⟩⟩ ⟨"town", "roads", 43, ⟨"again"⟩, none⟩ townListAgain
  have first : linesOf townList = ["1/0/1".toList, "1/0/0".toList] := by decide
  have second : linesOf townListAgain = ["1/0/0".toList, "1/0/1".toList] := by decide
  have same (line : Expiry.Line) : Expiry.Counts (Utf8.decodeLossy townListAgain) line ↔
      Expiry.Counts (Utf8.decodeLossy townList) line := by
    rw [← Expiry.mem_uniqueLines, ← Expiry.mem_uniqueLines, ← linesOf, ← linesOf, first, second]
    simp [or_comm]
  obtain ⟨⟨request?, pushed, again⟩, -⟩ :=
    same_request_of_same_lines (by rfl) same dispatched repeated
  refine ⟨exchanges, further, dispatched, repeated, ?_, ?_⟩
  · have sorted : (selection none).order.sort (linesOf townList) =
        ["1/0/1".toList, "1/0/0".toList] := by
      rw [first]
      exact Expiry.Order.Sorted.sort_eq (by decide) (by decide)
    have single : (boxes none (linesOf townList)).length = 1 := by
      rw [boxes, Expiry.Selection.boxes, Expiry.survivors_eq_filterMap, sorted]
      rfl
    apply dispatched.length_pushes taken rfl
    rw [single]
    decide
  · rw [pushed.eq_toList taken, again.eq_toList taken']

end MapReplica.Upload
