import MapReplica.Proofs.Update.Drives
import MapReplica.Proofs.Text.Utf8

/-!
# Numbers in progress texts

The number of a progress text is that of its leftmost marker, if the digits there are
ASCII digits and not too many. A commit writes the text with the next number in the place
of these digits and leaves everything around them as it is, so that any number of commits
comes to writing the last number once.
-/

namespace MapReplica

open Dialogue

namespace Marker

variable {text before run after : List Char} {c : Char} {number : Nat}

/-! ## The leftmost marker -/

/--
A text that is cut at its leftmost marker: what stands in front of the name, the digits
behind the name, and what stands behind the digits.
-/
structure Leftmost (text before run after : List Char) : Prop where
  whole : text = before ++ name ++ run ++ after
  nonempty : run ≠ []
  digits : ∀ c ∈ run, Text.isDecimalDigit c = true
  /-- There is no further digit behind the digits. -/
  maximal : ∀ c, after.head? = some c → Text.isDecimalDigit c = false
  /-- Wherever the name stands in front of a digit, it does not stand further to the left. -/
  leftmost : ∀ front c back, text = front ++ name ++ c :: back → Text.isDecimalDigit c = true →
    before.length ≤ front.length

/-- A text starts with the name of the marker and a digit exactly if a marker starts it. -/
theorem atStart?_ne_none_iff :
    atStart? text ≠ none ↔
      ∃ c back, text = name ++ c :: back ∧ Text.isDecimalDigit c = true := by
  rw [Ne, atStart?_eq_none_iff, not_not]
  constructor
  · rintro ⟨⟨rest, rfl⟩, c, found, digit⟩
    rw [List.getElem?_append_right (Nat.le_refl _), Nat.sub_self, ← List.head?_eq_getElem?] at found
    obtain ⟨back, rfl⟩ := List.head?_eq_some_iff.mp found
    exact ⟨c, back, rfl, digit⟩
  · rintro ⟨c, back, rfl, digit⟩
    refine ⟨List.prefix_append _ _, c, ?_, digit⟩
    rw [List.getElem?_append_right (Nat.le_refl _), Nat.sub_self, List.getElem?_cons_zero]

/-- A marker at the start of a text is its leftmost one. -/
theorem leftmost_of_atStart? {marker : Marker} (start : atStart? text = some marker) :
    Leftmost text [] marker.run marker.after ∧ marker.before = name := by
  obtain ⟨whole, before, run, after, nonempty⟩ := atStart?_eq_some start
  refine ⟨⟨whole, nonempty, ?_, ?_, fun _ _ _ _ _ => Nat.zero_le _⟩, before⟩
  · rw [run]
    exact List.all_eq_true.mp List.all_takeWhile
  · intro c first
    have stop := List.head?_dropWhile_not Text.isDecimalDigit (text.drop name.length)
    rw [← after, first] at stop
    exact stop

/-- A marker that is leftmost in a text starts it, or is leftmost in the text without its first character. -/
theorem leftmost_cons_iff (missing : atStart? (c :: text) = none) :
    Leftmost (c :: text) before run after ↔
      ∃ inner, before = c :: inner ∧ Leftmost text inner run after := by
  constructor
  · rintro ⟨whole, nonempty, digits, maximal, leftmost⟩
    cases before with
    | nil =>
        -- The name and the first of the digits would start the text.
        obtain ⟨digit, rest, rfl⟩ := List.exists_cons_of_ne_nil nonempty
        have starts : atStart? (c :: text) ≠ none := atStart?_ne_none_iff.mpr
          ⟨digit, rest ++ after, by simpa using whole, digits digit List.mem_cons_self⟩
        exact (starts missing).elim
    | cons first inner =>
        obtain ⟨rfl, rest⟩ := List.cons.inj whole
        refine ⟨inner, rfl, rest, nonempty, digits, maximal, fun front digit back split found => ?_⟩
        have longer := leftmost (c :: front) digit back (by simp [split]) found
        exact Nat.le_of_succ_le_succ longer
  · rintro ⟨inner, rfl, whole, nonempty, digits, maximal, leftmost⟩
    refine ⟨by simp [whole], nonempty, digits, maximal, fun front digit back split found => ?_⟩
    cases front with
    | nil => exact (atStart?_ne_none_iff.mpr ⟨digit, back, split, found⟩ missing).elim
    | cons first rest =>
        have later := leftmost rest digit back (List.cons.inj split).2 found
        exact Nat.succ_le_succ later

theorem leftmost_of_find? {marker : Marker} (found : find? text = some marker) :
    ∃ before, marker.before = before ++ name ∧ Leftmost text before marker.run marker.after := by
  induction text generalizing marker with
  | nil => cases found
  | cons c rest ih =>
      rw [find?] at found
      cases start : atStart? (c :: rest) with
      | some here =>
          rw [start] at found
          cases found
          obtain ⟨first, named⟩ := leftmost_of_atStart? start
          exact ⟨[], named, first⟩
      | none =>
          rw [start] at found
          obtain ⟨later, hlater, rfl⟩ := Option.map_eq_some_iff.mp found
          obtain ⟨inner, named, leftmost⟩ := ih hlater
          exact ⟨c :: inner, congrArg (c :: ·) named,
            (leftmost_cons_iff start).mpr ⟨inner, rfl, leftmost⟩⟩

/-- The leftmost marker is the one that is found. -/
theorem Leftmost.find?_eq (leftmost : Leftmost text before run after) :
    find? text = some ⟨before ++ name, run, after⟩ := by
  induction text generalizing before with
  | nil =>
      have nothing := List.append_eq_nil_iff.mp leftmost.whole.symm
      exact (leftmost.nonempty (List.append_eq_nil_iff.mp nothing.1).2).elim
  | cons c rest ih =>
      rw [find?]
      cases start : atStart? (c :: rest) with
      | some here =>
          obtain ⟨first, -⟩ := leftmost_of_atStart? start
          obtain ⟨digit, later, digits⟩ := List.exists_cons_of_ne_nil first.nonempty
          have front := leftmost.leftmost [] digit (later ++ here.after)
            (by simpa [digits] using first.whole) (first.digits digit (by simp [digits]))
          obtain rfl : before = [] := List.length_eq_zero_iff.mp (Nat.le_zero.mp front)
          have again := atStart?_name_append leftmost.nonempty leftmost.digits leftmost.maximal
          rw [← List.nil_append name, ← leftmost.whole, start] at again
          exact again
      | none =>
          obtain ⟨inner, rfl, later⟩ := (leftmost_cons_iff start).mp leftmost
          simp only [ih later]
          rfl

/-! ## Numbers -/

/-- Digits are a number: they are ASCII digits, and their value is a signed number of 64 bits. -/
structure Denotes (run : List Char) (number : Nat) : Prop where
  ascii : ∀ c ∈ run, c.isDigit = true
  value : number = Nat.ofDigitChars 10 run 0
  fits : number ≤ Number.maxSigned64

theorem number?_eq_some_iff : number? run = some number ↔ Denotes run number := by
  rw [number?]
  constructor
  · intro found
    cases read : Number.readDigits Number.maxSigned64 0 run with
    | error fault =>
        rw [read] at found
        cases found
    | ok value =>
        rw [read] at found
        cases found
        obtain ⟨ascii, value, fits⟩ := (Number.readDigits_eq_ok_iff (Nat.zero_le _)).mp read
        exact ⟨ascii, value, fits⟩
  · rintro ⟨ascii, value, fits⟩
    rw [(Number.readDigits_eq_ok_iff (Nat.zero_le _)).mpr ⟨ascii, value, fits⟩]
    rfl

/-- A text has the number that the digits of its leftmost marker are. -/
theorem read?_eq_some_iff :
    read? text = some number ↔
      ∃ before run after, Leftmost text before run after ∧ Denotes run number := by
  rw [read?, Option.bind_eq_some_iff]
  constructor
  · rintro ⟨marker, found, number⟩
    obtain ⟨before, -, leftmost⟩ := leftmost_of_find? found
    exact ⟨before, marker.run, marker.after, leftmost, number?_eq_some_iff.mp number⟩
  · rintro ⟨before, run, after, leftmost, denotes⟩
    exact ⟨_, leftmost.find?_eq, number?_eq_some_iff.mpr denotes⟩

theorem Leftmost.withNumber_eq (leftmost : Leftmost text before run after) (number : Nat) :
    withNumber text number = before ++ name ++ Number.digits number ++ after := by
  rw [withNumber, leftmost.find?_eq]

/-- Other digits in the place of the leftmost marker are the leftmost marker again. -/
theorem Leftmost.replace (leftmost : Leftmost text before run after) (number : Nat) :
    Leftmost (before ++ name ++ Number.digits number ++ after) before (Number.digits number)
      after := by
  have written := find?_withNumber number leftmost.find?_eq
  rw [leftmost.withNumber_eq] at written
  obtain ⟨front, named, again⟩ := leftmost_of_find? written
  obtain rfl : before = front := List.append_cancel_right named
  exact again

theorem denotes_digits (fits : number ≤ Number.maxSigned64) :
    Denotes (Number.digits number) number :=
  number?_eq_some_iff.mp (number?_digits_eq_some_iff.mpr ⟨rfl, fits⟩)

/-- The octets of a text that is cut at its marker. -/
def octets (before run after : List Char) : Bytes :=
  Utf8.encodeChars before ++ Utf8.encodeChars name ++ Utf8.encodeChars run ++
    Utf8.encodeChars after

theorem encodeChars_eq_octets (before run after : List Char) :
    Utf8.encodeChars (before ++ name ++ run ++ after) = octets before run after := by
  simp only [Utf8.encodeChars, octets, List.flatMap_append]

end Marker

namespace Progress

open Marker (Leftmost Denotes octets)

variable {progress last : Progress} {said : List (Exchange collaborators)}
variable {before run after : List Char} {number : Nat}

/-! ## Commits -/

theorem sequenceOf_eq_ok_iff {source : String} {content : List Char} :
    sequenceOf source content = .ok number ↔ Marker.read? content = some number := by
  unfold sequenceOf
  cases Marker.read? content with
  | none => simp
  | some found => simp

theorem starting_commit :
    commit.starting progress =
      .ask (P := collaborators) (.putObject progress.key (Utf8.encodeChars progress.nextContent))
        fun (answer : Except Failure Unit) =>
          .done (answer, if answer.toBool then progress.advanced else progress) := by
  refine congrArg (Dialogue.ask (P := collaborators) _) (funext fun answer => ?_)
  rcases answer with failure | ⟨⟨⟩⟩
  · rfl
  · rfl

/-- Commits, one after the other, up to the first one that fails. -/
def commitTimes : Nat → Activity Progress Unit
  | 0 => return ()
  | count + 1 => do
      commit
      commitTimes count

/-- The put of a text whose marker has a number. -/
def putOf (progress : Progress) (before after : List Char) (number : Nat)
    (answer : Except Failure Unit) : Exchange collaborators :=
  Inquiry.answered (.putObject progress.key (octets before (Number.digits number) after)) answer

theorem nextContent_eq (leftmost : Leftmost progress.content before run after)
    (current : progress.current = number) :
    progress.nextContent = before ++ Marker.name ++ Number.digits (number + 1) ++ after := by
  have next : progress.next = number + 1 := by
    rw [Progress.next, current]
    exact Int.toNat_natCast (number + 1)
  rw [nextContent, next, leftmost.withNumber_eq]

/-- What a commit puts is the text with the next number. -/
theorem put_of_ends_commit {outcome : Except Failure Unit}
    (leftmost : Leftmost progress.content before run after) (current : progress.current = number)
    (ends : Ends (commit.starting progress) said (outcome, last)) :
    said = [progress.putOf before after (number + 1) outcome] ∧
      (outcome = .ok () → last = progress.advanced) := by
  rw [starting_commit, nextContent_eq leftmost current, Marker.encodeChars_eq_octets] at ends
  obtain ⟨answer, rfl, same⟩ := ends_answer_iff.mp ends
  cases same
  refine ⟨rfl, ?_⟩
  rintro rfl
  rfl

/-- Any number of commits can succeed. -/
theorem exists_ends_commitTimes (count : Nat) (progress : Progress) :
    ∃ said last, Ends ((commitTimes count).starting progress) said (.ok (), last) := by
  induction count generalizing progress with
  | zero => exact ⟨[], progress, .done _⟩
  | succ count ih =>
      have first : ∃ front, Ends (commit.starting progress) front (.ok (), progress.advanced) := by
        rw [starting_commit]
        exact ⟨_, ends_answer_iff.mpr ⟨Except.ok (), rfl, rfl⟩⟩
      obtain ⟨front, committed⟩ := first
      obtain ⟨said, last, later⟩ := ih progress.advanced
      exact ⟨_, last, Activity.ends_bind_ok_iff.mpr ⟨_, (), _, said, rfl, committed, later⟩⟩

/-- Any number of commits puts the text with each of the next numbers and ends with the last one. -/
theorem of_ends_commitTimes {count : Nat} (leftmost : Leftmost progress.content before run after)
    (current : progress.current = number)
    (ends : Ends ((commitTimes count).starting progress) said (.ok (), last)) :
    said = (List.range count).map (fun earlier =>
        progress.putOf before after (number + earlier + 1) (.ok ())) ∧
      last.current = (number + count : Nat) ∧
      last.content = if count = 0 then progress.content
        else before ++ Marker.name ++ Number.digits (number + count) ++ after := by
  induction count generalizing progress run number said with
  | zero =>
      cases ends
      exact ⟨rfl, current, rfl⟩
  | succ count ih =>
      obtain ⟨front, _, middle, back, rfl, first, later⟩ := Activity.ends_bind_ok_iff.mp ends
      obtain ⟨rfl, advances⟩ := put_of_ends_commit leftmost current first
      obtain rfl := advances rfl
      have written : progress.advanced.content =
          before ++ Marker.name ++ Number.digits (number + 1) ++ after :=
        nextContent_eq leftmost current
      have again : Leftmost progress.advanced.content before (Number.digits (number + 1)) after :=
        written ▸ leftmost.replace (number + 1)
      have counted : progress.advanced.current = (number + 1 : Nat) :=
        congrArg (· + 1) current
      obtain ⟨rfl, reached, content⟩ := ih again counted later
      have shift : number + 1 + count = number + (count + 1) := by omega
      refine ⟨?_, shift ▸ reached, ?_⟩
      · rw [List.range_succ_eq_map, List.map_cons, List.map_map]
        refine congrArg (progress.putOf before after (number + 1) (.ok ()) :: ·) ?_
        refine List.map_congr_left fun earlier _ => ?_
        show _ = progress.putOf before after (number + (earlier + 1) + 1) (.ok ())
        rw [show number + (earlier + 1) + 1 = number + 1 + earlier + 1 by omega]
        rfl
      · rw [content, if_neg (Nat.succ_ne_zero count), written, shift]
        split
        case isTrue none => rw [none]
        case isFalse => rfl

/--
Reading and rewriting a progress text. A text has a number exactly if the digits at its
leftmost marker are one, all of them ASCII digits and not above the greatest signed number
of 64 bits. A commit puts the octets of the text with these digits replaced by those of the
next number, which is then the number of the text; and commits one after the other leave
the text as if the last number had been written at once.
-/
theorem commits_rewrite_digits (text : List Char) :
    (∀ source number, sequenceOf source text = .ok number ↔
      ∃ before run after, Leftmost text before run after ∧ Denotes run number) ∧
    ∀ before run after number, Leftmost text before run after → Denotes run number →
      (∀ source body, textOf source body = .ok text → body = octets before run after) ∧
      ∀ progress : Progress, progress.content = text → progress.current = number →
        (number < Number.maxSigned64 → ∀ said outcome last,
          Ends (commit.starting progress) said (outcome, last) →
            said = [progress.putOf before after (number + 1) outcome] ∧
            ∀ source, sequenceOf source
              (before ++ Marker.name ++ Number.digits (number + 1) ++ after) = .ok (number + 1)) ∧
        ∀ count said last, number + count < Number.maxSigned64 →
          Ends ((commitTimes (count + 1)).starting progress) said (.ok (), last) →
            said = (List.range (count + 1)).map (fun earlier =>
              progress.putOf before after (number + earlier + 1) (.ok ())) ∧
            last.current = (number + count + 1 : Nat) ∧
            last.content =
              before ++ Marker.name ++ Number.digits (number + count + 1) ++ after ∧
            ∀ source, sequenceOf source last.content = .ok (number + count + 1) := by
  refine ⟨fun source number => sequenceOf_eq_ok_iff.trans Marker.read?_eq_some_iff, ?_⟩
  intro before run after number leftmost denotes
  have reads (source : String) (later : Nat) (fits : later ≤ Number.maxSigned64) :
      sequenceOf source (before ++ Marker.name ++ Number.digits later ++ after) = .ok later :=
    sequenceOf_eq_ok_iff.mpr (Marker.read?_eq_some_iff.mpr
      ⟨before, _, after, leftmost.replace later, Marker.denotes_digits fits⟩)
  constructor
  · intro source body read
    have decoded := Utf8.encode_of_decode? (Update.decode?_of_textOf read)
    rw [← decoded, Utf8.encode, String.toList_ofList, leftmost.whole,
      Marker.encodeChars_eq_octets]
  · rintro progress rfl current
    constructor
    · intro fits said outcome last ends
      exact ⟨(put_of_ends_commit leftmost current ends).1, fun source => reads source _ fits⟩
    · intro count said last fits ends
      obtain ⟨puts, reached, content⟩ := of_ends_commitTimes leftmost current ends
      rw [if_neg (Nat.succ_ne_zero count)] at content
      exact ⟨puts, reached, content, fun source => content ▸ reads source _ fits⟩

/-- A text with a marker without digits, one with leading zeros and a third one. -/
def threefold : List Char := "sequenceNumber=\nsequenceNumber=009\nsequenceNumber=7".toList

/-- What stands in front of the name of the leftmost marker of the text. -/
def threefoldFront : List Char := "sequenceNumber=\n".toList

/-- What stands behind the digits of the leftmost marker of the text. -/
def threefoldBack : List Char := "\nsequenceNumber=7".toList

theorem threefold_leftmost :
    Leftmost threefold threefoldFront "009".toList threefoldBack ∧ Denotes "009".toList 9 := by
  have found : Marker.find? threefold =
      some ⟨threefoldFront ++ Marker.name, "009".toList, threefoldBack⟩ := by
    decide +kernel
  obtain ⟨front, named, leftmost⟩ := Marker.leftmost_of_find? found
  obtain rfl : threefoldFront = front := List.append_cancel_right named
  exact ⟨leftmost, Marker.number?_eq_some_iff.mp (by decide)⟩

/-- Two commits of the text put its second marker with 10 and then with 11. -/
theorem threefold_rewritten : ∃ said last,
    Ends ((commitTimes 2).starting { content := threefold, current := 9 }) said (.ok (), last) ∧
      last.content = threefoldFront ++ "sequenceNumber=11".toList ++ threefoldBack ∧
      sequenceOf "feed" last.content = .ok 11 := by
  obtain ⟨leftmost, denotes⟩ := threefold_leftmost
  let progress : Progress := { content := threefold, current := 9 }
  obtain ⟨-, commits⟩ := (commits_rewrite_digits threefold).2 _ _ _ _ leftmost denotes
  obtain ⟨-, twice⟩ := commits progress rfl rfl
  obtain ⟨said, last, ends⟩ := exists_ends_commitTimes 2 progress
  obtain ⟨-, -, content, number⟩ := twice 1 said last (by decide) ends
  exact ⟨said, last, ends, content, number "feed"⟩

end Progress

end MapReplica
