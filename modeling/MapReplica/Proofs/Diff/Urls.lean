import Mathlib.Algebra.Group.Nat.Defs
import Mathlib.Data.List.DropRight
import MapReplica.Proofs.Feed.State
import MapReplica.Proofs.Update.Attempt

/-!
# The urls of diffs

The levels of a sequence number are numerals from which the number can be read back, and
all but the first have three digits. So no two numbers have one path. A url and a path are
joined by one slash, however many there were at the seam, so within a feed no two numbers
are downloaded from one url, and none from where the text of the feed lies.
-/

namespace MapReplica

open Dialogue

namespace Number

variable {width n : Nat}

/-- Zeros in front of a numeral do not change its value. -/
theorem ofDigitChars_padded : Nat.ofDigitChars 10 (padded width n) 0 = n := by
  rw [padded, Nat.ofDigitChars_append, Nat.ofDigitChars_replicate_zero, Nat.mul_zero]
  exact Nat.ofDigitChars_ten_toDigits

theorem isDigit_of_mem_padded : ∀ c ∈ padded width n, c.isDigit = true := by
  intro c member
  rcases List.mem_append.mp member with zero | shown
  · rw [List.eq_of_mem_replicate zero]
    rfl
  · exact Nat.isDigit_of_mem_toDigits (by decide) (by decide) shown

theorem length_padded : (padded width n).length = max width (digits n).length := by
  rw [padded, List.length_append, List.length_replicate]
  omega

/-- A number that needs no more digits than the width is filled up to it. -/
theorem length_padded_of_lt (positive : 0 < width) (small : n < 10 ^ width) :
    (padded width n).length = width := by
  have short : (digits n).length ≤ width :=
    (Nat.length_toDigits_le_iff (by decide) positive).mpr small
  rw [length_padded, Nat.max_eq_left short]

theorem padded_injective {m : Nat} (same : padded width m = padded width n) : m = n := by
  have values := congrArg (fun text => Nat.ofDigitChars 10 text 0) same
  simpa only [ofDigitChars_padded] using values

theorem padded_ne_nil : padded width n ≠ [] :=
  List.append_ne_nil_of_right_ne_nil _ (digits_ne_nil n)

/-- A numeral that was filled up is read as the number. -/
theorem read_padded {bound : Nat} (fits : n ≤ bound) : read bound (padded width n) = .ok n := by
  refine read_eq_ok_iff.mpr ⟨⟨padded width n, .inl rfl, padded_ne_nil, isDigit_of_mem_padded, ?_⟩,
    fits⟩
  exact ofDigitChars_padded.symm

end Number

namespace Diff

/-! ## Levels -/

/-- A level is the numeral of a number: at least three digits that are read as the number. -/
structure Level (text : String) (number : Nat) : Prop where
  wide : 3 ≤ text.length
  ascii : ∀ c ∈ text.toList, c.isDigit = true
  read : Number.read Number.max64 text.toList = .ok number

theorem level_padded {number : Nat} (fits : number ≤ Number.max64) :
    Level (String.ofList (Number.padded 3 number)) number := by
  constructor
  · rw [String.length_ofList, Number.length_padded]
    exact Nat.le_max_left ..
  · rw [String.toList_ofList]
    exact Number.isDigit_of_mem_padded
  · rw [String.toList_ofList]
    exact Number.read_padded fits

/--
The levels of a number from which it is put together again within 64 bits: the first is as
long as it has to be, the others have three digits.
-/
def Composed (sequence : Nat) : Prop :=
  ∃ top middle low, Level (levels sequence).1 top ∧ Level (levels sequence).2.1 middle ∧
    Level (levels sequence).2.2 low ∧ (levels sequence).2.1.length = 3 ∧
    (levels sequence).2.2.length = 3 ∧ top * 1000000 + middle * 1000 ≤ Number.max64 ∧
    top * 1000000 + middle * 1000 + low = sequence

theorem length_middle (sequence : Nat) : (levels sequence).2.1.length = 3 := by
  rw [levels, String.length_ofList]
  exact Number.length_padded_of_lt (by decide) (by omega)

theorem length_low (sequence : Nat) : (levels sequence).2.2.length = 3 := by
  rw [levels, String.length_ofList]
  exact Number.length_padded_of_lt (by decide) (by omega)

theorem composed_of_le {sequence : Nat} (fits : sequence ≤ Number.max64) : Composed sequence := by
  refine ⟨sequence / 1000000, sequence % 1000000 / 1000, sequence % 1000, level_padded ?_,
    level_padded ?_, level_padded ?_, length_middle sequence, length_low sequence, ?_, ?_⟩
  all_goals omega

/-- No two numbers have the same levels. -/
theorem levels_injective : Function.Injective levels := by
  intro first second same
  obtain ⟨top, rest⟩ := Prod.mk.inj same
  obtain ⟨middle, low⟩ := Prod.mk.inj rest
  have tops := Number.padded_injective (String.ofList_injective top)
  have middles := Number.padded_injective (String.ofList_injective middle)
  have lows := Number.padded_injective (String.ofList_injective low)
  omega

theorem toList_path (sequence : Nat) :
    (path sequence).toList =
      (levels sequence).1.toList ++ ('/' :: (levels sequence).2.1.toList ++
        ('/' :: (levels sequence).2.2.toList ++ '.' :: extension.toList)) := by
  simp [path, String.toList_append]

/-- No two numbers have the same path: what follows the first level has a fixed length. -/
theorem path_injective : Function.Injective path := by
  intro first second same
  have lists := congrArg String.toList same
  rw [toList_path, toList_path] at lists
  have width : ∀ sequence, (levels sequence).2.1.toList.length = 3 ∧
      (levels sequence).2.2.toList.length = 3 := fun sequence =>
    ⟨String.length_toList.trans (length_middle sequence),
      String.length_toList.trans (length_low sequence)⟩
  obtain ⟨tops, rests⟩ := List.append_inj' lists (by simp [width])
  obtain ⟨middles, lows⟩ := List.append_inj rests (by simp [width])
  obtain ⟨lows, -⟩ := List.append_inj' lows rfl
  apply levels_injective
  refine Prod.ext (String.toList_injective tops) (Prod.ext ?_ ?_)
  · exact String.toList_injective (List.cons.inj middles).2
  · exact String.toList_injective (List.cons.inj lows).2

/-! ## Joining -/

/-- A number of slashes. -/
def slashes (count : Nat) : String :=
  String.ofList (List.replicate count '/')

/-- Slashes at the seam of a url and a path make no difference. -/
theorem joinUrl_slashes (base path : String) (after before : Nat) :
    joinUrl (base ++ slashes after) (slashes before ++ path) = joinUrl base path := by
  have all : ∀ count, ∀ c ∈ List.replicate count '/', (c == '/') = true := by
    intro count c member
    rw [List.eq_of_mem_replicate member]
    rfl
  simp only [joinUrl, slashes, String.toList_append, String.toList_ofList, List.reverse_append,
    List.reverse_replicate, List.dropWhile_append_of_pos (all _)]

/-- A url and a path without the slashes at their seam. -/
structure Seam (base path front back : String) : Prop where
  base : ∃ count, base = front ++ slashes count
  path : ∃ count, path = slashes count ++ back
  front : front.toList.getLast? ≠ some '/'
  back : back.toList.head? ≠ some '/'

theorem exists_slashes_head (text : List Char) :
    ∃ count, text = List.replicate count '/' ++ text.dropWhile (· == '/') ∧
      (text.dropWhile (· == '/')).head? ≠ some '/' := by
  refine ⟨(text.takeWhile (· == '/')).length, ?_, fun slash => ?_⟩
  · have only : text.takeWhile (· == '/') =
        List.replicate (text.takeWhile (· == '/')).length '/' :=
      List.eq_replicate_of_mem fun c member => by simpa using List.mem_takeWhile_imp member
    rw [← only, List.takeWhile_append_dropWhile]
  · have first := List.head?_dropWhile_not (· == '/') text
    rw [slash] at first
    cases first

/-- A url and a path are joined by exactly one slash. -/
theorem exists_seam (base path : String) :
    ∃ front back, Seam base path front back ∧ joinUrl base path = front ++ "/" ++ back := by
  obtain ⟨before, split, head⟩ := exists_slashes_head path.toList
  obtain ⟨after, split', last⟩ := exists_slashes_head base.toList.reverse
  refine ⟨String.ofList (base.toList.reverse.dropWhile (· == '/')).reverse,
    String.ofList (path.toList.dropWhile (· == '/')), ⟨⟨after, ?_⟩, ⟨before, ?_⟩, ?_, ?_⟩, ?_⟩
  · apply String.toList_injective
    have whole := congrArg List.reverse split'
    rw [List.reverse_reverse, List.reverse_append, List.reverse_replicate] at whole
    simpa [slashes, String.toList_append] using whole
  · apply String.toList_injective
    simpa [slashes, String.toList_append] using split
  · simpa using last
  · simpa using head
  · apply String.toList_injective
    simp [joinUrl, String.toList_append]

theorem dropWhile_path (sequence : Nat) :
    (path sequence).toList.dropWhile (· == '/') = (path sequence).toList := by
  have digits : ∀ c ∈ (levels sequence).1.toList, c.isDigit = true := by
    rw [levels, String.toList_ofList]
    exact fun _ => Number.isDigit_of_mem_padded _
  have nonempty : (levels sequence).1.toList ≠ [] := by
    rw [levels, String.toList_ofList]
    exact Number.padded_ne_nil
  obtain ⟨c, rest, first⟩ := List.exists_cons_of_ne_nil nonempty
  have digit := digits c (first ▸ List.mem_cons_self)
  have other : (c == '/') = false := by
    rw [beq_eq_false_iff_ne]
    rintro rfl
    cases digit
  rw [toList_path, first, List.cons_append, List.dropWhile_cons, other]
  rfl

/-- Within a feed no two diffs have one url. -/
theorem joinUrl_path_injective (feed : String) :
    Function.Injective fun sequence => joinUrl feed (path sequence) := by
  intro first second same
  have backs := List.append_cancel_left (String.ofList_injective same)
  rw [dropWhile_path, dropWhile_path] at backs
  exact path_injective (String.toList_injective (List.cons.inj backs).2)

end Diff

/-! ## Downloads -/

/-- The url that an inquiry fetches. -/
def Inquiry.url? : Inquiry → Option String
  | .fetch url _ => some url
  | _ => none

/-- The urls that were fetched in exchanges. -/
def fetched (exchanges : List (Exchange collaborators)) : List String :=
  exchanges.filterMap fun exchange => Inquiry.url? exchange.question

theorem fetched_append (front back : List (Exchange collaborators)) :
    fetched (front ++ back) = fetched front ++ fetched back :=
  List.filterMap_append ..

theorem fetched_of_asks {α : Type} {dialogue : Dialogue collaborators α} {value : α}
    {exchanges : List (Exchange collaborators)}
    (asks : dialogue.Asks fun inquiry : Inquiry => inquiry.url? = none)
    (ends : Ends dialogue exchanges value) : fetched exchanges = [] :=
  List.filterMap_eq_nil_iff.mpr fun exchange member => asks.of_ends ends exchange member

namespace Feed

variable {exchanges : List (Exchange collaborators)} {url feed : String}

/-- A request is one fetch, whatever comes of it. -/
theorem fetched_of_ends_get {headers : List Http.Header} {outcome : Except Failure Http.Response}
    (ends : Ends (get url headers).run exchanges outcome) : fetched exchanges = [url] := by
  obtain ⟨answer, rfl, -⟩ := ends_get_iff.mp ends
  rfl

/-- What follows a request fetches nothing more. -/
theorem fetched_of_ends_get_bind {α : Type} {headers : List Http.Header}
    {rest : Http.Response → Task α} {outcome : Except Failure α}
    (asks : ∀ response, (rest response).run.Asks fun inquiry : Inquiry => inquiry.url? = none)
    (ends : Ends (get url headers >>= rest).run exchanges outcome) : fetched exchanges = [url] := by
  rcases Task.ends_bind_iff.mp ends with ⟨_, -, front⟩ | ⟨front, response, back, rfl, got, later⟩
  · exact fetched_of_ends_get front
  · rw [fetched_append, fetched_of_ends_get got, fetched_of_asks (asks response) later]
    rfl

theorem fetched_of_ends_download {headers : List Http.Header} {destination : Path}
    {outcome : Except Failure Unit}
    (ends : Ends (download url headers destination).run exchanges outcome) :
    fetched exchanges = [url] := by
  refine fetched_of_ends_get_bind (fun response => ?_) ends
  refine Task.asks_bind (Update.asks_makeParent fun _ _ => rfl) fun _ => ?_
  refine Task.asks_bind ⟨rfl, fun _ => trivial⟩ fun _ => ?_
  split
  case isTrue => trivial
  case isFalse => trivial

theorem fetched_of_ends_state {outcome : Except Failure (List Char)}
    (ends : Ends (state feed).run exchanges outcome) :
    fetched exchanges = [Diff.joinUrl feed stateFile] := by
  refine fetched_of_ends_get_bind (fun response => ?_) ends
  refine Task.asks_bind (?_ : (bodyOf _ response).run.Asks _) fun body => trivial
  unfold bodyOf
  split
  case isTrue => trivial
  case isFalse => trivial

end Feed

namespace Diff

/-- The exchanges of a complete download of a diff. -/
def Downloads (feed : String) (sequence : Nat) (exchanges : List (Exchange collaborators)) : Prop :=
  ∃ destination outcome, Ends (Feed.downloadDiff feed sequence destination).run exchanges outcome

/--
Every diff has a url of its own. A number of 64 bits can be put together from its levels,
so no two numbers have one path; slashes at the seam of a url and a path come down to one;
and a download, whatever comes of it, is one fetch from a url that belongs to no other
number of the feed and not to the text of the feed.
-/
theorem each_diff_has_own_url :
    (∀ sequence ≤ Number.max64, Composed sequence) ∧ Function.Injective path ∧
      (∀ base path, (∀ after before,
          joinUrl (base ++ slashes after) (slashes before ++ path) = joinUrl base path) ∧
        ∃ front back, Seam base path front back ∧ joinUrl base path = front ++ "/" ++ back) ∧
      ∀ feed sequence exchanges, Downloads feed sequence exchanges →
        ∃ url, fetched exchanges = [url] ∧
          (∀ other others, Downloads feed other others → other ≠ sequence →
            url ∉ fetched others) ∧
          ∀ looks outcome, Ends (Feed.state feed).run looks outcome → url ∉ fetched looks := by
  refine ⟨fun _ => composed_of_le, path_injective,
    fun base path => ⟨joinUrl_slashes base path, exists_seam base path⟩, ?_⟩
  rintro feed sequence exchanges ⟨destination, outcome, ends⟩
  refine ⟨_, Feed.fetched_of_ends_download ends, ?_, ?_⟩
  · rintro other others ⟨_, _, ends'⟩ different same
    rw [Feed.fetched_of_ends_download ends', List.mem_singleton] at same
    exact different (joinUrl_path_injective feed same).symm
  · intro looks outcome ends' same
    rw [Feed.fetched_of_ends_state ends', List.mem_singleton] at same
    exact joinUrl_path_ne_state same

/-- The greatest number of 64 bits. -/
def farNumber : Nat := 18446744073709551615

/-- An answer with a whole diff. -/
def wholeAnswer : Http.Response := { status := 200, body := [], complete := true }

/-- The download of the diff of the greatest number. -/
def farDownload : List (Exchange collaborators) :=
  [Inquiry.answered (.fetch (joinUrl "http://feed//" (path farNumber)) []) (Except.ok wholeAnswer),
    Inquiry.answered (.createDirectory ⟨"work"⟩) (Except.ok ()),
    Inquiry.answered (.writeFile ⟨"work/far.osc.gz"⟩ []) (Except.ok ())]

theorem downloads_farDownload : Downloads "http://feed//" farNumber farDownload :=
  ⟨⟨"work/far.osc.gz"⟩, .ok (), .ask (.ask (.ask (.done _)))⟩

/-- The first level of the greatest number has fourteen digits; its url is no other number's. -/
theorem farDiff_has_own_url :
    Composed farNumber ∧ path farNumber = "18446744073709/551/615.osc.gz" ∧
      fetched farDownload = ["http://feed/18446744073709/551/615.osc.gz"] ∧
      ∀ others, Downloads "http://feed//" 551615 others →
        "http://feed/18446744073709/551/615.osc.gz" ∉ fetched others := by
  obtain ⟨composed, -, -, apart⟩ := each_diff_has_own_url
  obtain ⟨url, only, unlike, -⟩ := apart _ _ _ downloads_farDownload
  have there : fetched farDownload = ["http://feed/18446744073709/551/615.osc.gz"] := by
    decide +kernel
  obtain rfl : "http://feed/18446744073709/551/615.osc.gz" = url := by
    rw [there] at only
    exact (List.cons.inj only).1
  refine ⟨composed _ (by decide), by decide +kernel, there, fun others downloads => ?_⟩
  exact unlike 551615 others downloads (by decide)

end Diff

end MapReplica
