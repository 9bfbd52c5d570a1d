import MapReplica.Progress.Marker
import MapReplica.Proofs.Number.Numeral

/-!
# Rewriting the marker

The leftmost marker of a text stays the leftmost one when its digits are replaced by
others, and the text around the digits stays as it is. So a text with another number
reads back as that number, and only its digits differ.
-/

namespace MapReplica.Marker

/-- What makes a character run a run of digits that ends where it should. -/
theorem atStart?_eq_some {text : List Char} {marker : Marker}
    (found : atStart? text = some marker) :
    text = name ++ marker.run ++ marker.after ∧ marker.before = name ∧
      marker.run = (text.drop name.length).takeWhile Text.isDecimalDigit ∧
      marker.after = (text.drop name.length).dropWhile Text.isDecimalDigit ∧ marker.run ≠ [] := by
  simp only [atStart?] at found
  split at found
  case isFalse => cases found
  case isTrue starts =>
    split at found
    case isTrue => cases found
    case isFalse nonempty =>
      cases found
      obtain ⟨rest, rfl⟩ := List.isPrefixOf_iff_prefix.mp starts
      simp only [List.drop_left] at nonempty ⊢
      exact ⟨by simp, trivial, trivial, trivial, by simpa using nonempty⟩

/-- A marker at the front of a text is found there whatever its digits are. -/
theorem atStart?_name_append {run after : List Char} (nonempty : run ≠ [])
    (digits : ∀ c ∈ run, Text.isDecimalDigit c = true)
    (stops : ∀ c, after.head? = some c → Text.isDecimalDigit c = false) :
    atStart? (name ++ run ++ after) = some ⟨name, run, after⟩ := by
  have front : (run ++ after).takeWhile Text.isDecimalDigit = run := by
    rw [List.takeWhile_append_of_pos digits]
    cases after with
    | nil => simp
    | cons c rest => simp [stops c rfl]
  have back : (run ++ after).dropWhile Text.isDecimalDigit = after := by
    rw [List.dropWhile_append_of_pos digits]
    cases after with
    | nil => simp
    | cons c rest => simp [stops c rfl]
  have starts : name.isPrefixOf (name ++ (run ++ after)) = true :=
    List.isPrefixOf_iff_prefix.mpr (List.prefix_append _ _)
  simp only [atStart?, List.append_assoc, starts, if_true, List.drop_left, front, back]
  simp [nonempty]

/-- Whether a marker starts a text is decided by its name and the one character after it. -/
theorem atStart?_eq_none_iff {text : List Char} :
    atStart? text = none ↔
      ¬ (name <+: text ∧ ∃ c, text[name.length]? = some c ∧ Text.isDecimalDigit c = true) := by
  by_cases starts : name <+: text
  · obtain ⟨rest, rfl⟩ := starts
    have prefixed : name.isPrefixOf (name ++ rest) = true :=
      List.isPrefixOf_iff_prefix.mpr (List.prefix_append _ _)
    simp only [atStart?, prefixed, if_true, List.drop_left]
    cases rest with
    | nil => simp
    | cons c rest => cases digit : Text.isDecimalDigit c <;> simp [digit]
  · have unprefixed : name.isPrefixOf text = false := by
      rw [← Bool.not_eq_true]
      exact fun h => starts (List.isPrefixOf_iff_prefix.mp h)
    simp [atStart?, unprefixed, starts]

/-- What lies behind the character after the name has no say in whether a marker starts a text. -/
theorem atStart?_append_eq_none {front back other : List Char} (long : name.length < front.length)
    (missing : atStart? (front ++ back) = none) : atStart? (front ++ other) = none := by
  rw [atStart?_eq_none_iff] at missing ⊢
  rintro ⟨starts, c, hc, digit⟩
  refine missing ⟨?_, c, ?_, digit⟩
  · have short := List.prefix_of_prefix_length_le starts (List.prefix_append front other) (by omega)
    exact short.trans (List.prefix_append front back)
  · rw [List.getElem?_append_left long] at hc ⊢
    exact hc

/-- A marker that is found cuts the text at its digits. -/
structure Cuts (marker : Marker) (text : List Char) : Prop where
  whole : text = marker.before ++ marker.run ++ marker.after
  named : name.length ≤ marker.before.length
  nonempty : marker.run ≠ []
  digits : ∀ c ∈ marker.run, Text.isDecimalDigit c = true
  stops : ∀ c, marker.after.head? = some c → Text.isDecimalDigit c = false

theorem cuts_of_find? {text : List Char} {marker : Marker} (found : find? text = some marker) :
    marker.Cuts text := by
  induction text generalizing marker with
  | nil => cases found
  | cons c rest ih =>
      rw [find?] at found
      cases start : atStart? (c :: rest) with
      | some here =>
          rw [start] at found
          cases found
          obtain ⟨whole, before, run, after, nonempty⟩ := atStart?_eq_some start
          refine ⟨by rw [before]; exact whole, Nat.le_of_eq (congrArg List.length before.symm),
            nonempty, ?_, ?_⟩
          · intro d hd
            rw [run] at hd
            exact List.all_eq_true.mp List.all_takeWhile d hd
          · intro d hd
            have stop := List.head?_dropWhile_not Text.isDecimalDigit
              (List.drop name.length (c :: rest))
            rw [← after, hd] at stop
            exact stop
      | none =>
          rw [start] at found
          obtain ⟨later, hlater, rfl⟩ := Option.map_eq_some_iff.mp found
          have cuts := ih hlater
          exact ⟨by simpa using cuts.whole, Nat.le_succ_of_le cuts.named, cuts.nonempty,
            cuts.digits, cuts.stops⟩

/-- Other digits in its place are the leftmost marker again. -/
theorem find?_replace {text run : List Char} {marker : Marker} (found : find? text = some marker)
    (nonempty : run ≠ []) (digits : ∀ c ∈ run, Text.isDecimalDigit c = true) :
    find? (marker.before ++ run ++ marker.after) = some { marker with run } := by
  induction text generalizing marker with
  | nil => cases found
  | cons c rest ih =>
      have cuts := cuts_of_find? found
      rw [find?] at found
      cases start : atStart? (c :: rest) with
      | some here =>
          rw [start] at found
          cases found
          have again := atStart?_name_append nonempty digits cuts.stops
          have long : name ++ run ++ marker.after =
            's' :: ("equenceNumber=".toList ++ run ++ marker.after) :=
            rfl
          rw [(atStart?_eq_some start).2.1, long, find?, ← long, again]
      | none =>
          rw [start] at found
          obtain ⟨later, hlater, rfl⟩ := Option.map_eq_some_iff.mp found
          have inner := cuts_of_find? hlater
          have still : atStart? ((c :: later.before) ++ (run ++ later.after)) = none := by
            have longer : name.length < (c :: later.before).length := Nat.lt_succ_of_le inner.named
            have missing : atStart? ((c :: later.before) ++ (later.run ++ later.after)) = none := by
              rw [← start, inner.whole]
              simp
            exact atStart?_append_eq_none longer missing
          simp only [List.cons_append, List.append_assoc] at still ⊢
          rw [find?, still]
          have replaced := ih hlater
          simp only [List.append_assoc] at replaced
          simp [replaced]

/-- The number of a text lies within the signed numbers of 64 bits. -/
theorem read?_le {text : List Char} {sequence : Nat} (read : read? text = some sequence) :
    sequence ≤ Number.maxSigned64 := by
  obtain ⟨marker, _, number⟩ := Option.bind_eq_some_iff.mp read
  rw [number?] at number
  cases digits : Number.readDigits Number.maxSigned64 0 marker.run with
  | error fault => simp [digits, Except.toOption] at number
  | ok value =>
      have same : value = sequence := by simpa [digits, Except.toOption] using number
      exact same ▸ Number.readDigits_le (Nat.zero_le _) digits

/-- Writing a number into a text changes the digits of its marker and nothing else. -/
theorem find?_withNumber {text : List Char} {marker : Marker} (sequence : Nat)
    (found : find? text = some marker) :
    find? (withNumber text sequence) = some { marker with run := Number.digits sequence } := by
  rw [withNumber, found]
  exact find?_replace found (Number.digits_ne_nil sequence) Number.isDecimalDigit_of_mem_digits

/-- The digits of a number are this number as long as it is in range. -/
theorem number?_digits_eq_some_iff {number sequence : Nat} :
    number? (Number.digits sequence) = some number ↔
      number = sequence ∧ sequence ≤ Number.maxSigned64 := by
  rw [← Number.readDigits_digits_eq_ok_iff, number?]
  cases Number.readDigits Number.maxSigned64 0 (Number.digits sequence) with
  | error fault => simp [Except.toOption]
  | ok value => simp [Except.toOption]

/-- A text that has a number reads as any number that is written into it. -/
theorem read?_withNumber {text : List Char} {sequence other : Nat}
    (read : read? text = some sequence) (fits : other ≤ Number.maxSigned64) :
    read? (withNumber text other) = some other := by
  obtain ⟨marker, found, _⟩ := Option.bind_eq_some_iff.mp read
  rw [read?, find?_withNumber other found, Option.bind_some]
  exact number?_digits_eq_some_iff.mpr ⟨rfl, fits⟩

/-! ## Advancing -/

/--
A text with the number of another or a greater one. All but the digits of the marker is
the same.
-/
def Advances (old new : List Char) : Prop :=
  ∃ marker run number later, find? old = some marker ∧ find? new = some { marker with run } ∧
    number? marker.run = some number ∧ number? run = some later ∧ number ≤ later

/--
A text that differs from another at most in the digits of the marker, for a number that is
not below that of the other.
-/
def Continues (old text : List Char) (sequence : Nat) : Prop :=
  ∃ marker run number, find? old = some marker ∧ find? text = some { marker with run } ∧
    number? marker.run = some number ∧ number ≤ sequence

variable {old new text : List Char} {sequence : Nat}

theorem advances_refl (read : read? text = some sequence) : Advances text text := by
  obtain ⟨marker, found, number⟩ := Option.bind_eq_some_iff.mp read
  exact ⟨marker, marker.run, sequence, sequence, found, found, number, number, Nat.le_refl sequence⟩

theorem Advances.trans (first : Advances old text) (second : Advances text new) :
    Advances old new := by
  obtain ⟨marker, run, number, between, hold, htext, hnumber, hbetween, below⟩ := first
  obtain ⟨_, last, _, later, hagain, hnew, hsame, hlater, above⟩ := second
  cases htext.symm.trans hagain
  cases hbetween.symm.trans hsame
  exact ⟨marker, last, number, later, hold, hnew, hnumber, hlater, Nat.le_trans below above⟩

/-- Writing a number into a text advances another exactly if the text continues the other. -/
theorem advances_withNumber_iff :
    Advances old (withNumber text sequence) ↔
      Continues old text sequence ∧ sequence ≤ Number.maxSigned64 := by
  constructor
  · rintro ⟨marker, run, number, later, hold, hnew, hnumber, hlater, below⟩
    cases found : find? text with
    | none =>
        rw [withNumber, found] at hnew
        cases found.symm.trans hnew
    | some own =>
        have written := (find?_withNumber sequence found).symm.trans hnew
        have digits : Number.digits sequence = run := congrArg Marker.run (Option.some.inj written)
        have around : own = { marker with run := own.run } := by
          have before := congrArg Marker.before (Option.some.inj written)
          have after := congrArg Marker.after (Option.some.inj written)
          cases own
          simp_all
        obtain ⟨rfl, fits⟩ := number?_digits_eq_some_iff.mp (digits ▸ hlater)
        exact ⟨⟨marker, own.run, number, hold, found.trans (congrArg some around), hnumber, below⟩,
          fits⟩
  · rintro ⟨⟨marker, run, number, hold, found, hnumber, below⟩, fits⟩
    have written := find?_withNumber sequence found
    exact ⟨marker, Number.digits sequence, number, sequence, hold, written, hnumber,
      number?_digits_eq_some_iff.mpr ⟨rfl, fits⟩, below⟩

/-- A text that was written is continued by itself for every later number. -/
theorem Continues.withNumber {later : Nat} (continues : Continues old text sequence)
    (fits : sequence ≤ Number.maxSigned64) (above : sequence ≤ later) :
    Continues (withNumber text sequence) (withNumber text sequence) later := by
  obtain ⟨marker, run, number, -, found, -, -⟩ := continues
  have written := find?_withNumber sequence found
  exact ⟨_, _, sequence, written, written, number?_digits_eq_some_iff.mpr ⟨rfl, fits⟩, above⟩

end MapReplica.Marker
