import MapReplica.Number.Numeral
import MapReplica.Text.DecimalDigit

/-!
# The marker of a progress text

A progress text says how far a project or a feed is by a marker, the text
`sequenceNumber=` and at least one digit after it. The leftmost marker counts.
Digits of every script belong to the run behind the marker, but only ASCII digits
make a number. Rewriting changes the run and nothing else.
-/

namespace MapReplica

/-- A text cut at its leftmost marker; `before` ends with the name of the marker. -/
structure Marker where
  before : List Char
  run : List Char
  after : List Char
  deriving DecidableEq, Repr

namespace Marker

/-- The text in front of the digits. -/
def name : List Char := "sequenceNumber=".toList

/-- The marker that a text starts with. -/
def atStart? (text : List Char) : Option Marker :=
  if name.isPrefixOf text then
    let rest := text.drop name.length
    let run := rest.takeWhile Text.isDecimalDigit
    if run.isEmpty then none else some ⟨name, run, rest.dropWhile Text.isDecimalDigit⟩
  else none

/-- The leftmost marker of a text. -/
def find? : List Char → Option Marker
  | [] => none
  | c :: rest =>
      match atStart? (c :: rest) with
      | some marker => some marker
      | none => (find? rest).map fun marker => { marker with before := c :: marker.before }

/-- The number that a run of digits is. -/
def number? (run : List Char) : Option Nat :=
  (Number.readDigits Number.maxSigned64 0 run).toOption

/-- The sequence number of a text. -/
def read? (text : List Char) : Option Nat :=
  (find? text).bind fun marker => number? marker.run

/-- A text with another sequence number; a text without a marker stays as it is. -/
def withNumber (text : List Char) (sequence : Nat) : List Char :=
  match find? text with
  | none => text
  | some marker => marker.before ++ Number.digits sequence ++ marker.after

end Marker

end MapReplica
