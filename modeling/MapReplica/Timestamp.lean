import MapReplica.Number.Numeral
import MapReplica.Text.Blank

/-!
# Timestamps

A point in time, read from the notation `2024-02-29T12:00:00.5+01:00` and written in
UTC. Blanks may stand before numbers and separators, the date and the time may be
divided by a blank instead of the letter, and `Z` or `UTC` stand for the zero offset.
A second 60 is kept as a leap second.
-/

namespace MapReplica

/-- A point in time: days since the beginning of 1970, the second of the day, and nanoseconds. -/
structure Timestamp where
  day : Int
  second : Nat
  nano : Nat
  deriving DecidableEq, Repr

namespace Timestamp

/-! ## Calendar -/

/-- Whether a year of the Gregorian calendar has a 29th of February. -/
def isLeap (year : Int) : Bool :=
  year % 4 == 0 && (year % 100 != 0 || year % 400 == 0)

/-- The number of days of a month. -/
def monthLength (year : Int) (month : Nat) : Nat :=
  match month with
  | 2 => if isLeap year then 29 else 28
  | 4 => 30
  | 6 => 30
  | 9 => 30
  | 11 => 30
  | _ => 31

/-- The number of days from the beginning of 1970 to the beginning of a year. -/
def daysBeforeYear (year : Int) : Int :=
  let last := year - 1
  last * 365 + last / 4 - last / 100 + last / 400 - 719162

/-- The number of days of a year before a month. -/
def daysBeforeMonth (year : Int) (month : Nat) : Nat :=
  ((List.range (month - 1)).map fun i => monthLength year (i + 1)).foldr (· + ·) 0

/-- The day of a date. -/
def dayOf (year : Int) (month day : Nat) : Int :=
  daysBeforeYear year + daysBeforeMonth year month + (day - 1 : Nat)

/-- The year of a day. -/
def yearOf (day : Int) : Int :=
  -- the estimate is at most one year off
  let guess := (day + 719162) * 400 / 146097 + 1
  if day < daysBeforeYear guess then guess - 1
  else if daysBeforeYear (guess + 1) ≤ day then guess + 1
  else guess

/-- The month and the day of the month of a day of a year, counted from zero. -/
def monthAndDay (year : Int) : List Nat → Nat → Nat × Nat
  | [], day => (12, day + 1)
  | month :: later, day =>
      if day < monthLength year month then (month, day + 1)
      else monthAndDay year later (day - monthLength year month)

/-! ## Reading -/

/-- A reader of a text: what it found and the rest of the text. -/
abbrev Reader (α : Type) := List Char → Option (α × List Char)

/-- The value of ASCII digits. -/
def digitsValue (run : List Char) : Nat :=
  run.foldl (fun n c => n * 10 + (c.toNat - '0'.toNat)) 0

/-- At least one and at most `width` digits. -/
def number (width : Nat) : Reader Nat := fun text =>
  let run := (text.take width).takeWhile fun c => (Number.digit? c).isSome
  if run.isEmpty then none else some (digitsValue run, text.drop run.length)

/-- A character that has to come after blanks. -/
def separator (c : Char) : Reader Unit := fun text =>
  match Text.trimStart text with
  | first :: rest => if first = c then some ((), rest) else none
  | [] => none

/-- A number after blanks. -/
def spacedNumber (width : Nat) : Reader Nat := fun text =>
  number width (Text.trimStart text)

/-- A year; after a sign it may have any number of digits. -/
def year : Reader Int := fun text =>
  match Text.trimStart text with
  | '-' :: rest => (number rest.length rest).map fun (n, rest) => (-(n : Int), rest)
  | '+' :: rest => (number rest.length rest).map fun (n, rest) => ((n : Int), rest)
  | rest => (number 4 rest).map fun (n, rest) => ((n : Int), rest)

/-- The nanoseconds of a fraction of a second; digits after the ninth do not count. -/
def fraction : Reader Nat := fun text =>
  match text with
  | '.' :: rest => do
      let (_, after) ← number 9 rest
      let run := rest.take (rest.length - after.length)
      some
        (digitsValue run * Nat.pow 10 (9 - run.length),
         after.dropWhile fun c => (Number.digit? c).isSome)
  | _ => some (0, text)

/-- Two digits. -/
def pair : Reader Nat := fun text =>
  match text with
  | a :: b :: rest => do
      let a ← Number.digit? a
      let b ← Number.digit? b
      some (a * 10 + b, rest)
  | _ => none

/-- The seconds of an offset from UTC. -/
def offset : Reader Int := fun text => do
  let signed (negative : Bool) (rest : List Char) : Option (Int × List Char) := do
    let (hours, rest) ← pair rest
    let (minutes, rest) ← pair (rest.dropWhile fun c => c == ':' || Text.isBlank c)
    if minutes < 60 then
      let seconds : Int := hours * 3600 + minutes * 60
      some (if negative then -seconds else seconds, rest)
    else none
  let isUtc := (text.take 3).map Char.toUpper == ['U', 'T', 'C']
  if isUtc then some (0, text.drop 3)
  else
    match text with
    | 'Z' :: rest => some (0, rest)
    | 'z' :: rest => some (0, rest)
    | '+' :: rest => signed false rest
    | '-' :: rest => signed true rest
    | c :: rest => if c.toNat = 0x2212 then signed true rest else none
    | [] => none

/-- Whether a year lies in the range of the calendar. -/
def isYear (year : Int) : Bool :=
  -262143 ≤ year && year ≤ 262142

/-- The point in time of a date, a time of day and an offset, if they exist. -/
def make (year : Int) (month day hour minute second nano : Nat) (offset : Int) : Option Timestamp :=
  let valid :=
    isYear year && 1 ≤ month && month ≤ 12 && 1 ≤ day && day ≤ monthLength year month &&
      hour < 24 && minute < 60 && second ≤ 60 && offset.natAbs < 86400
  if valid then
    let leap := second == 60
    let wall : Int :=
      dayOf year month day * 86400 + (hour * 3600 + minute * 60 + (if leap then 59 else second) : Nat)
    let utc := wall - offset
    let result : Timestamp :=
      ⟨utc / 86400, (utc % 86400).toNat, if leap then nano + 1000000000 else nano⟩
    if isYear (yearOf result.day) then some result else none
  else none

/-- Reads a point in time. -/
def parse? (text : String) : Option Timestamp := do
  let (year, rest) ← year text.toList
  let (_, rest) ← separator '-' rest
  let (month, rest) ← spacedNumber 2 rest
  let (_, rest) ← separator '-' rest
  let (day, rest) ← spacedNumber 2 rest
  let rest ←
    match rest with
    | 'T' :: rest => some rest
    | 't' :: rest => some rest
    | ' ' :: rest => some rest
    | _ => none
  let (hour, rest) ← spacedNumber 2 rest
  let (_, rest) ← separator ':' rest
  let (minute, rest) ← spacedNumber 2 rest
  let (_, rest) ← separator ':' rest
  let (second, rest) ← spacedNumber 2 rest
  let (nano, rest) ← fraction rest
  let (offset, rest) ← offset (Text.trimStart rest)
  if (Text.trimStart rest).isEmpty then make year month day hour minute second nano offset else none

/-! ## Writing -/

/-- The written form of a year. -/
def renderYear (year : Int) : List Char :=
  if 0 ≤ year ∧ year ≤ 9999 then Number.padded 4 year.toNat
  else (if year < 0 then '-' else '+') :: Number.padded 4 year.natAbs

/-- The written form of nanoseconds: nothing, or as few groups of three digits as show them. -/
def renderFraction (nano : Nat) : List Char :=
  if nano = 0 then []
  else if nano % 1000000 = 0 then '.' :: Number.padded 3 (nano / 1000000)
  else if nano % 1000 = 0 then '.' :: Number.padded 6 (nano / 1000)
  else '.' :: Number.padded 9 nano

/-- The written form of a point in time, in UTC. -/
def render (time : Timestamp) : String :=
  let year := yearOf time.day
  let (month, day) := monthAndDay year ((List.range 12).map (· + 1)) (time.day - daysBeforeYear year).toNat
  let second := time.second % 60 + time.nano / 1000000000
  String.ofList <|
    renderYear year ++ '-' :: Number.padded 2 month ++ '-' :: Number.padded 2 day ++
      'T' :: Number.padded 2 (time.second / 3600) ++ ':' :: Number.padded 2 (time.second / 60 % 60) ++
      ':' :: Number.padded 2 second ++ renderFraction (time.nano % 1000000000) ++ "+00:00".toList

end Timestamp

end MapReplica
