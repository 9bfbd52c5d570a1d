/-!
# Decimal numerals

Writing and reading unsigned whole numbers. Reading goes from left to right and
reports the first fault it meets, so a number that is already too large wins over
a later character that is no digit.
-/

namespace MapReplica.Number

/-- The decimal digits of a number, without leading zeros. -/
def digits (n : Nat) : List Char :=
  Nat.toDigits 10 n

/-- The decimal numeral of a number. -/
def numeral (n : Nat) : String :=
  String.ofList (digits n)

/-- The decimal digits of a number, filled up with zeros on the left to a least width. -/
def padded (width n : Nat) : List Char :=
  let shown := digits n
  List.replicate (width - shown.length) '0' ++ shown

/-- The decimal numeral of a whole number. -/
def signed : Int → String
  | .ofNat n => numeral n
  | .negSucc n => "-" ++ numeral (n + 1)

/-- A hexadecimal digit in lower case. -/
def hexDigit (n : Nat) : Char :=
  if n < 10 then Char.ofNat ('0'.toNat + n) else Char.ofNat ('a'.toNat + (n - 10))

/-- Why a text is no number of the wanted size. -/
inductive NumeralFault where
  | empty
  | invalidDigit
  | tooLarge
  deriving DecidableEq, Repr

/-- The wording of a fault. -/
def NumeralFault.message : NumeralFault → String
  | .empty => "cannot parse integer from empty string"
  | .invalidDigit => "invalid digit found in string"
  | .tooLarge => "number too large to fit in target type"

/-- The value of an ASCII digit. -/
def digit? (c : Char) : Option Nat :=
  if '0' ≤ c ∧ c ≤ '9' then some (c.toNat - '0'.toNat) else none

/-- Reads digits after a number already read, which stays at most `bound`. -/
def readDigits (bound : Nat) : Nat → List Char → Except NumeralFault Nat
  | value, [] => .ok value
  | value, c :: rest =>
      match digit? c with
      | none => .error .invalidDigit
      | some d =>
          if bound < value * 10 + d then .error .tooLarge
          else readDigits bound (value * 10 + d) rest

/-- Reads a numeral of at most `bound`: an optional plus sign and at least one digit. -/
def read (bound : Nat) : List Char → Except NumeralFault Nat
  | [] => .error .empty
  | '+' :: rest => if rest.isEmpty then .error .invalidDigit else readDigits bound 0 rest
  | text => readDigits bound 0 text

/-- The greatest number of 32 bits. -/
def max32 : Nat := Nat.pow 2 32 - 1

/-- The greatest number of 64 bits. -/
def max64 : Nat := Nat.pow 2 64 - 1

/-- The greatest signed number of 64 bits. -/
def maxSigned64 : Nat := Nat.pow 2 63 - 1

end MapReplica.Number
