import MapReplica.Json.Basic
import MapReplica.Number.Numeral

/-!
# JSON tokens

A text is cut into brackets, separators, quoted texts and words; a word is a run of
other characters and has to be a number or one of the three names `null`, `true`
and `false`. The machine reads one character at a time.
-/

namespace MapReplica.Json

/-- A token. A scalar is a number or a name. -/
inductive Token where
  | openArray
  | closeArray
  | openObject
  | closeObject
  | comma
  | colon
  | scalar (value : Json)
  | quoted (value : String)

/-- The blanks between tokens. -/
def isSpace (c : Char) : Bool :=
  c == ' ' || c == '\n' || c == '\r' || c == '\t'

/-! ## Numbers -/

/-- The number that a run of digits spells. -/
def digitsValue (run : List Char) : Nat :=
  run.foldl (fun n c => n * 10 + (c.toNat - '0'.toNat)) 0

/-- Whether a character is an ASCII digit. -/
def isDigit (c : Char) : Bool :=
  (Number.digit? c).isSome

/--
The double nearest to `digits * 10 ^ exponent`. There is none beyond the greatest
double; far below the least one it is zero.
-/
def nearestFloat (digits : Nat) (exponent : Int) : Option Float :=
  let size := (Number.digits digits).length + exponent
  if digits = 0 ∨ size < -330 then some 0
  else if 310 < size then none
  else
    let x := Float.ofScientific digits (exponent < 0) exponent.natAbs
    if x.isInf then none else some x

/-- The part of a numeral behind its whole part: the digits after the point and the exponent. -/
def fractionAndPower? (tail : List Char) : Option (List Char × Option Int) := do
  let (fraction, tail) ←
    match tail with
    | '.' :: rest =>
        let run := rest.takeWhile isDigit
        if run.isEmpty then none else some (run, rest.dropWhile isDigit)
    | _ => some ([], tail)
  match tail with
  | [] => some (fraction, none)
  | mark :: rest =>
      if mark = 'e' ∨ mark = 'E' then
        let (negative, run) :=
          match rest with
          | '-' :: run => (true, run)
          | '+' :: run => (false, run)
          | run => (false, run)
        if run.isEmpty || !run.all isDigit then none
        else
          let power : Int := digitsValue run
          some (fraction, some (if negative then -power else power))
      else none

/--
The number that a word spells. A whole number that fits into 64 bits, signed if it
has a sign, stays exact; minus zero is the negative zero of the doubles.
-/
def number? (word : List Char) : Option Json := do
  let (negative, body) :=
    match word with
    | '-' :: rest => (true, rest)
    | rest => (false, rest)
  let whole := body.takeWhile isDigit
  let (fraction, power) ← fractionAndPower? (body.dropWhile isDigit)
  if whole.isEmpty || (whole.length > 1 && whole.head? == some '0') then none
  let value := digitsValue whole
  let signedFloat (x : Float) : Json := float (if negative then -x else x)
  match fraction, power with
  | [], none =>
      if negative then
        if 0 < value ∧ value ≤ Number.maxSigned64 + 1 then some (integer (-(value : Int)))
        else (nearestFloat value 0).map signedFloat
      else if value ≤ Number.max64 then some (integer value)
      else (nearestFloat value 0).map signedFloat
  | _, _ =>
      let exponent := power.getD 0 - fraction.length
      (nearestFloat (digitsValue (whole ++ fraction)) exponent).map signedFloat

/-- The scalar that a word spells. -/
def scalar? (word : List Char) : Option Json :=
  if word = "null".toList then some null
  else if word = "true".toList then some (bool true)
  else if word = "false".toList then some (bool false)
  else number? word

/-! ## The machine -/

/-- The value of a hexadecimal digit. -/
def hexDigit? (c : Char) : Option Nat :=
  if '0' ≤ c ∧ c ≤ '9' then some (c.toNat - '0'.toNat)
  else if 'a' ≤ c ∧ c ≤ 'f' then some (c.toNat - 'a'.toNat + 10)
  else if 'A' ≤ c ∧ c ≤ 'F' then some (c.toNat - 'A'.toNat + 10)
  else none

/-- The character that stands for a one-letter escape. -/
def escaped? (c : Char) : Option Char :=
  match c with
  | '"' => some '"'
  | '\\' => some '\\'
  | '/' => some '/'
  | 'b' => some (Char.ofNat 8)
  | 'f' => some (Char.ofNat 12)
  | 'n' => some '\n'
  | 'r' => some '\r'
  | 't' => some '\t'
  | _ => none

/--
Where the machine stands. The characters read so far are held in reverse. In `code`
the digits of an escape by number are read: `missing` of them are still to come, and
`lead` is the first half of a surrogate pair whose second half this is.
-/
inductive Place where
  | between
  | word (read : List Char)
  | inside (read : List Char)
  | escape (read : List Char)
  | code (read : List Char) (lead : Option Nat) (missing value : Nat)
  | pairMark (read : List Char) (lead : Nat)
  | pairLetter (read : List Char) (lead : Nat)

/-- The place after an escape by number is complete. -/
def Place.ofCode (read : List Char) (value : Nat) : Option Nat → Option Place
  | none =>
      if 0xD800 ≤ value ∧ value ≤ 0xDBFF then some (.pairMark read value)
      else if 0xDC00 ≤ value ∧ value ≤ 0xDFFF then none
      else some (.inside (Char.ofNat value :: read))
  | some lead =>
      if 0xDC00 ≤ value ∧ value ≤ 0xDFFF then
        let both := 0x10000 + (lead - 0xD800) * 0x400 + (value - 0xDC00)
        some (.inside (Char.ofNat both :: read))
      else none

/-- A character that is neither blank nor part of a word. -/
def mark? (c : Char) : Option Token :=
  match c with
  | '[' => some .openArray
  | ']' => some .closeArray
  | '{' => some .openObject
  | '}' => some .closeObject
  | ',' => some .comma
  | ':' => some .colon
  | _ => none

/-- What a character between two tokens starts or is. -/
def fresh (c : Char) : Place × List Token :=
  if isSpace c then (.between, [])
  else if c = '"' then (.inside [], [])
  else
    match mark? c with
    | some token => (.between, [token])
    | none => (.word [c], [])

/-- The token that a word is. -/
def wordToken? (read : List Char) : Option Token :=
  (scalar? read.reverse).map .scalar

/-- One step: the new place and the tokens that this character completes, the last one first. -/
def Place.step (c : Char) : Place → Option (Place × List Token)
  | .between => some (fresh c)
  | .word read =>
      if isSpace c || c == '"' || (mark? c).isSome then do
        let token ← wordToken? read
        let (place, tokens) := fresh c
        some (place, tokens ++ [token])
      else some (.word (c :: read), [])
  | .inside read =>
      if c = '"' then some (.between, [.quoted (String.ofList read.reverse)])
      else if c = '\\' then some (.escape read, [])
      else if c.toNat < 0x20 then none
      else some (.inside (c :: read), [])
  | .escape read =>
      if c = 'u' then some (.code read none 4 0, [])
      else (escaped? c).map fun meant => (.inside (meant :: read), [])
  | .code read lead missing value => do
      let digit ← hexDigit? c
      let value := value * 16 + digit
      if missing ≤ 1 then (Place.ofCode read value lead).map fun place => (place, [])
      else some (.code read lead (missing - 1) value, [])
  | .pairMark read lead => if c = '\\' then some (.pairLetter read lead, []) else none
  | .pairLetter read lead => if c = 'u' then some (.code read (some lead) 4 0, []) else none

/-- The tokens of a text, if it can be cut into tokens. -/
def tokens? (text : List Char) : Option (List Token) := do
  let (place, read) ← text.foldlM
    (fun (place, read) c => do
      let (place, tokens) ← place.step c
      some (place, tokens ++ read))
    (Place.between, ([] : List Token))
  match place with
  | .between => some read.reverse
  | .word letters => (wordToken? letters).map fun token => (token :: read).reverse
  | _ => none

end MapReplica.Json
