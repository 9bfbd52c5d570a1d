import MapReplica.Json.Basic
import MapReplica.Number.Shortest

/-!
# Writing JSON

The compact form without blanks. A double is written with the fewest digits that
read back to it: in full while the point stands no further than sixteen digits
behind the first digit and no more than four zeros stand between the point and it,
otherwise with a signed power of ten. A whole double ends in `.0`.
-/

namespace MapReplica.Json

/-- The written form of a decimal, given its digits and where the point stands after the first. -/
def layOut (run : List Char) (point : Int) : List Char :=
  let length : Int := run.length
  if 0 < point ∧ point ≤ 16 then
    if length ≤ point then run ++ List.replicate (point - length).toNat '0' ++ ['.', '0']
    else run.take point.toNat ++ '.' :: run.drop point.toNat
  else if -5 < point ∧ point ≤ 0 then
    '0' :: '.' :: (List.replicate (-point).toNat '0' ++ run)
  else
    let power := point - 1
    let significand :=
      match run with
      | first :: second :: rest => first :: '.' :: second :: rest
      | short => short
    significand ++ 'e' :: (if power < 0 then '-' else '+') :: Number.digits power.natAbs

/-- The written form of a double; what is no number is written as `null`. -/
def renderFloat (x : Float) : List Char :=
  if x.isNaN || x.isInf then "null".toList
  else
    let decimal := Number.Shortest.decimal (Number.Binary.ofFloat x)
    let body :=
      if decimal.digits = 0 then ['0', '.', '0']
      else
        let run := Number.digits decimal.digits
        layOut run (run.length + decimal.exponent)
    if Number.isNegative x then '-' :: body else body

/-- The written form of a character inside quotes. -/
def renderChar (c : Char) : List Char :=
  if c = '"' then ['\\', '"']
  else if c = '\\' then ['\\', '\\']
  else if c = '\n' then ['\\', 'n']
  else if c = '\r' then ['\\', 'r']
  else if c = '\t' then ['\\', 't']
  else if c.toNat = 8 then ['\\', 'b']
  else if c.toNat = 12 then ['\\', 'f']
  else if c.toNat < 0x20 then
    ['\\', 'u', '0', '0', Number.hexDigit (c.toNat / 16), Number.hexDigit (c.toNat % 16)]
  else [c]

/-- The written form of a text. -/
def renderText (text : String) : List Char :=
  '"' :: (text.toList.flatMap renderChar ++ ['"'])

mutual

/-- The compact form of a value, as characters. -/
def render : Json → List Char
  | null => "null".toList
  | bool true => "true".toList
  | bool false => "false".toList
  | integer n => (Number.signed n).toList
  | float x => renderFloat x
  | text value => renderText value
  | array items => '[' :: (renderItems items ++ [']'])
  | object members => '{' :: (renderMembers members ++ ['}'])

/-- The compact forms of items with commas between them. -/
def renderItems : List Json → List Char
  | [] => []
  | [item] => item.render
  | item :: rest => item.render ++ ',' :: renderItems rest

/-- The compact forms of members with commas between them. -/
def renderMembers : List (String × Json) → List Char
  | [] => []
  | [(name, value)] => renderText name ++ ':' :: value.render
  | (name, value) :: rest => renderText name ++ ':' :: (value.render ++ ',' :: renderMembers rest)

end

/-- The compact form of a value. -/
def write (value : Json) : String :=
  String.ofList value.render

end MapReplica.Json
