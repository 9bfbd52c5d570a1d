/-!
# UTF-8

Reading octets as text, in two ways. `decode?` refuses octets that are not UTF-8;
`decodeLossy` writes one replacement character for every longest start of a
character that breaks off, and for every octet that starts none.
-/

namespace MapReplica

/-- Octets, as files, objects and responses hold them. -/
abbrev Bytes := List UInt8

namespace Utf8

/-- The character that stands for octets that are no text. -/
def replacement : Char := Char.ofNat 0xFFFD

/-- The octets of a character: one to four, the longer the greater the character is. -/
def encodeChar (c : Char) : Bytes :=
  let n := c.toNat
  if n < 0x80 then [UInt8.ofNat n]
  else if n < 0x800 then [UInt8.ofNat (0xC0 + n / 64), UInt8.ofNat (0x80 + n % 64)]
  else if n < 0x10000 then
    [UInt8.ofNat (0xE0 + n / 4096), UInt8.ofNat (0x80 + n / 64 % 64), UInt8.ofNat (0x80 + n % 64)]
  else
    [UInt8.ofNat (0xF0 + n / 262144), UInt8.ofNat (0x80 + n / 4096 % 64),
     UInt8.ofNat (0x80 + n / 64 % 64), UInt8.ofNat (0x80 + n % 64)]

/-- The octets of characters. -/
def encodeChars (text : List Char) : Bytes :=
  text.flatMap encodeChar

/-- The octets of a text. -/
def encode (text : String) : Bytes :=
  encodeChars text.toList

/-- Whether an octet lies between two bounds. -/
def within (low high : Nat) (octet : UInt8) : Bool :=
  low ≤ octet.toNat && octet.toNat ≤ high

/--
The least and the greatest second octet after a first octet that starts a longer
character, and how many octets follow the first.
-/
def leads (first : UInt8) : Option (Nat × Nat × Nat) :=
  let n := first.toNat
  if 0xC2 ≤ n && n ≤ 0xDF then some (0x80, 0xBF, 1)
  else if n == 0xE0 then some (0xA0, 0xBF, 2)
  else if n == 0xED then some (0x80, 0x9F, 2)
  else if 0xE1 ≤ n && n ≤ 0xEF then some (0x80, 0xBF, 2)
  else if n == 0xF0 then some (0x90, 0xBF, 3)
  else if 0xF1 ≤ n && n ≤ 0xF3 then some (0x80, 0xBF, 3)
  else if n == 0xF4 then some (0x80, 0x8F, 3)
  else none

/-- The payload of a continuation octet. -/
def payload (octet : UInt8) : Nat := octet.toNat % 64

/--
Where the reading stands: between characters, or inside one. Inside, `value` is
what the octets so far denote, the next octet has to lie in `low ..= high`, and
`owed` octets follow after that one.
-/
inductive Stand where
  | between
  | inside (value low high owed : Nat)

/-- The stand after an octet that continues a character, with the character it completes. -/
def resume (value : Nat) (octet : UInt8) : Nat → Option Char × Stand
  | 0 => (some (Char.ofNat (value * 64 + payload octet)), .between)
  | owed + 1 => (none, .inside (value * 64 + payload octet) 0x80 0xBF owed)

/-- The stand after an octet between characters, with what it contributes. -/
def begin (octet : UInt8) : List (Option Char) × Stand :=
  if octet.toNat < 0x80 then ([some (Char.ofNat octet.toNat)], .between)
  else
    match leads octet with
    | none => ([none], .between)
    | some (low, high, follow) =>
        let value := octet.toNat % (if follow == 1 then 32 else if follow == 2 then 16 else 8)
        ([], .inside value low high (follow - 1))

/--
The characters of a sequence of octets. A place that is no character shows as
`none`; a broken character and the octet that breaks it are separate places.
-/
def places : Stand → Bytes → List (Option Char)
  | .between, [] => []
  | .inside .., [] => [none]
  | .between, octet :: rest =>
      let (found, stand) := begin octet
      found ++ places stand rest
  | .inside value low high owed, octet :: rest =>
      if within low high octet then
        let (found, stand) := resume value octet owed
        match found with
        | some c => some c :: places stand rest
        | none => places stand rest
      else
        let (found, stand) := begin octet
        none :: (found ++ places stand rest)

/-- The text that the octets spell, if they are UTF-8. -/
def decode? (octets : Bytes) : Option String :=
  ((places .between octets).mapM id).map String.ofList

/-- The text of the octets, with a replacement character at every place that is none. -/
def decodeLossy (octets : Bytes) : List Char :=
  (places .between octets).map (·.getD replacement)

end Utf8

end MapReplica
