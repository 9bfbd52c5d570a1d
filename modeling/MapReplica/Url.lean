import MapReplica.Number.Numeral
import MapReplica.Text.Utf8

/-!
# Absolute urls

The parts of an absolute url by the rules of web addresses: control characters and
blanks around it do not count, tabs and line ends never do; the well-known schemes
take any number of slashes before the host, in either direction, and need a host.
-/

namespace MapReplica

/-- The parts of an absolute url. A url without `//` after an unknown scheme has no host. -/
structure Url where
  scheme : String
  user : List Char
  password : List Char
  host : Option (List Char)
  /-- The number of the service at the host. -/
  service : Option Nat
  path : List Char
  query : Option (List Char)
  deriving Repr

namespace Url

/-- The schemes with a host and a number of their own for the service. -/
def hostSchemes : List String :=
  ["http", "https", "ws", "wss", "ftp"]

/-- Whether a backslash counts as a slash. -/
def isSpecial (scheme : String) : Bool :=
  hostSchemes.contains scheme || scheme == "file"

/-- The value of a hexadecimal digit. -/
def hexDigit? (c : Char) : Option Nat :=
  if '0' ≤ c ∧ c ≤ '9' then some (c.toNat - '0'.toNat)
  else if 'a' ≤ c ∧ c ≤ 'f' then some (c.toNat - 'a'.toNat + 10)
  else if 'A' ≤ c ∧ c ≤ 'F' then some (c.toNat - 'A'.toNat + 10)
  else none

/-- The octets of a text in which `%` and two hexadecimal digits stand for an octet. -/
def percentDecode : List Char → Bytes
  | '%' :: a :: b :: rest =>
      match hexDigit? a, hexDigit? b with
      | some high, some low => UInt8.ofNat (high * 16 + low) :: percentDecode rest
      | _, _ => 0x25 :: percentDecode (a :: b :: rest)
  | c :: rest => Utf8.encode (String.singleton c) ++ percentDecode rest
  | [] => []

/-! ## Hosts -/

/-- The characters that no name of a host holds. -/
def isForbiddenInDomain (c : Char) : Bool :=
  c.toNat ≤ 0x20 || c.toNat == 0x7F || "#/:<>?@[\\]^|%".toList.contains c

/-- The characters that no host of an unknown scheme holds. -/
def isForbiddenInHost (c : Char) : Bool :=
  c.toNat == 0 || "\t\n\r #/:<>?@[\\]^|".toList.contains c

/-- The value of digits to a base, if all characters are digits. -/
def valueIn (base : Nat) (run : List Char) : Option Nat :=
  run.foldlM (fun n c => do
    let digit ← hexDigit? c
    if digit < base then some (n * base + digit) else none) 0

/-- A number of an address, which may be octal or hexadecimal. -/
def addressNumber? (piece : List Char) : Option Nat :=
  match piece with
  | [] => none
  | '0' :: 'x' :: rest => if rest.isEmpty then some 0 else valueIn 16 rest
  | '0' :: 'X' :: rest => if rest.isEmpty then some 0 else valueIn 16 rest
  | ['0'] => some 0
  | '0' :: rest => valueIn 8 rest
  | run => valueIn 10 run

/-- The labels of a name without an empty one at the end. -/
def labels (name : List Char) : List (List Char) :=
  let pieces := name.splitOn '.'
  if pieces.getLast? == some [] && 1 < pieces.length then pieces.dropLast else pieces

/-- Whether a name has to be read as an address of four numbers. -/
def looksNumeric (name : List Char) : Bool :=
  match (labels name).getLast? with
  | none => false
  | some label =>
      (!label.isEmpty && label.all Char.isDigit) ||
        ((label.take 2).map Char.toLower == ['0', 'x'] && (addressNumber? label).isSome)

/-- Whether numbers are an address: at most four, all but the last below 256, the last filling the rest. -/
def isAddress (name : List Char) : Bool :=
  let pieces := labels name
  match pieces.mapM addressNumber? with
  | none => false
  | some numbers =>
      numbers.length ≤ 4 && numbers.dropLast.all (· < 256) &&
        (numbers.getLast?.all fun last => last < Nat.pow 256 (5 - numbers.length))

/-- Whether a text is an address of four numbers in their plain form. -/
def isPlainAddress (text : List Char) : Bool :=
  let pieces := text.splitOn '.'
  pieces.length == 4 && pieces.all fun piece =>
    !piece.isEmpty && piece.all Char.isDigit && (piece.length == 1 || piece.head? != some '0') &&
      ((valueIn 10 piece).any (· < 256))

/-- How many of the eight groups of a long address pieces fill; the last may be a short address. -/
def groupCount? (pieces : List (List Char)) (mayEndPlain : Bool) : Option Nat :=
  match pieces with
  | [] => some 0
  | [last] =>
      if mayEndPlain && last.contains '.' then if isPlainAddress last then some 2 else none
      else if 1 ≤ last.length && last.length ≤ 4 && last.all fun c => (hexDigit? c).isSome then some 1
      else none
  | piece :: rest =>
      if 1 ≤ piece.length && piece.length ≤ 4 && piece.all fun c => (hexDigit? c).isSome then
        (groupCount? rest mayEndPlain).map (· + 1)
      else none

/-- Where a text has two colons in a row, the texts before and after them. -/
def splitAtGap : List Char → Option (List Char × List Char)
  | ':' :: ':' :: rest => some ([], rest)
  | c :: rest => (splitAtGap rest).map fun (before, after) => (c :: before, after)
  | [] => none

/-- The pieces between single colons; nothing has no pieces. -/
def colonPieces (text : List Char) : List (List Char) :=
  if text.isEmpty then [] else text.splitOn ':'

/-- Whether a text is an address of eight groups. -/
def isLongAddress (text : List Char) : Bool :=
  match splitAtGap text with
  | none => groupCount? (colonPieces text) true == some 8
  | some (before, after) =>
      match groupCount? (colonPieces before) false, groupCount? (colonPieces after) true with
      | some a, some b => a + b ≤ 7
      | _, _ => false

/-- Whether a text is a host for a scheme. -/
def isHost (scheme : String) (text : List Char) : Bool :=
  match text with
  | '[' :: rest => rest.getLast? == some ']' && isLongAddress rest.dropLast
  | _ =>
      if isSpecial scheme then
        let name := Utf8.decodeLossy (percentDecode text)
        !name.isEmpty && !name.any isForbiddenInDomain && (!looksNumeric name || isAddress name)
      else !text.any isForbiddenInHost

/-! ## Parts -/

/-- Whether a character ends the part of a url that names user, host and service. -/
def endsAuthority (scheme : String) (c : Char) : Bool :=
  c == '/' || c == '?' || c == '#' || (isSpecial scheme && c == '\\')

/-- The texts before and after the last of a character. -/
def splitAtLast (mark : Char) (text : List Char) : Option (List Char × List Char) :=
  if text.contains mark then
    let after := (text.reverse.takeWhile (· != mark)).reverse
    some (text.take (text.length - after.length - 1), after)
  else none

/-- A host and the text behind it; a colon inside brackets belongs to the host. -/
def splitHost : Bool → List Char → List Char × List Char
  | _, [] => ([], [])
  | inside, c :: rest =>
      if c = ':' ∧ !inside then ([], c :: rest)
      else
        let (host, rest) := splitHost (if c = '[' then true else if c = ']' then false else inside) rest
        (c :: host, rest)

/-- The number of the service that a text behind a host gives. -/
def service? : List Char → Option (Option Nat)
  | [] => some none
  | ':' :: run => if run.isEmpty then some none else ((Number.readDigits 65535 0 run).toOption).map some
  | _ => none

/-- The path and the query of the rest of a url. -/
def pathAndQuery (rest : List Char) : List Char × Option (List Char) :=
  let rest := rest.takeWhile (· != '#')
  let path := rest.takeWhile (· != '?')
  (path, (rest.drop path.length).tail? )

/-- The url with a host that follows a scheme. -/
def ofAuthority (scheme : String) (text : List Char) : Option Url := do
  let authority := text.takeWhile fun c => !endsAuthority scheme c
  let (path, query) := pathAndQuery (text.drop authority.length)
  let (credentials, place) := (splitAtLast '@' authority).getD ([], authority)
  let marked := authority.contains '@'
  let (host, behind) := splitHost false place
  let service ← service? behind
  if host.isEmpty && (hostSchemes.contains scheme || marked || !behind.isEmpty) then none
  if !host.isEmpty && !isHost scheme host then none
  let user := credentials.takeWhile (· != ':')
  some
    { scheme, user, password := credentials.drop (user.length + 1), host := some host, service, path, query }

/-- Whether a character may stand in a scheme behind its first one. -/
def isSchemeChar (c : Char) : Bool :=
  c.isAlphanum || c == '+' || c == '-' || c == '.'

/-- A text without the characters that do not count. -/
def cleaned (text : List Char) : List Char :=
  let isEdge (c : Char) : Bool := c.toNat ≤ 0x20
  let inner := ((text.dropWhile isEdge).reverse.dropWhile isEdge).reverse
  inner.filter fun c => !(c == '\t' || c == '\n' || c == '\r')

/-- The absolute url that a text is. -/
def parse? (text : String) : Option Url := do
  let text := cleaned text.toList
  let first ← text.head?
  let scheme := text.takeWhile isSchemeChar
  let rest := text.drop scheme.length
  if !first.isAlpha || rest.head? != some ':' then none
  let scheme := String.ofList (scheme.map Char.toLower)
  let rest := rest.tail
  if hostSchemes.contains scheme then
    ofAuthority scheme (rest.dropWhile fun c => c == '/' || c == '\\')
  else
    match rest with
    | '/' :: '/' :: rest => ofAuthority scheme rest
    | rest =>
        let (path, query) := pathAndQuery rest
        some { scheme, user := [], password := [], host := none, service := none, path, query }

/-- Whether a url is one of the web. -/
def isWeb (url : Url) : Bool :=
  url.scheme == "http" || url.scheme == "https"

end Url

end MapReplica
