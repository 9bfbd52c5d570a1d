import MapReplica.Json.Fields
import MapReplica.Number.Numeral
import MapReplica.Text.Utf8

/-!
# Octets in JSON

Octets that are text are written as this text, all others as an object whose member
`hex` holds two hexadecimal digits for each octet.
-/

namespace MapReplica.Json

/-- The value of a hexadecimal digit. -/
def nibble? (c : Char) : Option Nat :=
  if '0' ≤ c ∧ c ≤ '9' then some (c.toNat - '0'.toNat)
  else if 'a' ≤ c ∧ c ≤ 'f' then some (c.toNat - 'a'.toNat + 10)
  else none

/-- The octets of hexadecimal digits. -/
def unhex : List Char → Bytes
  | high :: low :: rest =>
      UInt8.ofNat ((nibble? high).getD 0 * 16 + (nibble? low).getD 0) :: unhex rest
  | _ => []

/-- The hexadecimal digits of octets. -/
def hex (octets : Bytes) : String :=
  String.ofList (octets.flatMap fun octet =>
    [Number.hexDigit (octet.toNat / 16), Number.hexDigit (octet.toNat % 16)])

/-- The octets that a value stands for. -/
def octets : Json → Bytes
  | text value => Utf8.encode value
  | value => unhex (value.textAt "hex").toList

/-- The octets in a field, by default none. -/
def octetsAt (name : String) (value : Json) : Bytes :=
  ((value.member? name).map octets).getD []

/-- Writes octets. -/
def ofOctets (content : Bytes) : Json :=
  match Utf8.decode? content with
  | some value => text value
  | none => object [("hex", text (hex content))]

end MapReplica.Json
