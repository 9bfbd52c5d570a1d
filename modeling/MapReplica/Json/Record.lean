import MapReplica.Json.Basic

/-!
# Records in JSON

A record with named fields is written as an object, in any order of its members, or
as an array that gives the fields in their order and may stop early. A name stands at
most once. Whether an object may have further members is up to the format.
-/

namespace MapReplica.Json

/-- The names that stand more than once in a list are refused. -/
def distinct (names : List String) : Bool :=
  match names with
  | [] => true
  | name :: rest => !rest.contains name && distinct rest

/-- The fields of a record that are given, in the order of `names`; `further` admits other members. -/
def fields? (names : List String) (further : Bool) (value : Json) : Option (List (Option Json)) :=
  match value with
  | object members =>
      let known := (members.map (·.1)).filter names.contains
      if distinct known && (further || known.length == members.length) then
        some (names.map fun name => lookup? name members)
      else none
  | array items => if items.length ≤ names.length then some (names.zipIdx.map fun (_, i) => items[i]?) else none
  | _ => none

/-- A field that has to be given. -/
def required {α : Type} (read : Json → Option α) (field : Option Json) : Option α :=
  field.bind read

/-- A field that may be missing or `null`. -/
def optional {α : Type} (read : Json → Option α) : Option Json → Option (Option α)
  | none => some none
  | some null => some none
  | some value => (read value).map some

/-- The whole number of at most eight bits that a value is. -/
def octet? (value : Json) : Option Nat :=
  value.natural?.filter (· < 256)

end MapReplica.Json
