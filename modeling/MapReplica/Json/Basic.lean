/-!
# JSON values

Whole numbers within 64 bits stay exact, all other numbers are doubles. An object
keeps its members in the order in which they stand, repetitions included; looking
up a name finds the last member of that name.
-/

namespace MapReplica

/-- A JSON value. -/
inductive Json where
  | null
  | bool (value : Bool)
  | integer (value : Int)
  | float (value : Float)
  | text (value : String)
  | array (items : List Json)
  | object (members : List (String × Json))
  deriving Inhabited

namespace Json

/-- The last member of a name. -/
def lookup? (name : String) (members : List (String × Json)) : Option Json :=
  (members.reverse.find? (·.1 = name)).map (·.2)

/-- The member of an object; other values have none. -/
def member? (name : String) : Json → Option Json
  | object members => lookup? name members
  | _ => none

/-- The text that a value is. -/
def text? : Json → Option String
  | text value => some value
  | _ => none

/-- The items of an array. -/
def array? : Json → Option (List Json)
  | array items => some items
  | _ => none

/-- The whole number from zero on that a value is. -/
def natural? : Json → Option Nat
  | integer (.ofNat n) => some n
  | _ => none

/-- The truth value that a value is. -/
def bool? : Json → Option Bool
  | bool value => some value
  | _ => none

/-- The number that a value is, as a double. -/
def float? : Json → Option Float
  | integer n => some (Float.ofInt n)
  | float x => some x
  | _ => none

/-- The members without those that a later one of the same name replaces. -/
def latest : List (String × Json) → List (String × Json)
  | [] => []
  | member :: rest =>
      if rest.any (·.1 = member.1) then latest rest else member :: latest rest

/-- The members in the order of their names. -/
def byName (members : List (String × Json)) : List (String × Json) :=
  members.mergeSort fun a b => decide (a.1 ≤ b.1)

mutual

/-- A value with all members in the order of their names, of repeated names the last. -/
def sorted : Json → Json
  | array items => array (sortedItems items)
  | object members => object (byName (latest (sortedMembers members)))
  | value => value

/-- The sorted forms of the items of an array. -/
def sortedItems : List Json → List Json
  | [] => []
  | item :: rest => item.sorted :: sortedItems rest

/-- The members of an object with sorted values. -/
def sortedMembers : List (String × Json) → List (String × Json)
  | [] => []
  | (name, value) :: rest => (name, value.sorted) :: sortedMembers rest

end

end Json

end MapReplica
