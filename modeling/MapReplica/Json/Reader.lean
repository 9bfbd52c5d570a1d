import MapReplica.Json.Token

/-!
# Reading JSON

A machine over tokens with a stack of the arrays and objects that are still open.
Values may be nested 127 levels deep.
-/

namespace MapReplica.Json

/-- An open array or object: what it holds so far, the last first, and the pending name. -/
inductive Enclosure where
  | array (before : List Json)
  | object (before : List (String × Json)) (name : String)

/-- What the machine waits for. A value or name may be missing only right after an opening bracket. -/
inductive Wait where
  | value (optional : Bool)
  | name (before : List (String × Json)) (optional : Bool)
  | colon (before : List (String × Json)) (name : String)
  | next (value : Json)

/-- The greatest number of arrays and objects around a value. -/
def deepest : Nat := 127

/-- The machine: the enclosures from the inside out, and what comes next. -/
structure Reading where
  enclosures : List Enclosure
  wait : Wait

/-- The state after a value that ended. -/
def Reading.after (enclosures : List Enclosure) (value : Json) : Reading :=
  ⟨enclosures, .next value⟩

/-- One token further. -/
def Reading.step : Reading → Token → Option Reading
  | ⟨outer, .value optional⟩, token =>
      match token, outer with
      | .scalar value, _ => some (.after outer value)
      | .quoted value, _ => some (.after outer (.text value))
      | .openArray, _ =>
          if outer.length < deepest then some ⟨.array [] :: outer, .value true⟩ else none
      | .openObject, _ => if outer.length < deepest then some ⟨outer, .name [] true⟩ else none
      | .closeArray, .array [] :: outer => if optional then some (.after outer (.array [])) else none
      | _, _ => none
  | ⟨outer, .name before optional⟩, token =>
      match token with
      | .quoted name => some ⟨outer, .colon before name⟩
      | .closeObject => if optional then some (.after outer (.object [])) else none
      | _ => none
  | ⟨outer, .colon before name⟩, token =>
      match token with
      | .colon => some ⟨.object before name :: outer, .value false⟩
      | _ => none
  | ⟨outer, .next value⟩, token =>
      match outer, token with
      | .array before :: outer, .comma => some ⟨.array (value :: before) :: outer, .value false⟩
      | .array before :: outer, .closeArray => some (.after outer (.array (value :: before).reverse))
      | .object before name :: outer, .comma => some ⟨outer, .name ((name, value) :: before) false⟩
      | .object before name :: outer, .closeObject =>
          some (.after outer (.object ((name, value) :: before).reverse))
      | _, _ => none

/-- The value that a text spells. -/
def read? (text : String) : Option Json := do
  let tokens ← tokens? text.toList
  match ← tokens.foldlM Reading.step ⟨[], .value false⟩ with
  | ⟨[], .next value⟩ => some value
  | _ => none

end MapReplica.Json
