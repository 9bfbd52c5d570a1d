import MapReplica.Json.Basic

/-!
# Fields of objects

Reading single fields of an object that may be missing. A field that is missing, or of
another kind than wanted, counts as the default of its kind.
-/

namespace MapReplica.Json

/-- Whether an object has a field. -/
def has (name : String) (value : Json) : Bool :=
  (value.member? name).isSome

/-- A field that is a text. -/
def textAt? (name : String) (value : Json) : Option String :=
  (value.member? name).bind text?

/-- A field that is a text, by default the empty one. -/
def textAt (name : String) (value : Json) : String :=
  (value.textAt? name).getD ""

/-- A field that is a whole number from zero on. -/
def naturalAt? (name : String) (value : Json) : Option Nat :=
  (value.member? name).bind natural?

/-- A field that is a whole number from zero on, by default zero. -/
def naturalAt (name : String) (value : Json) : Nat :=
  (value.naturalAt? name).getD 0

/-- A field that is a whole number. -/
def integerAt? (name : String) (value : Json) : Option Int :=
  match value.member? name with
  | some (integer n) => some n
  | _ => none

/-- A field that is a truth value. -/
def flagAt (name : String) (fallback : Bool) (value : Json) : Bool :=
  ((value.member? name).bind bool?).getD fallback

/-- A field that is an array, by default the empty one. -/
def itemsAt (name : String) (value : Json) : List Json :=
  ((value.member? name).bind array?).getD []

/-- The texts in a field that is an array. -/
def textsAt (name : String) (value : Json) : List String :=
  (value.itemsAt name).filterMap text?

/-- The members of a value that is an object, of repeated names the last. -/
def members : Json → List (String × Json)
  | object members => latest members
  | _ => []

/-- The members of a field that is an object. -/
def membersAt (name : String) (value : Json) : List (String × Json) :=
  ((value.member? name).map members).getD []

/-- A field that may be of any kind, by default an empty object. -/
def objectAt (name : String) (value : Json) : Json :=
  (value.member? name).getD (object [])

/-- An array of texts. -/
def ofTexts (items : List String) : Json :=
  array (items.map text)

/-- A value that may be missing, which is written as `null`. -/
def ofOption {α : Type} (write : α → Json) : Option α → Json
  | none => null
  | some value => write value

mutual

/-- A value with all texts and names changed. -/
def mapTexts (change : String → String) : Json → Json
  | text value => text (change value)
  | array items => array (mapTextsItems change items)
  | object members => object (mapTextsMembers change members)
  | value => value

/-- Items with all texts and names changed. -/
def mapTextsItems (change : String → String) : List Json → List Json
  | [] => []
  | item :: rest => item.mapTexts change :: mapTextsItems change rest

/-- Members with all texts and names changed. -/
def mapTextsMembers (change : String → String) : List (String × Json) → List (String × Json)
  | [] => []
  | (name, value) :: rest => (change name, value.mapTexts change) :: mapTextsMembers change rest

end

mutual

/-- A value with the members of another put into it, at every depth. -/
def merge (base : Json) : Json → Json
  | object changes => object (mergeMembers base.members changes)
  | value => value

/-- Members with changes put into them; a change without a member is added. -/
def mergeMembers (base : List (String × Json)) : List (String × Json) → List (String × Json)
  | [] => base
  | (name, change) :: rest =>
      let value := merge ((lookup? name base).getD null) change
      mergeMembers (base.filter (·.1 != name) ++ [(name, value)]) rest

end

end MapReplica.Json
