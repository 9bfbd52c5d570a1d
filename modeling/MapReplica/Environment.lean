import MapReplica.Number.Numeral

/-!
# Environments

An environment gives values to names. A value is read as a text, as a truth value or
as a number; one that cannot be read counts as missing.
-/

namespace MapReplica

/-- The values of some names. -/
structure Environment where
  entries : List (String × String) := []
  deriving Repr

namespace Environment

variable (environment : Environment)

/-- The value of a name. -/
def value? (name : String) : Option String :=
  (environment.entries.find? (·.1 = name)).map (·.2)

/-- The environment with a value for a name that has none yet. -/
def withDefault (name value : String) : Environment :=
  if (environment.value? name).isSome then environment
  else ⟨environment.entries ++ [(name, value)]⟩

/-- The value of a name, or a value in its place. -/
def text (name fallback : String) : String :=
  (environment.value? name).getD fallback

/-- The value of a name, unless it is empty. -/
def nonEmpty? (name : String) : Option String :=
  (environment.value? name).filter fun value => !value.isEmpty

/-- The truth value that a text names. -/
def truth? (text : String) : Option Bool :=
  if text = "true" then some true
  else if text = "false" then some false
  else none

/-- The truth value of a name, or a value in its place. -/
def flag (name : String) (fallback : Bool) : Bool :=
  ((environment.value? name).bind truth?).getD fallback

/-- The number of at most `bound` that is the value of a name, or a number in its place. -/
def number (bound : Nat) (name : String) (fallback : Nat) : Nat :=
  ((environment.value? name).bind fun value => (Number.read bound value.toList).toOption).getD fallback

end Environment

end MapReplica
