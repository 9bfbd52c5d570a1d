/-!
# Rules of a rehearsal

A rule fires on what it matches. It may be limited to a number of times; of several
rules the first one fires that matches and has times left.
-/

namespace MapReplica.Rehearsal

/-- A rule with what it says and how often it may still fire. -/
structure Rule (α : Type) where
  content : α
  times : Option Nat := none

namespace Rule

variable {α : Type}

/-- Whether a rule may still fire. -/
def isAlive (rule : Rule α) : Bool :=
  rule.times != some 0

/-- The rule after it fired once. -/
def fired (rule : Rule α) : Rule α :=
  { rule with times := rule.times.map (· - 1) }

/-- What the first matching rule says, and the rules after it fired. -/
def fire (applies : α → Bool) : List (Rule α) → Option α × List (Rule α)
  | [] => (none, [])
  | rule :: rest =>
      if rule.isAlive && applies rule.content then (some rule.content, rule.fired :: rest)
      else
        let (found, rest) := fire applies rest
        (found, rule :: rest)

end Rule

end MapReplica.Rehearsal
