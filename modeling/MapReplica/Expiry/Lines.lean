import MapReplica.Expiry.Run
import MapReplica.Text.Lines

/-!
# The lines of a list

The lines that count are trimmed and not empty, and each counts once, where it
stands first.
-/

namespace MapReplica.Expiry

/-- The members of a list that are not among `seen`, each where it stands first. -/
def firsts {α : Type} [DecidableEq α] : List α → List α → List α
  | _, [] => []
  | seen, item :: rest => if item ∈ seen then firsts seen rest else item :: firsts (item :: seen) rest

/-- The lines of a text that count. -/
def uniqueLines (text : List Char) : List Line :=
  firsts [] (((Text.lines text).map Text.trim).filter fun line => !line.isEmpty)

end MapReplica.Expiry
