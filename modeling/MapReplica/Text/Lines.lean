/-!
# Lines

A line ends at a line feed, or at a carriage return directly followed by one.
The end of the text also ends a line, unless nothing stands after the last line
feed. The definition is generic in the symbols, so that it serves both for
characters and for octets.
-/

namespace MapReplica.Text

variable {α : Type} [DecidableEq α]

/-- The lines of a text whose line feed is `feed` and whose carriage return is `back`. -/
def linesBy (feed back : α) : List α → List (List α)
  | [] => []
  | [symbol] => if symbol = feed then [[]] else [[symbol]]
  | symbol :: next :: rest =>
      if symbol = feed then
        [] :: linesBy feed back (next :: rest)
      else if symbol = back ∧ next = feed then
        [] :: linesBy feed back rest
      else
        match linesBy feed back (next :: rest) with
        | [] => [[symbol]]
        | line :: lines => (symbol :: line) :: lines

/-- The lines of a text, without their ends. -/
def lines (text : List Char) : List (List Char) :=
  linesBy '\n' '\r' text

end MapReplica.Text
