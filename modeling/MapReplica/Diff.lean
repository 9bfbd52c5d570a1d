import MapReplica.Number.Numeral

/-!
# Diffs

A feed keeps the diff of a sequence number in three levels of directories: the
millions, the thousands and the rest, each with at least three digits.
-/

namespace MapReplica.Diff

/-- The end of the names of diff files. -/
def extension : String := "osc.gz"

/-- The three levels of a sequence number. -/
def levels (sequence : Nat) : String × String × String :=
  (String.ofList (Number.padded 3 (sequence / 1000000)),
   String.ofList (Number.padded 3 (sequence % 1000000 / 1000)),
   String.ofList (Number.padded 3 (sequence % 1000)))

/-- Where a feed keeps the diff of a sequence number. -/
def path (sequence : Nat) : String :=
  let (top, middle, low) := levels sequence
  top ++ "/" ++ middle ++ "/" ++ low ++ "." ++ extension

/-- A url and a path below it, with exactly one slash between them. -/
def joinUrl (base path : String) : String :=
  let front := (base.toList.reverse.dropWhile (· == '/')).reverse
  let back := path.toList.dropWhile (· == '/')
  String.ofList (front ++ '/' :: back)

end MapReplica.Diff
