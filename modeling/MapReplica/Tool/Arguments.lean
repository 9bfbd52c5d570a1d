import MapReplica.Path

/-!
# Arguments of a diff

What the import tool needs to apply a diff, and how that is written on its command
line.
-/

namespace MapReplica

/-- What the import tool needs to apply a diff. -/
structure ApplyArguments where
  style : Path
  /-- The zooms for which expired tiles are listed. -/
  zooms : Option String
  /-- Where expired tiles are listed. -/
  list : Option Path
  diff : Path
  deriving DecidableEq, Repr

/-- The arguments on a command line; the diff stands last. -/
def ApplyArguments.toList (arguments : ApplyArguments) : List String :=
  ["--style=" ++ arguments.style.text] ++
    (arguments.zooms.toList.map fun zooms => "--expire-tiles=" ++ zooms) ++
    (arguments.list.toList.map fun list => "--expire-output=" ++ list.text) ++
    [arguments.diff.text]

end MapReplica
