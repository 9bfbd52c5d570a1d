import MapReplica.Collaborator
import MapReplica.Entity.Format

/-!
# Loading a configuration

A configuration of entities comes from a file.
-/

namespace MapReplica.Entity

/-- The failure of a configuration that cannot be read. -/
def unread (path : Path) (fault : FileFault) : Failure :=
  .configuration ("failed to read append configuration '" ++ path.text ++ "': " ++ fault.message)

/-- The usable entities of a configuration file. -/
def load (path : Path) : Task (List Entity) := do
  match ← Task.readFile path with
  | .error fault => throw (unread path fault)
  | .ok body =>
      match Utf8.decode? body with
      | none => throw (unread path .notText)
      | some content => Task.ofExcept ((parse content).mapError fun fault => .configuration fault.message)

end MapReplica.Entity
