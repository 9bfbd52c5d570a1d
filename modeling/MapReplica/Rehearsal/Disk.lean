import MapReplica.Failure
import MapReplica.Path
import MapReplica.Text.Utf8

/-!
# A disk in memory

Files and directories by the names that lead to them from the root. Operations give
the answers of a usual file system: every directory on the way has to exist, a file
is no directory, and a path that ends with a slash names a directory.
-/

namespace MapReplica.Rehearsal

/-- What lies at a place of a disk. -/
inductive Node where
  | file (content : Bytes)
  | directory
  deriving DecidableEq, Repr

/-- A place on a disk: the names that lead to it from the root. -/
abbrev Place := List String

/-- A disk. The root is always there. -/
abbrev Disk := List (Place × Node)

namespace Disk

/-- What lies at a place. -/
def node? (disk : Disk) (place : Place) : Option Node :=
  if place.isEmpty then some .directory else (disk.find? (·.1 == place)).map (·.2)

/-- Puts something at a place. -/
def put (disk : Disk) (place : Place) (node : Node) : Disk :=
  disk.filter (·.1 != place) ++ [(place, node)]

/-- Takes away what lies at a place. -/
def erase (disk : Disk) (place : Place) : Disk :=
  disk.filter (·.1 != place)

/-- The greatest number of octets in a name. -/
def longestName : Nat := 255

/-- A path as the file system reads it: where it starts, its segments, and whether it ends with a slash. -/
structure Route where
  start : Place
  segments : List String
  endsWithSlash : Bool

/-- The route of a path, given the current directory. -/
def routeOf (current : Place) (path : Path) : Route :=
  let text := path.text.toList
  { start := if path.isAbsolute then [] else current
    segments := ((text.splitOn '/').filter fun segment => !segment.isEmpty).map String.ofList
    endsWithSlash := text.getLast? == some '/' }

/-- One segment further from a directory, given as its names in reverse. -/
def enter (disk : Disk) (place : List String) (segment : String) : Except FileFault (List String) :=
  match disk.node? place.reverse with
  | none => .error .notFound
  | some (.file _) => .error .notADirectory
  | some .directory =>
      if segment == "." then .ok place
      else if segment == ".." then .ok place.tail
      else if longestName < (Utf8.encode segment).length then .error .nameTooLong
      else .ok (segment :: place)

/-- The place to which a path leads; the last segment need not exist. -/
def locate (disk : Disk) (current : Place) (path : Path) : Except FileFault Place :=
  let route := routeOf current path
  if path.text.isEmpty then .error .notFound
  else (route.segments.foldlM (enter disk) route.start.reverse).map List.reverse

/-- Whether a path ends in a way that only a directory can have. -/
def namesDirectory (path : Path) : Bool :=
  let text := path.text.toList
  text.getLast? == some '/' || (Disk.routeOf [] path).segments.getLast?.any fun last => last == "." || last == ".."

/-- Reads a file. -/
def read (disk : Disk) (current : Place) (path : Path) : Except FileFault Bytes := do
  let place ← disk.locate current path
  match disk.node? place with
  | none => throw .notFound
  | some .directory => throw .isADirectory
  | some (.file content) => if namesDirectory path then throw .notADirectory else return content

/-- Whether there is something at the end of a path. -/
def exists? (disk : Disk) (current : Place) (path : Path) : Bool :=
  match disk.locate current path with
  | .error _ => false
  | .ok place =>
      match disk.node? place with
      | none => false
      | some .directory => true
      | some (.file _) => !namesDirectory path

/-- Writes a file. -/
def write (disk : Disk) (current : Place) (path : Path) (content : Bytes) : Except FileFault Disk := do
  let place ← disk.locate current path
  match disk.node? place with
  | some .directory => throw .isADirectory
  | some (.file _) =>
      if namesDirectory path then throw .notADirectory else return disk.put place (.file content)
  | none => if namesDirectory path then throw .isADirectory else return disk.put place (.file content)

/-- Removes a file. -/
def remove (disk : Disk) (current : Place) (path : Path) : Except FileFault Disk := do
  let place ← disk.locate current path
  match disk.node? place with
  | none => throw .notFound
  | some .directory => throw .isADirectory
  | some (.file _) => if namesDirectory path then throw .notADirectory else return disk.erase place

/-- Makes one directory. -/
def makeOne (disk : Disk) (current : Place) (path : Path) : Except FileFault Disk := do
  let place ← disk.locate current path
  match disk.node? place with
  | some _ => throw .alreadyExists
  | none => return disk.put place .directory

/-- Whether a path leads to a directory. -/
def isDirectory (disk : Disk) (current : Place) (path : Path) : Bool :=
  match disk.locate current path with
  | .error _ => false
  | .ok place => disk.node? place == some .directory

/-- Makes a directory; one that is there already is as good. -/
def makeOrKeep (disk : Disk) (current : Place) (path : Path) : Except FileFault Disk :=
  match disk.makeOne current path with
  | .ok disk => .ok disk
  | .error fault => if disk.isDirectory current path then .ok disk else .error fault

/-- Makes directories one after the other. -/
def makeEach (disk : Disk) (current : Place) : List Path → Except FileFault Disk
  | [] => .ok disk
  | path :: rest =>
      match disk.makeOrKeep current path with
      | .ok disk => makeEach disk current rest
      | .error fault => .error fault

/-- Makes a directory and those that it lies in. -/
def makeAll (disk : Disk) (current : Place) (path : Path) : Except FileFault Disk :=
  makeEach disk current (path.ancestry.filter fun outer => outer.text != "/")

/-- The names of a place below a directory. -/
def below? (directory place : Place) : Option Place :=
  if directory.isPrefixOf place then some (place.drop directory.length) else none

/-- The files below a directory, as paths relative to it, in order. -/
def filesBelow (disk : Disk) (directory : Place) : List String :=
  let names := disk.filterMap fun (place, node) =>
    match node with
    | .directory => none
    | .file _ => (below? directory place).map fun place => "/".intercalate place
  names.mergeSort fun a b => decide (a ≤ b)

/-- A disk on which nothing but a directory and what it lies in exists. -/
def withDirectory (directory : Place) : Disk :=
  (List.range directory.length).map fun n => (directory.take (n + 1), .directory)

/-- Puts a file below a directory and makes the directories on the way. -/
def plant (disk : Disk) (directory : Place) (name : String) (content : Bytes) : Disk :=
  let place := directory ++ ((name.toList.splitOn '/').filter fun segment => !segment.isEmpty).map String.ofList
  let inner := (List.range (place.length - directory.length - 1)).map fun n =>
    place.take (directory.length + n + 1)
  (inner.foldl (fun disk place => disk.put place .directory) disk).put place (.file content)

end Disk

end MapReplica.Rehearsal
