import MapReplica.Expiry.Lines
import MapReplica.Feed
import MapReplica.Geometry.Area

/-!
# Resources

Scripts and areas come from the object store and are loaded once for all cycles. A
script is put into the work directory, an area is kept as it is. Loading is all or
nothing: unless everything was fetched, the cache stays as it was. The resources are
fetched in order here, which is one way to fetch all at the same time, as `loadBy` does.
-/

namespace MapReplica

namespace Resource

/-- What a resource is for. -/
inductive Kind where
  | script
  | area
  deriving DecidableEq, Repr

end Resource

/-- A resource, by its key in the object store. -/
structure Resource where
  id : String
  kind : Resource.Kind
  deriving DecidableEq, Repr

namespace Resource

/-- A resource that was fetched. -/
inductive Loaded where
  | script (path : Path)
  | area (area : Area)

/-- Whether a fetched resource is of a kind. -/
def Loaded.kind : Loaded → Kind
  | .script _ => .script
  | .area _ => .area

/-- The fetched resources by their ids. -/
abbrev Cache := List (String × Loaded)

namespace Cache

/-- The resource of an id. -/
def find? (cache : Cache) (id : String) : Option Loaded :=
  (List.find? (fun entry => entry.1 == id) cache).map (·.2)

/-- Whether there is a resource of an id. -/
def isLoaded (cache : Cache) (id : String) : Bool :=
  (cache.find? id).isSome

/-- Adds resources, which replace those of the same ids. -/
def extend (cache : Cache) (fetched : Cache) : Cache :=
  fetched ++ cache.filter fun entry => !fetched.any fun other => other.1 == entry.1

/-- The path of a script that was loaded. -/
def scriptPath (cache : Cache) (id : String) : Except Failure Path :=
  match cache.find? id with
  | some (.script path) => .ok path
  | _ => .error (.resourceNotLoaded id)

/-- The area of an id that was loaded. -/
def area (cache : Cache) (id : String) : Except Failure Area :=
  match cache.find? id with
  | some (.area found) => .ok found
  | _ => .error (.resourceNotLoaded id)

end Cache

/-- The resources, of several with one id only the first. -/
def firstsById : List String → List Resource → List Resource
  | _, [] => []
  | seen, resource :: rest =>
      if resource.id ∈ seen then firstsById seen rest
      else resource :: firstsById (resource.id :: seen) rest

/-- A failure to fetch a resource, as the failure of its loading. -/
def missing (id : String) : Failure → Failure
  | .resourceMissing id message => .resourceMissing id message
  | other => .resourceMissing id other.message

/--
The text of octets that were fetched. The message of a fault ends at its colon; what a
decoder says of the octets after it is left out.
-/
def textOf (id : String) (body : Bytes) : Except Failure String :=
  match Utf8.decode? body with
  | some text => .ok text
  | none => .error (.resourceMissing id "content is not valid UTF-8: ")

/-- The text of a resource. -/
def fetchText (id : String) : Task String := do
  match ← Task.outcome (Task.getObject id) with
  | .error failure => throw (missing id failure)
  | .ok body => Task.ofExcept (textOf id body)

/-- Writes a file and makes the directory in which it lies. -/
def place (path : Path) (content : Bytes) : Task Unit := do
  Feed.makeParent path
  Task.writeFile path content

/-- Where a script is put. -/
def scriptPathOf (workDirectory : Path) (id : String) : Path :=
  workDirectory.join id

/-- The area that the text of a resource describes. -/
def areaOf (id content : String) : Except Failure Area :=
  match Area.parse? content with
  | some area => .ok area
  | none => .error (.unusableArea id)

/-- Fetches a resource. -/
def fetch (workDirectory : Path) (resource : Resource) : Task Loaded := do
  let content ← fetchText resource.id
  match resource.kind with
  | .script =>
      let path := scriptPathOf workDirectory resource.id
      place path (Utf8.encode content)
      return .script path
  | .area => return .area (← Task.ofExcept (areaOf resource.id content))

/-- Fetches resources in order. -/
def fetchAll (workDirectory : Path) : List Resource → Task Cache
  | [] => return []
  | resource :: rest => do
      let loaded ← fetch workDirectory resource
      let others ← fetchAll workDirectory rest
      return (resource.id, loaded) :: others

/-- Loads resources into the cache. -/
def load (workDirectory : Path) (resources : List Resource) : Activity Cache Unit := do
  let fetched ← fetchAll workDirectory (firstsById [] resources)
  modify fun cache => cache.extend fetched

end Resource

end MapReplica
