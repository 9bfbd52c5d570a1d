import MapReplica.Number.Numeral
import MapReplica.Path

/-!
# Entities

An entity is a part of a project that is kept up to date on its own: it has a script
that turns map data into tables, zooms for which expired tiles are wanted, and an
area to which they are confined. `check` says which lists of entities are usable.
-/

namespace MapReplica

/-- The greatest zoom of an entity. -/
def greatestZoom : Nat := 20

/-- A zoom, or the zooms between two. -/
structure ZoomLevels where
  min : Nat
  max : Option Nat
  deriving DecidableEq, Repr

/-- The notation of a range of zooms: one number if both ends are the same. -/
def zoomRange (min : Nat) (max : Option Nat) : String :=
  match max with
  | some max => if max = min then Number.numeral min else Number.numeral min ++ "-" ++ Number.numeral max
  | none => Number.numeral min

/-- The upper end. -/
def ZoomLevels.upper (levels : ZoomLevels) : Nat :=
  levels.max.getD levels.min

/-- The notation of zooms. -/
def ZoomLevels.range (levels : ZoomLevels) : String :=
  zoomRange levels.min levels.max

/-- A part of a project with its own script. -/
structure Entity where
  id : String
  script : String
  zoomLevels : Option ZoomLevels
  areaKey : Option String
  deriving DecidableEq, Repr

namespace Entity

/-- Where the object store keeps the script of an entity. -/
def scriptKey (project : String) (entity : Entity) : String :=
  project ++ "/" ++ entity.script

/-- Why a list of entities is not usable. -/
inductive Fault where
  | noEntities
  | emptyId
  | duplicateId (id : String)
  | separatorInId (id : String)
  | noScript (id : String)
  | escapingScript (id script : String)
  | zoomOutOfRange (id : String)
  | zoomsReversed (id : String) (min max : Nat)
  deriving DecidableEq, Repr

/-- The wording of a fault. -/
def Fault.message : Fault → String
  | .noEntities => "append configuration must contain at least one entity"
  | .emptyId => "entity id cannot be empty"
  | .duplicateId id => "duplicate entity id '" ++ id ++ "'"
  | .separatorInId id => "entity id '" ++ id ++ "' cannot contain path separators"
  | .noScript id => "entity '" ++ id ++ "' has no script"
  | .escapingScript id script =>
      "entity '" ++ id ++ "' script '" ++ script ++ "' must be a relative key without '..'"
  | .zoomOutOfRange id =>
      "entity '" ++ id ++ "' zoom levels must be between 0 and " ++ Number.numeral greatestZoom
  | .zoomsReversed id min max =>
      "entity '" ++ id ++ "' min zoom " ++ Number.numeral min ++ " is greater than max zoom " ++
        Number.numeral max

/-- Whether a text can name a file within a directory: it separates no parts and does not lead out. -/
def isPlainId (id : String) : Bool :=
  !id.toList.any (fun c => c == '/' || c == '\\') && id != ".."

/-- Whether a key stays below the place where it is put: it neither starts at the root nor goes up. -/
def isNestedKey (key : String) : Bool :=
  (Path.componentsOf key.toList).all fun component =>
    match component with
    | .name _ => true
    | .here => true
    | _ => false

/-- Checks the zooms of the entity with the given id. -/
def checkZooms (id : String) (levels : ZoomLevels) : Except Fault Unit :=
  if greatestZoom < levels.min ∨ greatestZoom < levels.upper then .error (.zoomOutOfRange id)
  else if levels.upper < levels.min then .error (.zoomsReversed id levels.min levels.upper)
  else .ok ()

/-- Checks an entity by itself and against the ids before it. -/
def checkOne (earlier : List String) (entity : Entity) : Except Fault Unit :=
  if entity.id.isEmpty then .error .emptyId
  else if entity.id ∈ earlier then .error (.duplicateId entity.id)
  else if !isPlainId entity.id then .error (.separatorInId entity.id)
  else if entity.script.isEmpty then .error (.noScript entity.id)
  else if !isNestedKey entity.script then .error (.escapingScript entity.id entity.script)
  else
    match entity.zoomLevels with
    | none => .ok ()
    | some levels => checkZooms entity.id levels

/-- Checks entities one after the other, given the ids before them. -/
def checkEach (earlier : List String) : List Entity → Except Fault Unit
  | [] => .ok ()
  | entity :: rest => do
      checkOne earlier entity
      checkEach (entity.id :: earlier) rest

/-- Checks a list of entities and reports the first fault. -/
def check (entities : List Entity) : Except Fault Unit :=
  if entities.isEmpty then .error .noEntities else checkEach [] entities

end Entity

end MapReplica
