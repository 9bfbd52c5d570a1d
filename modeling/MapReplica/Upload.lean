import MapReplica.Resource

/-!
# Uploads of expired tiles

After a diff was applied, the list of expired tiles of an entity goes to the object
store as it is and, as boxes, into the queue. A missing or blank list is nothing to
upload, and a request that waits in the queue already counts as delivered.
-/

namespace MapReplica.Upload

/-- A place to which lists of expired tiles go. -/
inductive Target where
  | objectStore
  | queue
  deriving DecidableEq, Repr

/-- The name of a target. -/
def Target.name : Target → String
  | .objectStore => "s3"
  | .queue => "queue"

/-- All targets, in the order in which they are served. -/
def Target.all : List Target := [.objectStore, .queue]

/-- The target of a name. -/
def Target.ofName? (name : String) : Option Target :=
  Target.all.find? (·.name == name)

/-- The name of a list of expired tiles, as a file and as an object. -/
def listName : String := "expire.list"

/-- Which targets are served; the queue needs its settings. -/
structure Dispatcher where
  toStore : Bool
  toQueue : Option Queue.Settings
  deriving DecidableEq, Repr

/-- The wording of a queue that is wanted but not set up. -/
def queueMissing : String :=
  "the queue upload target requires a queue name and zoom range"

/-- A dispatcher for targets. -/
def Dispatcher.make (targets : List Target) (queue : Option Queue.Settings) : Except Failure Dispatcher :=
  if .queue ∈ targets then
    match queue with
    | none => .error (.configuration queueMissing)
    | some settings => .ok ⟨.objectStore ∈ targets, some settings⟩
  else .ok ⟨.objectStore ∈ targets, none⟩

/-- The targets that are served, in order. -/
def Dispatcher.targets (dispatcher : Dispatcher) : List Target :=
  (if dispatcher.toStore then [.objectStore] else []) ++
    (if dispatcher.toQueue.isSome then [.queue] else [])

/-- A list of expired tiles that is to be uploaded. -/
structure Listing where
  project : String
  entity : String
  sequence : Nat
  list : Path
  area : Option Area

/-- Where the object store keeps a list. -/
def keyOf (project entity : String) (sequence : Nat) : String :=
  project ++ "/" ++ entity ++ "/" ++ Number.numeral sequence ++ "/" ++ listName

/-- Where the object store keeps the list. -/
def Listing.key (listing : Listing) : String :=
  keyOf listing.project listing.entity listing.sequence

/-- How the tiles for the queue are chosen: those of the deepest zoom, within the area. -/
def selection (area : Option Area) : Expiry.Selection :=
  { order := .descending, deepestOnly := true, boxFilters := area.toList.map Area.covers }

/-- The boxes of the lines of a list. -/
def boxes (area : Option Area) (lines : List Expiry.Line) : List Box :=
  (selection area).boxes lines

/-- Puts a request for boxes into the queue, unless there are none. -/
def pushBoxes (settings : Queue.Settings) (boxes : List Box) : Task Unit :=
  if boxes.isEmpty then return ()
  else do
    match ← Task.outcome (Task.push (Queue.Request.ofAreas boxes settings)) with
    | .ok () => return ()
    | .error failure => if failure.isAlreadyQueued then return () else throw failure

/-- Serves the targets with the content of a list. -/
def Dispatcher.serve (dispatcher : Dispatcher) (listing : Listing) (content : Bytes) : Task Unit := do
  let lines := Expiry.uniqueLines (Utf8.decodeLossy content)
  if lines.isEmpty then return ()
  if dispatcher.toStore then Task.putObject listing.key content
  match dispatcher.toQueue with
  | none => return ()
  | some settings => pushBoxes settings (boxes listing.area lines)

/-- Uploads a list. -/
def Dispatcher.dispatch (dispatcher : Dispatcher) (listing : Listing) : Task Unit := do
  if dispatcher.targets.isEmpty then return ()
  match ← Task.readFile listing.list with
  | .error .notFound => return ()
  | .error fault => throw fault.failure
  | .ok content => dispatcher.serve listing content

end MapReplica.Upload
