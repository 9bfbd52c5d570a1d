import MapReplica.Feed
import MapReplica.Progress.Marker

/-!
# Progress of a project

How far a project is, kept as a text in the object store, and how far its feed is.
`Progress.load` and `Progress.loadRemote` read both, `Progress.commit` writes the
next number. A number that was never loaded is minus one.

The numbers are unbounded here and signed numbers of 64 bits in the running system, of which
`Marker.read?` accepts no greater one. The greatest of them has no next number there: a
commit that follows it directly would wrap around or end the program. No call that looks at
the feed first comes to this, since the number of the feed is not greater either.
-/

namespace MapReplica

/-- The progress of a project as far as it is known. -/
structure Progress where
  project : String := ""
  /-- The number at the last loading. -/
  start : Int := -1
  /-- The number that the project has reached. -/
  current : Int := -1
  /-- The number that the feed has reached. -/
  remote : Int := -1
  /-- The number of commits. -/
  commits : Nat := 0
  /-- The commits that are still allowed, if they are limited. -/
  remaining : Option Nat := none
  /-- The commits that were allowed at first. -/
  requested : Option Nat := none
  /-- The progress text as it was read or written last. -/
  content : List Char := []
  deriving DecidableEq, Repr

namespace Progress

/-- Where the object store keeps the progress text of a project. -/
def keyOf (project : String) : String :=
  project ++ "/" ++ Feed.stateFile

/-- Where the object store keeps the progress text. -/
def key (progress : Progress) : String :=
  keyOf progress.project

/-- The directory of a project. -/
def directoryOf (workDirectory : Path) (project : String) : Path :=
  workDirectory.join project

/-- The directory of the project. -/
def directory (workDirectory : Path) (progress : Progress) : Path :=
  directoryOf workDirectory progress.project

/-- Whether the project has reached its feed; a feed that is behind counts as reached. -/
def isUpToDate (progress : Progress) : Bool :=
  progress.remote ≤ progress.current

/-- Whether no commits are left. -/
def hasReachedLimit (progress : Progress) : Bool :=
  progress.remaining == some 0

/-- Whether there is nothing to do. -/
def isFinished (progress : Progress) : Bool :=
  progress.hasReachedLimit || progress.isUpToDate

/--
The number to be committed next. After the greatest number of 64 bits it is one that
`Marker.read?` refuses.
-/
def next (progress : Progress) : Nat :=
  (progress.current + 1).toNat

/-- The text with the next number. -/
def nextContent (progress : Progress) : List Char :=
  Marker.withNumber progress.content progress.next

/-- The progress after a commit, whose number may be greater than 64 bits hold. -/
def advanced (progress : Progress) : Progress :=
  { progress with
    content := progress.nextContent
    current := progress.current + 1
    commits := progress.commits + 1 }

/-- The progress with one allowed commit less, if they are limited. -/
def countDown (progress : Progress) : Progress :=
  match progress.remaining, progress.requested with
  | some remaining, some _ => { progress with remaining := some (remaining - 1) }
  | _, _ => progress

/-- The progress for a project and a limit, before anything is loaded for it. -/
def begun (progress : Progress) (project : String) (limit : Option Nat) : Progress :=
  { progress with project, requested := limit, remaining := limit }

/-- The progress with a text that was read, whose number is `sequence`. -/
def loaded (progress : Progress) (content : List Char) (sequence : Nat) : Progress :=
  { progress with content, start := sequence, current := sequence }

/-! ## Activities -/

/-- The sequence number of a text that comes from a place. -/
def sequenceOf (source : String) (content : List Char) : Except Failure Nat :=
  match Marker.read? content with
  | some sequence => .ok sequence
  | none =>
      .error (.unusableProgress source "could not fetch sequence number out of the state file")

/--
The text of octets that come from a place. The message of a fault ends at its colon; what a
decoder says of the octets after it is left out.
-/
def textOf (source : String) (body : Bytes) : Except Failure (List Char) :=
  match Utf8.decode? body with
  | some text => .ok text.toList
  | none => .error (.unusableProgress source "not valid UTF-8: ")

/-- Begins the work on a project: makes its directory and looks for the bucket. -/
def prepare (workDirectory : Path) (bucket project : String) (limit : Option Nat) :
    Activity Progress Unit := do
  modify fun progress => progress.begun project limit
  Task.createDirectory (directoryOf workDirectory project)
  if !(← Task.bucketExists) then throw (.bucketMissing bucket)

/-- Reads the number of the project. -/
def load : Activity Progress Unit := do
  let key := (← get).key
  let body ← Task.getObject key
  let content ← Activity.ofExcept (textOf key body)
  let sequence ← Activity.ofExcept (sequenceOf key content)
  modify fun progress => progress.loaded content sequence

/-- Reads the number of the feed. -/
def loadRemote (feed : String) : Activity Progress Unit := do
  let content ← Feed.state feed
  let sequence ← Activity.ofExcept (sequenceOf feed content)
  modify fun progress => { progress with remote := sequence }

/-- Writes the next number; without success nothing changes. -/
def commit : Activity Progress Unit := do
  let progress ← get
  Task.putObject progress.key (Utf8.encodeChars progress.nextContent)
  set progress.advanced

end Progress

end MapReplica
