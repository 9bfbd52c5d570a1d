import MapReplica.Rehearsal.Disk
import MapReplica.Rehearsal.Event
import MapReplica.Rehearsal.Rule
import MapReplica.Url

/-!
# The world of a rehearsal

Collaborators that follow a script: an object store, a feed, tools, a queue and a
lock in memory. `World.answer` answers every question of the work and changes the
world as the question demands.
-/

namespace MapReplica.Rehearsal

/-- An answer of the feed. -/
structure Reply where
  status : Nat := 200
  body : Bytes := []
  /-- Whether the connection breaks after the body. -/
  breaksOff : Bool := false
  /-- Whether the work is asked to end when the request arrives. -/
  cancels : Bool := false

/-- A put that fails: the key, if only one key is meant, and the message. -/
structure PutRule where
  key : Option String
  message : String

/-- The tools. -/
inductive Tool where
  | merge
  | apply
  | importing
  deriving DecidableEq, Repr

/-- A run of a tool that does not go as usual. -/
structure ToolRule where
  tool : Option Tool
  sequence : Option Nat
  style : Option String
  /-- Whether the run asks the work to end and succeeds. -/
  cancels : Bool
  code : Option Int
  output : String

/-- What a tool lists as expired tiles: a content, or a directory in place of the list. -/
structure ListRule where
  sequence : Option Nat
  style : Option String
  content : Option Bytes

/-- The uses of the queue that may fail. -/
inductive QueueUse where
  | start
  | stop
  | push
  deriving DecidableEq, Repr

/-- A queue: its name and the uses of it that fail. -/
structure QueueScript where
  name : String
  fails : List (Rule (QueueUse × String)) := []
  /-- The requests that were accepted. -/
  accepted : List Queue.Request := []

/-- The uses of the lock that may fail. -/
inductive LockUse where
  | reserve
  | release
  deriving DecidableEq, Repr

/-- A lock: the uses of it that fail. -/
structure LockScript where
  fails : List (Rule (LockUse × String)) := []

/-- Collaborators that follow a script. Events and puts are held in reverse. -/
structure World where
  disk : Disk := []
  /-- The directory from which relative paths start. -/
  current : Place := []
  bucketExists : Bool := true
  objects : List (String × Bytes) := []
  puts : List String := []
  putFails : List (Rule PutRule) := []
  /-- Whether any server can be reached. -/
  online : Bool := true
  feed : List (String × List Reply) := []
  userAgent : String := ""
  toolRules : List (Rule ToolRule) := []
  lists : List ListRule := []
  queue : Option QueueScript := none
  lock : Option LockScript := none
  cancelled : Bool := false
  events : List Event := []

namespace World

/-- Takes down an event. -/
def note (world : World) (event : Event) : World :=
  { world with events := event :: world.events }

/-! ## The object store -/

/-- The content of an object. -/
def object? (world : World) (key : String) : Option Bytes :=
  (world.objects.find? (·.1 == key)).map (·.2)

/-- Puts a content directly into the object store. -/
def setObject (world : World) (key : String) (body : Bytes) : World :=
  { world with objects := (key, body) :: world.objects.filter (·.1 != key) }

/-- Reads an object. -/
def getObject (world : World) (key : String) : Except Failure Bytes :=
  match world.object? key with
  | some body => .ok body
  | none => .error (.objectUnread key "NoSuchKey")

/-- Writes an object. -/
def putObject (world : World) (key : String) (body : Bytes) : Except Failure Unit × World :=
  let (found, rules) := Rule.fire (fun rule => rule.key.all (· == key)) world.putFails
  let world := { world with putFails := rules }
  match found with
  | some rule => (.error (.objectUnwritten key rule.message), world.note (.putFailed key))
  | none =>
      let world := world.note (.put key body)
      (.ok (), { world.setObject key body with puts := key :: world.puts })

/-! ## The feed -/

/-- The place where nothing listens. -/
def deadEnd : String := "http://127.0.0.1:1/"

/-- The next reply of a url; the last one stays. -/
def takeReply (url : String) : List (String × List Reply) → Reply × List (String × List Reply)
  | [] => ({ status := 404 }, [])
  | (known, replies) :: rest =>
      if known == url then
        match replies with
        | [] => ({ status := 404 }, (known, replies) :: rest)
        | [last] => (last, (known, replies) :: rest)
        | first :: later => (first, (known, later) :: rest)
      else
        let (reply, rest) := takeReply url rest
        (reply, (known, replies) :: rest)

/-- The headers that events show. -/
def shownHeaders (userAgent : String) (headers : List Http.Header) : List Http.Header :=
  let sent := Http.insert headers ⟨"user-agent", userAgent⟩
  sent.filter fun header =>
    header.name == "user-agent" || header.name == "authorization" ||
      "x-t-".toList.isPrefixOf header.name.toList

/-- Asks a url. -/
def fetch (world : World) (url : String) (headers : List Http.Header) :
    Except Http.Fault Http.Response × World :=
  if !(Url.parse? url).any Url.isWeb then (.error (.broken "builder error"), world)
  else if !world.online || deadEnd.toList.isPrefixOf url.toList then
    (.error (.unreachable "error sending request"), world)
  else
    let (reply, feed) := takeReply url world.feed
    let world := { world with feed, cancelled := world.cancelled || reply.cancels }
    let body := if reply.status = 204 then [] else reply.body
    (.ok ⟨reply.status, body, !reply.breaksOff⟩,
      world.note (.fetched url (shownHeaders world.userAgent headers)))

/-! ## Files -/

/-- The content of a file, if it can be read. -/
def content? (world : World) (path : Path) : Option Bytes :=
  (world.disk.read world.current path).toOption

/-- Changes the disk if the change is possible. -/
def onDisk (world : World) (change : Except FileFault Disk) : Except FileFault Unit × World :=
  match change with
  | .ok disk => (.ok (), { world with disk })
  | .error fault => (.error fault, world)

/-- Writes a file if that is possible. -/
def written (world : World) (path : Path) (content : Bytes) : World :=
  (world.onDisk (world.disk.write world.current path content)).2

/-! ## Tools -/

/-- The number before the first dot of the name of a file. -/
def sequenceOf (path : Path) : Option Nat :=
  let name := ((path.text.toList.splitOn '/').getLast?).getD []
  (Number.read Number.max64 (name.takeWhile (· != '.'))).toOption

/-- Runs a tool: either it fails or it succeeds with an effect. -/
def runTool (world : World) (tool : Tool) (sequence : Option Nat) (style : Option String)
    (failure : Option Int → String → Failure) (effect : World → World) :
    Except Failure Unit × World :=
  let applies (rule : ToolRule) : Bool :=
    rule.tool.all (· == tool) && rule.sequence.all (fun n => sequence == some n) &&
      rule.style.all (fun text => style == some text)
  let (found, rules) := Rule.fire applies world.toolRules
  let world := { world with toolRules := rules }
  match found with
  | none => (.ok (), effect world)
  | some rule =>
      if rule.cancels then (.ok (), effect { world with cancelled := true })
      else (.error (failure rule.code rule.output), world)

/-- Writes the list of expired tiles that a tool was asked for. -/
def listTiles (sequence : Option Nat) (arguments : ApplyArguments) (world : World) : World :=
  match arguments.list with
  | none => world
  | some path =>
      let applies (rule : ListRule) : Bool :=
        rule.sequence.all (fun n => sequence == some n) &&
          rule.style.all (· == arguments.style.text)
      match world.lists.find? applies with
      | none => world
      | some rule =>
          match rule.content with
          | some content => world.written path content
          | none => (world.onDisk (world.disk.makeAll world.current path)).2

/-- Merges the changes in a file. -/
def merge (world : World) (input output : Path) : Except Failure Unit × World :=
  let body := world.content? input
  runTool (world.note (.merged input output body)) .merge (sequenceOf input) none .mergeTool
    fun world => world.written output (body.getD [])

/-- Applies a diff. -/
def applyDiff (world : World) (arguments : ApplyArguments) : Except Failure Unit × World :=
  let sequence := sequenceOf arguments.diff
  runTool (world.note (.applied arguments (world.content? arguments.diff))) .apply sequence
    (some arguments.style.text) .importTool (listTiles sequence arguments)

/-- Imports a dump. -/
def importDump (world : World) (style dump : Path) : Except Failure Unit × World :=
  let event := Event.imported style (world.content? style) dump (world.content? dump)
  runTool (world.note event) .importing (sequenceOf dump) (some style.text) .importTool id

/-! ## The queue and the lock -/

/-- The failure of a use of the queue, if the script has one. -/
def QueueScript.fire (script : QueueScript) (use : QueueUse) : Option Failure × QueueScript :=
  let (found, fails) := Rule.fire (fun rule => rule.1 == use) script.fails
  (found.map fun (_, message) => .queue message, { script with fails })

/-- Starts or stops the queue. -/
def switchQueue (world : World) (use : QueueUse) (event : Event) : Except Failure Unit × World :=
  match world.queue with
  | none => (.ok (), world)
  | some script =>
      let (failure, script) := QueueScript.fire script use
      let world := { world with queue := some script }.note event
      (match failure with
        | some failure => .error failure
        | none => .ok (), world)

/-- Puts a request into the queue. -/
def push (world : World) (request : Queue.Request) : Except Failure Unit × World :=
  match world.queue with
  | none => (.ok (), world)
  | some script =>
      let (failure, script) := QueueScript.fire script .push
      match failure with
      | some failure => (.error failure, { world with queue := some script }.note .pushFailed)
      | none =>
          if script.accepted.any request.same then
            (.error (.alreadyQueued script.name), { world with queue := some script }.note .pushedAgain)
          else
            let script := { script with accepted := request :: script.accepted }
            (.ok (), { world with queue := some script }.note (.pushed request))

/-- Takes the lock of a project or gives it back. -/
def useLock (world : World) (use : LockUse) (project : String) : Except Failure Unit × World :=
  match world.lock with
  | none => (.ok (), world)
  | some script =>
      let (found, fails) := Rule.fire (fun rule => rule.1 == use) script.fails
      let event := match use with
        | .reserve => Event.reserved project
        | .release => Event.released project
      let world := { world with lock := some { script with fails } }.note event
      match found, use with
      | none, _ => (.ok (), world)
      | some _, .reserve => (.error (.projectLocked project), world)
      | some (_, message), .release => (.error (.lock message), world)

/-! ## Answers -/

/-- Answers a question. -/
def answer : (inquiry : Inquiry) → World → inquiry.Answer × World
  | .bucketExists, world => (.ok world.bucketExists, world)
  | .getObject key, world => (world.getObject key, world)
  | .putObject key body, world => world.putObject key body
  | .fetch url headers, world => world.fetch url headers
  | .createDirectory path, world => world.onDisk (world.disk.makeAll world.current path)
  | .writeFile path content, world => world.onDisk (world.disk.write world.current path content)
  | .readFile path, world => (world.disk.read world.current path, world)
  | .removeFile path, world => world.onDisk (world.disk.remove world.current path)
  | .merge input output, world => world.merge input output
  | .applyDiff arguments, world => world.applyDiff arguments
  | .importDump style dump, world => world.importDump style dump
  | .terminateTools, world => ((), world.note .terminated)
  | .startQueue, world => world.switchQueue .start .queueStarted
  | .stopQueue, world => world.switchQueue .stop .queueStopped
  | .push request, world => world.push request
  | .reserve project, world => world.useLock .reserve project
  | .release project, world => world.useLock .release project
  | .isCancelled, world => (world.cancelled, world)
  | .wait, world => ((), world)

/-- Does work in the world. -/
def perform {α : Type} (world : World) (task : Task α) : Except Failure α × World :=
  @Dialogue.run collaborators _ _ answer task.run world

/-- Does an activity in the world. -/
def act {σ α : Type} (world : World) (state : σ) (activity : Activity σ α) :
    (Except Failure α × σ) × World :=
  @Dialogue.run collaborators _ _ answer (activity.run.run state) world

end World

end MapReplica.Rehearsal
