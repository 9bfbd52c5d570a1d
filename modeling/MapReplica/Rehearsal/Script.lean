import MapReplica.Json.Octets
import MapReplica.Rehearsal.World

/-!
# Scripts of rehearsals

A script in JSON says what the collaborators of a rehearsal hold and which of their
uses fail.
-/

namespace MapReplica.Rehearsal

/-- Reads a rule, given how to read what it says. -/
def Rule.ofJson {α : Type} (content : Json → α) (value : Json) : Rule α :=
  ⟨content value, value.naturalAt? "times"⟩

/-- Reads an answer of the feed: a body, or an object that may say more. -/
def Reply.ofJson (value : Json) : Reply :=
  match value with
  | .text _ => { body := value.octets }
  | _ =>
      if value.has "hex" then { body := value.octets }
      else
        { status := (value.naturalAt? "status").getD 200
          body := value.octetsAt "body"
          breaksOff := value.has "truncate"
          cancels := value.has "cancel" }

/-- Reads the answers to a url: one for all requests, or a list. -/
def Reply.listOfJson : Json → List Reply
  | .array items => items.map Reply.ofJson
  | value => [Reply.ofJson value]

/-- Reads a feed. -/
def feedOfMembers (members : List (String × Json)) : List (String × List Reply) :=
  members.map fun (url, value) => (url, Reply.listOfJson value)

/-- The tool of a name. -/
def Tool.ofName? : String → Option Tool
  | "merge" => some .merge
  | "append" => some .apply
  | "create" => some .importing
  | _ => none

/-- Reads a rule of the tools; `place` completes the paths of a script. -/
def ToolRule.ofJson (place : String → String) (value : Json) : ToolRule :=
  { tool := Tool.ofName? (value.textAt "tool")
    sequence := value.naturalAt? "sequence"
    style := (value.textAt? "style").map place
    cancels := value.has "cancel"
    code := value.integerAt? "exit_code"
    output := String.ofList (Utf8.decodeLossy (value.octetsAt "stderr")) }

/-- Reads what a tool lists. -/
def ListRule.ofJson (place : String → String) (value : Json) : ListRule :=
  { sequence := value.naturalAt? "sequence"
    style := (value.textAt? "style").map place
    content := if value.has "dir" then none else some (value.octetsAt "content") }

/-- The use of the queue of a name. -/
def QueueUse.ofName : String → QueueUse
  | "start" => .start
  | "stop" => .stop
  | _ => .push

/-- The use of the lock of a name. -/
def LockUse.ofName : String → LockUse
  | "release" => .release
  | _ => .reserve

/-- Reads a queue. -/
def QueueScript.ofJson (value : Json) : QueueScript :=
  { name := (value.textAt? "name").getD "tiles"
    fails := (value.itemsAt "fail").map (Rule.ofJson fun rule =>
      (QueueUse.ofName (rule.textAt "on"), rule.textAt "message")) }

/-- Reads a lock. -/
def LockScript.ofJson (value : Json) : LockScript :=
  { fails := (value.itemsAt "fail").map (Rule.ofJson fun rule =>
      (LockUse.ofName (rule.textAt "on"), rule.textAt "message")) }

/-- A disk with files in a directory. -/
def diskWith (directory : Place) (files : List (String × Json)) : Disk :=
  files.foldl (fun disk (name, content) => disk.plant directory name content.octets)
    (Disk.withDirectory directory)

/-- Reads a world whose current directory is `directory`. No server can be reached from it. -/
def World.ofJson (directory : Place) (place : String → String) (value : Json) : World :=
  let store := value.objectAt "store"
  let tools := value.objectAt "tools"
  { disk := diskWith directory (value.membersAt "files")
    current := directory
    bucketExists := !store.has "bucket_missing"
    objects := (store.membersAt "objects").map fun (key, body) => (key, body.octets)
    putFails := (store.itemsAt "put_fail").map
      (Rule.ofJson fun rule => ⟨rule.textAt? "key", rule.textAt "message"⟩)
    online := false
    feed := feedOfMembers (value.membersAt "feed")
    userAgent := (value.textAt? "user_agent").getD "osmsync-test"
    toolRules := (tools.itemsAt "fail").map (Rule.ofJson (ToolRule.ofJson place))
    lists := (tools.itemsAt "expire").map (ListRule.ofJson place)
    queue := (value.member? "queue").map QueueScript.ofJson
    lock := (value.member? "lock").map LockScript.ofJson }

/-- Puts other answers into the feed. -/
def World.withFeed (world : World) (members : List (String × Json)) : World :=
  let added := feedOfMembers members
  { world with feed := added ++ world.feed.filter fun entry => !added.any (·.1 == entry.1) }

end MapReplica.Rehearsal
