import MapReplica.Feed
import MapReplica.Json.Reader
import MapReplica.Json.Record
import MapReplica.Timestamp

/-!
# Listings of dump servers

A dump server lists its dumps, the newest one first, as a JSON array.
-/

namespace MapReplica.Dump

/-- A dump of a listing. -/
structure Entry where
  id : String
  name : String
  timestamp : Timestamp
  description : Option String
  url : String
  deriving DecidableEq, Repr

/-- Reads a timestamp. -/
def timestampOfJson? (value : Json) : Option Timestamp :=
  value.text?.bind Timestamp.parse?

/-- Reads a dump; members that are not known are ignored. -/
def Entry.ofJson? (value : Json) : Option Entry := do
  match ← value.fields? ["id", "name", "timestamp", "description", "url"] true with
  | [id, name, timestamp, description, url] =>
      some
        { id := ← Json.required Json.text? id
          name := ← Json.required Json.text? name
          timestamp := ← Json.required timestampOfJson? timestamp
          description := ← Json.optional Json.text? description
          url := ← Json.required Json.text? url }
  | _ => none

/-- Reads a dump from its text. -/
def Entry.parse (content : String) : Except Failure Entry :=
  match (Json.read? content).bind Entry.ofJson? with
  | some entry => .ok entry
  | none => .error (.json "")

/-- Reads a listing. -/
def entries? (body : Bytes) : Option (List Entry) := do
  let content ← Utf8.decode? body
  let value ← Json.read? content
  (← value.array?).mapM Entry.ofJson?

/-- The request for the newest dump. -/
def newestUrl (server : String) : String :=
  Diff.joinUrl server "dumps?limit=1&sort=desc"

/-- The newest dump of a server. -/
def newest (server : String) (headers : List Http.Header) : Task Entry := do
  let url := newestUrl server
  let response ← Feed.get url headers
  let body ← Feed.bodyOf url response
  match entries? body with
  | none => throw (.requestBroken url "error decoding response body")
  | some [] => throw (.noDumps server)
  | some (entry :: _) => return entry

end MapReplica.Dump
