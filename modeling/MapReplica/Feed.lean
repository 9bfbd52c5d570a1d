import MapReplica.Collaborator
import MapReplica.Diff

/-!
# Fetching from servers

Requests to a feed of diffs or a server of dumps. An answer counts only with a status
of success. A file that is fetched is written as far as its content came.
-/

namespace MapReplica.Feed

/-- The name of the progress text of a feed and of a project. -/
def stateFile : String := "state.txt"

/-- A fault of a request as a failure of the work. -/
def failureOf (url : String) : Http.Fault → Failure
  | .unreachable message => .serverUnreachable url message
  | .broken message => .requestBroken url message

/-- The failure of an answer that breaks off. -/
def interrupted (url : String) : Failure :=
  .requestBroken url "error decoding response body"

/-- Asks for a url and accepts only success. -/
def get (url : String) (headers : List Http.Header) : Task Http.Response := do
  match ← Task.fetch url headers with
  | .error fault => throw (failureOf url fault)
  | .ok response =>
      if Http.isSuccess response.status then return response
      else throw (.serverRefused url response.status)

/-- The whole body of an answer. -/
def bodyOf (url : String) (response : Http.Response) : Task Bytes :=
  if response.complete then return response.body else throw (interrupted url)

/-- A body as text; a byte order mark in front does not belong to it. -/
def textOf (body : Bytes) : List Char :=
  match Utf8.decodeLossy body with
  | c :: rest => if c.toNat = 0xFEFF then rest else c :: rest
  | [] => []

/-- The progress text of a feed. -/
def state (base : String) : Task (List Char) := do
  let url := Diff.joinUrl base stateFile
  let response ← get url []
  return textOf (← bodyOf url response)

/-- Makes the directory in which a path lies. -/
def makeParent (path : Path) : Task Unit :=
  match path.parent? with
  | none => return ()
  | some directory => Task.createDirectory directory

/-- Fetches a url into a file. -/
def download (url : String) (headers : List Http.Header) (destination : Path) : Task Unit := do
  let response ← get url headers
  makeParent destination
  Task.writeFile destination response.body
  if !response.complete then throw (interrupted url)

/-- Fetches the diff of a sequence number into a file. -/
def downloadDiff (base : String) (sequence : Nat) (destination : Path) : Task Unit :=
  download (Diff.joinUrl base (Diff.path sequence)) [] destination

end MapReplica.Feed
