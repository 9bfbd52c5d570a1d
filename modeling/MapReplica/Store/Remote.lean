import MapReplica.Failure
import MapReplica.Http
import MapReplica.Store.Acl

/-!
# The object store over HTTP

The requests that the uses of a bucket become, and what their answers mean. A bucket is
missing only if the store says so; every other trouble is a failure.
-/

namespace MapReplica.Store

/-- What a request does. -/
inductive Method where
  | head
  | get
  | put
  deriving DecidableEq, Repr

/-- A request to the object store, with the bucket in its path. -/
structure Request where
  method : Method
  target : String
  /-- The access rule of an object that is written. -/
  acl : Option Acl := none
  body : Bytes := []
  deriving DecidableEq, Repr

/-- A bucket and the access rule of the objects that are written to it. -/
structure Bucket where
  name : String
  acl : Acl
  deriving DecidableEq, Repr

namespace Bucket

variable (bucket : Bucket)

/-- Where an object lies. -/
def target (key : String) : String :=
  "/" ++ bucket.name ++ "/" ++ key

/-- Asks whether the bucket exists. -/
def existence : Request :=
  { method := .head, target := bucket.target "" }

/-- Asks for an object. -/
def reading (key : String) : Request :=
  { method := .get, target := bucket.target key }

/-- Writes an object. -/
def writing (key : String) (body : Bytes) : Request :=
  { method := .put, target := bucket.target key, acl := some bucket.acl, body }

/-- An answer of the store, or why there is none. -/
abbrev Reply := Except String Http.Response

/-- Why an answer is no success. -/
def refusal (response : Http.Response) : String :=
  "service error: status " ++ Number.numeral response.status

/-- Whether the bucket exists, by the answer to that question. -/
def existed : Reply → Except Failure Bool
  | .error message => .error (.store ("failed to check bucket '" ++ bucket.name ++ "': " ++ message))
  | .ok response =>
      if Http.isSuccess response.status then .ok true
      else if response.status = 404 then .ok false
      else .error (.store ("failed to check bucket '" ++ bucket.name ++ "': " ++ refusal response))

/-- The content of an object, by the answer to the request for it. -/
def wasRead (key : String) : Reply → Except Failure Bytes
  | .error message => .error (.objectUnread key message)
  | .ok response =>
      if !Http.isSuccess response.status then .error (.objectUnread key (refusal response))
      else if response.complete then .ok response.body
      else .error (.objectUnread key "streaming error")

/-- Whether an object was written, by the answer to the request. -/
def wasWritten (key : String) : Reply → Except Failure Unit
  | .error message => .error (.objectUnwritten key message)
  | .ok response =>
      if Http.isSuccess response.status then .ok ()
      else .error (.objectUnwritten key (refusal response))

end Bucket

end MapReplica.Store
