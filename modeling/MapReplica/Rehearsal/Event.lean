import MapReplica.Collaborator

/-!
# Events of a rehearsal

What the collaborators of a rehearsal were asked to do, in the order in which they
were asked.
-/

namespace MapReplica.Rehearsal

/-- Something that a collaborator was asked to do. A content that cannot be read is absent. -/
inductive Event where
  | fetched (url : String) (headers : List Http.Header)
  | put (key : String) (body : Bytes)
  | putFailed (key : String)
  | merged (input output : Path) (body : Option Bytes)
  | applied (arguments : ApplyArguments) (body : Option Bytes)
  | imported (style : Path) (styleBody : Option Bytes) (dump : Path) (dumpBody : Option Bytes)
  | terminated
  | queueStarted
  | queueStopped
  | pushed (request : Queue.Request)
  | pushedAgain
  | pushFailed
  | reserved (project : String)
  | released (project : String)

end MapReplica.Rehearsal
