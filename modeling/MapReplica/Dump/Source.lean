import MapReplica.Url

/-!
# Sources of dumps

A project is imported from a dump that is a local file, lies at a url, or is the
newest one of a dump server.
-/

namespace MapReplica.Dump

/-- The kinds of sources. -/
inductive Kind where
  | localFile
  | remoteUrl
  | dumpServer
  deriving DecidableEq, Repr

/-- The name of a kind in arguments. -/
def Kind.name : Kind → String
  | .localFile => "local-file"
  | .remoteUrl => "remote-url"
  | .dumpServer => "dump-server"

/-- The name of a kind in messages. -/
def Kind.label : Kind → String
  | .localFile => "LocalFile"
  | .remoteUrl => "RemoteUrl"
  | .dumpServer => "DumpServer"

/-- All kinds. -/
def Kind.all : List Kind := [.localFile, .remoteUrl, .dumpServer]

/-- The kind of a name. -/
def Kind.ofName? (name : String) : Option Kind :=
  Kind.all.find? (·.name == name)

/-- A source: a path or a url, by its kind. -/
structure Source where
  kind : Kind
  place : String
  deriving DecidableEq, Repr

/-- Why a source is not usable. -/
inductive SourceFault where
  | missingFile (kind : Kind) (place : String)
  | noWebUrl (kind : Kind) (place : String)
  deriving DecidableEq, Repr

/-- The wording of a fault. -/
def SourceFault.message : SourceFault → String
  | .missingFile kind place =>
      "provided dump source of type " ++ kind.label ++ " is not valid, " ++ place ++
        " does not exist locally"
  | .noWebUrl kind place =>
      "provided dump source of type " ++ kind.label ++ " is not valid, " ++ place ++
        " is not a valid web uri"

/-- Whether a text is a url of the web. -/
def isWebUrl (place : String) : Bool :=
  (Url.parse? place).any Url.isWeb

/-- A usable source; `existing` says whether a local path exists. -/
def Source.make (existing : Bool) (kind : Kind) (place : String) : Except SourceFault Source :=
  match kind with
  | .localFile => if existing then .ok ⟨kind, place⟩ else .error (.missingFile kind place)
  | _ => if isWebUrl place then .ok ⟨kind, place⟩ else .error (.noWebUrl kind place)

end MapReplica.Dump
