import MapReplica.Dump.Listing
import MapReplica.Dump.Source
import MapReplica.Resource

/-!
# The first import

Fetches the script of a project and a dump, and imports the dump with the script.
-/

namespace MapReplica.Create

/-- What a first import is set up with. -/
structure Setup where
  workDirectory : Path
  /-- The bucket of the object store. -/
  bucket : String
  /-- Headers of the requests for dumps. -/
  headers : List Http.Header

/-- The name under which a dump is put into the work directory. -/
def dumpName : String := "dump.osm.pbf"

/-- Where a dump is put. -/
def dumpPath (workDirectory : Path) : Path :=
  workDirectory.join dumpName

/-- Where the object store keeps a script of a project. -/
def keyOf (project script : String) : String :=
  project ++ "/" ++ script

/-- Fetches a script into the work directory. -/
def fetchScript (setup : Setup) (key : String) : Task Path := do
  if !(← Task.bucketExists) then throw (.bucketMissing setup.bucket)
  let body ← Task.getObject key
  let path := setup.workDirectory.join key
  Resource.place path body
  return path

/-- Fetches a dump from a url into the work directory. -/
def downloadDump (setup : Setup) (url : String) : Task Path := do
  let path := dumpPath setup.workDirectory
  Feed.download url setup.headers path
  return path

/-- The path of the dump of a source, which is fetched if it is not local. -/
def fetchDump (setup : Setup) (source : Dump.Source) : Task Path :=
  match source.kind with
  | .localFile => return ⟨source.place⟩
  | .remoteUrl => downloadDump setup source.place
  | .dumpServer => do
      let entry ← Dump.newest source.place setup.headers
      downloadDump setup entry.url

/-- Imports a dump with a script; if that fails all tools are ended. -/
def importWith (script dump : Path) : Task Unit := do
  match ← Task.outcome (Task.importDump script dump) with
  | .ok () => return ()
  | .error failure => do
      Task.terminateTools
      throw failure

/-- Imports a project for the first time. -/
def create (setup : Setup) (project script : String) (source : Dump.Source) : Task Unit := do
  let style ← fetchScript setup (keyOf project script)
  let dump ← fetchDump setup source
  importWith style dump

end MapReplica.Create
