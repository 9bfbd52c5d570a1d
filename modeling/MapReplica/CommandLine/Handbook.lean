import MapReplica.Collaborator
import MapReplica.CommandLine.Commands
import MapReplica.CommandLine.Reference

/-!
# The handbook

A document that introduces the program and holds the reference of its command line, and
the program that writes it into a directory.
-/

namespace MapReplica.CommandLine.Handbook

/-- The front of the handbook. -/
def opening (today : String) : List String :=
  ["# osmsync CLI Reference",
   "",
   "This documentation is generated from the CLI source code. Last updated: " ++ today ++ ".",
   "",
   "## Overview",
   "",
   "osmsync keeps osm2pgsql databases in sync with an OSM replication feed. A",
   "project lives under a key prefix of an S3 bucket: its `state.txt` holds the",
   "last applied sequence number and its lua styles are fetched from there on",
   "startup.",
   "",
   "## Quick Start",
   "",
   "```bash",
   "# Import a full dump into an empty database",
   "osmsync create -p my-project -l roads.lua -t dump-server -s https://dumps.example.com",
   "",
   "# Apply every pending minutely diff, shipping expired tiles to the bucket",
   "osmsync append -p my-project -c entities.json \\",
   "  -r https://planet.openstreetmap.org/replication/minute -u s3",
   "",
   "# Keep polling, pushing tile requests to a pg-boss queue",
   "osmsync append -p my-project -c entities.json \\",
   "  -r https://planet.openstreetmap.org/replication/minute \\",
   "  -u queue --queue-name tiles --queue-min-zoom 0 --queue-max-zoom 18 --forever",
   "```",
   "",
   "## Commands",
   ""]

/-- The end of the handbook. -/
def ending : List String :=
  ["",
   "## Environment Variables",
   "",
   "- `S3_ENDPOINT`, `S3_BUCKET`, `S3_REGION`, `S3_ACL` - Object store settings",
   "- `PGHOST`, `PGUSER`, `PGDATABASE` and friends - Target database, read by osm2pgsql itself",
   "- `PGBOSS_DATABASE_URL`, `PGBOSS_SCHEMA` - Database of the tile request queue",
   "- `OSMSYNC_LOCK_DATABASE_URL` - Enables the per-project advisory lock",
   "- `OSMSYNC_WORK_DIR` - Where diffs, styles and expire lists are written",
   "- `OSMSYNC_LOG_LEVEL`, `OSMSYNC_LOG_OUTPUT`, `OSMSYNC_LOG_FORMAT` - Logging",
   "",
   "---",
   "",
   "*To update, run `cargo xtask generate-cli-docs`.*"]

/-- The lines of the handbook. -/
def lines (today : String) : List String :=
  opening today ++ program.reference ++ ending

/-- The program that writes the handbook. -/
def writer : Program :=
  { name := "xtask"
    about := "Build automation tasks for osmsync"
    hasVersion := false
    arguments := []
    commands :=
      [{ name := "generate-cli-docs"
         about := "Generate the CLI reference in markdown"
         arguments :=
           [{ name := "output-dir"
              letter := some 'o'
              kind := .text
              fallback := some "docs"
              help := some "Output directory for generated documentation" }] }] }

/-- The name of the file that holds the handbook. -/
def fileName : String := "cli-reference.md"

/-- Writes the handbook into a directory and tells where it is. -/
def write (directory : Path) (today : String) : Task Path := do
  Task.createDirectory directory
  let path := directory.join fileName
  Task.writeFile path (Utf8.encode (String.join ((lines today).map fun line => line ++ "\n")))
  return path

/-- What is printed while the handbook is written. -/
def announcements (path : Path) : List String :=
  ["Generating CLI documentation...", "Generated CLI documentation at: " ++ path.text]

/-- How the program ends: its exit status and what it printed if it wrote the handbook. -/
structure Report where
  status : Nat
  printed : List String
  deriving DecidableEq, Repr

/-- Runs the program. -/
def run (environment : Environment) (words : List String) (today : String) :
    Dialogue collaborators Report := do
  match writer.read environment words with
  | .error problem => return ⟨problem.exitStatus, []⟩
  | .ok invocation =>
      let directory : Path := ⟨(invocation.given.value? "output-dir").getD ""⟩
      match ← (write directory today).run with
      | .ok path => return ⟨0, announcements path⟩
      | .error _ => return ⟨1, []⟩

end MapReplica.CommandLine.Handbook
