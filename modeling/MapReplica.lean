import MapReplica.CommandLine.Handbook
import MapReplica.Main
import MapReplica.Rehearsal.Host
import MapReplica.Rehearsal.Record
import MapReplica.Rehearsal.Script
import MapReplica.Settings.Format
import MapReplica.Tool.Running
import MapReplica.Proofs.Dialogue.Runs
import MapReplica.Proofs.Number.Numeral
import MapReplica.Proofs.Progress.Marker
import MapReplica.Proofs.Text.Utf8
import MapReplica.Proofs.Text.Blank
import MapReplica.Proofs.Text.Lines
import MapReplica.Proofs.Dialogue.Work
import MapReplica.Proofs.Update.Attempt
import MapReplica.Proofs.Update.Discipline
import MapReplica.Proofs.Update.Drives
import MapReplica.Proofs.Update.CommitSafety
import MapReplica.Proofs.Update.Preparation
import MapReplica.Proofs.Lock.Calls
import MapReplica.Proofs.Update.Instances
import MapReplica.Proofs.Path.Places
import MapReplica.Proofs.Update.Artifacts
import MapReplica.Proofs.Update.Disk
import MapReplica.Proofs.Update.Sharing
import MapReplica.Proofs.Update.Durable
import MapReplica.Proofs.Update.Orderly
import MapReplica.Proofs.Update.Conditions
import MapReplica.Proofs.Update.Performing
import MapReplica.Proofs.Update.Settling
import MapReplica.Proofs.Update.Schedule
import MapReplica.Proofs.Update.Flawless
import MapReplica.Proofs.Update.Convergence
import MapReplica.Proofs.Update.Calls
import MapReplica.Proofs.Resource.Loading
import MapReplica.Proofs.Update.Unprepared
import MapReplica.Proofs.Dialogue.Failures
import MapReplica.Proofs.Update.Lookups
import MapReplica.Proofs.Update.Advancing
import MapReplica.Proofs.Update.Scripts
import MapReplica.Proofs.Expiry.Compaction
import MapReplica.Proofs.Queue.Jobs
import MapReplica.Proofs.Upload.Requests
import MapReplica.Proofs.Upload.Effects
import MapReplica.Proofs.Update.Confinement
import MapReplica.Proofs.Update.Names
import MapReplica.Proofs.Dialogue.Continuations
import MapReplica.Proofs.Update.Courses
import MapReplica.Proofs.Update.Duplicates
import MapReplica.Proofs.Update.Limits
import MapReplica.Proofs.Update.Queueing
import MapReplica.Proofs.Update.Continuous
import MapReplica.Proofs.Progress.Rewriting
import MapReplica.Proofs.Tile.Notation
import MapReplica.Proofs.Expiry.Numerals
import MapReplica.Proofs.Expiry.Columns
import MapReplica.Proofs.Expiry.Directions
import MapReplica.Proofs.Tile.Grammar
import MapReplica.Proofs.Expiry.Zooms
import MapReplica.Proofs.Dialogue.Passages
import MapReplica.Proofs.Update.Batches
import MapReplica.Proofs.Update.Traces
import MapReplica.Proofs.Diff.Urls
import MapReplica.Proofs.Resource.AllOrNothing
import MapReplica.Proofs.Update.Bracketing
import MapReplica.Proofs.Lock.Leaks
import MapReplica.Proofs.Entity.Format
import MapReplica.Proofs.Expiry.EachOnce
import MapReplica.Proofs.Create.Once
