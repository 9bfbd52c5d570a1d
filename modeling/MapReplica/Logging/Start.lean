import MapReplica.Collaborator
import MapReplica.Logging.Filter
import MapReplica.Logging.Settings

/-!
# The start of logging

Logging is started once. The filter is read first; then the directory of the log files
is made, if there are any.
-/

namespace MapReplica.Logging

/-- Why logging was not started. -/
inductive StartFault where
  | malformedFilter
  | noDirectory
  | startedBefore
  deriving DecidableEq, Repr

/-- The wording of a fault. -/
def StartFault.message : StartFault → String
  | .malformedFilter => "Failed to parse filter directive"
  | .noDirectory => "Failed to create log directory"
  | .startedBefore => "Failed to install tracing subscriber"

/-- Makes the directory of the log files, if there are any. -/
def Settings.makeDirectory (settings : Settings) : Dialogue collaborators (Except FileFault Unit) :=
  if settings.output.hasFile then Task.ask (.createDirectory settings.directory)
  else pure (.ok ())

/-- Starts logging; `before` tells whether it was started before. -/
def Settings.start (settings : Settings) (before : Bool) :
    Dialogue collaborators (Except StartFault Unit) :=
  if !settings.filter.all isFilter then pure (.error .malformedFilter)
  else
    (fun
      | .error _ => .error .noDirectory
      | .ok () => if before then .error .startedBefore else .ok ())
    <$> settings.makeDirectory

end MapReplica.Logging
