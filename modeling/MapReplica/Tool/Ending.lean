import MapReplica.Text.Lines
import MapReplica.Text.Utf8
import MapReplica.Tool.Call

/-!
# How tools end

A call succeeds when its program ends with the exit code zero. Of its error output the
lines are kept, up to the first that is no text.
-/

namespace MapReplica.Tool

/-- How a program ended that was started. -/
structure Ending where
  /-- The exit code; a program that was killed has none. -/
  code : Option Int
  errorOutput : Bytes
  deriving DecidableEq, Repr

/-- Whether a program ended with success. -/
def Ending.isSuccess (ending : Ending) : Bool :=
  ending.code == some 0

/-- The lines of an output, up to the first that is no text. -/
def captured (output : Bytes) : List String :=
  ((Text.linesBy 10 13 output).map Utf8.decode?).takeWhile Option.isSome |>.filterMap id

/-- What is kept of the error output. -/
def Ending.text (ending : Ending) : String :=
  "\n".intercalate (captured ending.errorOutput)

/-- The failure of a tool. -/
def Program.failure (code : Option Int) (output : String) : Program → Failure
  | .importer => .importTool code output
  | .merger => .mergeTool code output

/-- The outcome of a call, given how its program ended or why it could not be started. -/
def Program.outcome (program : Program) : Except FileFault Ending → Except Failure Unit
  | .error fault => .error (program.failure none fault.message)
  | .ok ending =>
      if ending.isSuccess then .ok () else .error (program.failure ending.code ending.text)

end MapReplica.Tool
