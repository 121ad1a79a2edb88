import ShaderHeader.Generation
import ShaderHeader.Log.Filter

/-!
# The command line

The program takes no arguments.  It generates the header of the usual shader and
tells how that went; a variable of the environment decides which events it shows.
-/

namespace ShaderHeader

/-- What a run of the program shows. -/
structure Invocation where
  exitCode : UInt32
  /-- The line on the standard output, if there is one. -/
  notice? : Option String
  /-- The events shown on the error output, in order. -/
  shown : List Event
  /-- The last line on the error output, if something failed. -/
  complaint? : Option String
deriving DecidableEq, Repr

namespace Invocation

/-- The complaint about a failure to generate a header. -/
def complaint (embedding : Embedding) (failure : Failure) : String :=
  "Error: Failed to generate " ++ embedding.destination.display ++ ": " ++ failure.fullMessage

/-- What is shown of an account of the generation, given the variable that holds
the filter. -/
def ofAccount (setting? : Option String) (account : Account Report) : Invocation :=
  let shown := account.events.filter ((Filter.ofSetting setting?).Passes ·)
  match account.result with
  | .ok report => { exitCode := 0, notice? := some report.notice, shown, complaint? := none }
  | .error failure =>
    { exitCode := 1, notice? := none, shown, complaint? := some (complaint .usual failure) }

/-- Runs the program on a disk. -/
def perform (site : Site) (setting? : Option String) (disk : Disk) : Disk × Invocation :=
  let outcome := Embedding.usual.generate site disk
  (outcome.disk, ofAccount setting? outcome.toAccount)

end Invocation

end ShaderHeader
