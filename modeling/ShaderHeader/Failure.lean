import ShaderHeader.Disk.Resolve
import ShaderHeader.Embedding

/-!
# Failures

Why a header was not generated, or a configuration not loaded.
-/

namespace ShaderHeader

/-- Why loading or generating failed. -/
inductive Failure where
  /-- A name is no identifier. -/
  | invalid (fault : Fault)
  /-- A configuration is not TOML, or a value in it has the wrong type. -/
  | malformed
  /-- A configuration file could not be read. -/
  | unreadConfig (path : Path) (refusal : Refusal)
  /-- A shader module could not be read. -/
  | unreadSource (path : Path) (refusal : Refusal)
  /-- A header could not be written.  Something may be added to what the system said. -/
  | unwrittenHeader (path : Path) (refusal : Refusal) (addition : String := "")
deriving DecidableEq, Repr

namespace Failure

/-- A failure in words.  What the system said is left to `refusal?`. -/
def message : Failure → String
  | .invalid fault => "Invalid config: " ++ fault.message
  | .malformed => "Failed to parse config TOML"
  | .unreadConfig path _ => "Failed to read config " ++ path.display
  | .unreadSource path _ => "Failed to read shader module " ++ path.display
  | .unwrittenHeader path _ _ => "Failed to write header " ++ path.display

/-- The refusal behind a failure, if there is one. -/
def refusal? : Failure → Option Refusal
  | .unreadConfig _ refusal => some refusal
  | .unreadSource _ refusal => some refusal
  | .unwrittenHeader _ refusal _ => some refusal
  | _ => none

/-- What is added to the words of the system. -/
def addition : Failure → String
  | .unwrittenHeader _ _ addition => addition
  | _ => ""

/-- A failure in words, followed by what the system said and what is added to it. -/
def fullMessage (failure : Failure) : String :=
  match failure.refusal? with
  | none => failure.message
  | some refusal => failure.message ++ ": " ++ refusal.message ++ failure.addition

end Failure

end ShaderHeader
