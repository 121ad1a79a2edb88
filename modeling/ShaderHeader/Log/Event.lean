import ShaderHeader.Path

/-!
# Log events

What generating a header tells the log.
-/

namespace ShaderHeader

/-- How grave an event is. -/
inductive Level where
  | error
  | warn
  | info
  | debug
  | trace
deriving DecidableEq, Repr

namespace Level

/-- The graver a level, the lower its rank. -/
def rank : Level → Nat
  | .error => 1
  | .warn => 2
  | .info => 3
  | .debug => 4
  | .trace => 5

/-- The name of a level. -/
def name : Level → String
  | .error => "ERROR"
  | .warn => "WARN"
  | .info => "INFO"
  | .debug => "DEBUG"
  | .trace => "TRACE"

/-- The name of a level, aligned to the right in a column of five. -/
def column (level : Level) : String :=
  String.ofList (List.replicate (5 - level.name.length) ' ') ++ level.name

end Level

/-- An event of generating a header. -/
inductive Event where
  /-- The module is about to be read. -/
  | reading (source : Path)
  /-- The module ends in an incomplete word. -/
  | trailing (source : Path) (length dropped : Nat)
  /-- The header is about to be written. -/
  | writing (destination : Path) (words : Nat)
  /-- The header is in place. -/
  | generated (arrayName : String) (words bytes : Nat)
deriving DecidableEq, Repr

namespace Event

/-- The part of the program that all events come from. -/
def target : String :=
  "spv_header::transcode"

/-- How grave an event is: only an incomplete word is worth a warning. -/
def level : Event → Level
  | .trailing .. => .warn
  | _ => .debug

/-- The names of what an event carries: its text, and the values that belong to it. -/
def fields : Event → List String
  | .reading .. => ["message", "path"]
  | .trailing .. => ["message", "path", "length", "dropped"]
  | .writing .. => ["message", "path", "words"]
  | .generated .. => ["message", "array", "words", "bytes"]

/-- An event in words, with the values that belong to it. -/
def message : Event → String
  | .reading source => "reading shader module path=" ++ source.display
  | .trailing source length dropped =>
    "module length is not a multiple of 4, trailing bytes dropped path=" ++ source.display
      ++ " length=" ++ toString length ++ " dropped=" ++ toString dropped
  | .writing destination words =>
    "writing header path=" ++ destination.display ++ " words=" ++ toString words
  | .generated arrayName words bytes =>
    "header generated array=" ++ arrayName ++ " words=" ++ toString words
      ++ " bytes=" ++ toString bytes

/-- An event as an entry of a log: its level and its message. -/
def summary (event : Event) : String :=
  event.level.name ++ " " ++ event.message

/-- An event as a line of a log, without the time. -/
def line (event : Event) : String :=
  event.level.column ++ " " ++ target ++ ": " ++ event.message

end Event

end ShaderHeader
