import ShaderHeader.Disk.Resolve
import ShaderHeader.Failure
import ShaderHeader.Toml.Document

/-!
# Loading embeddings

An embedding, or a list of them, is loaded from TOML.  Each field has a key and a
position: a table gives fields by key, and an entry of a list may also give them
by position.  A field that is not given keeps its usual value, and keys that
belong to no field are ignored.  All of a document is read before any name in it
is checked.
-/

namespace ShaderHeader

open Toml

/-- A field of an embedding. -/
inductive Field where
  | source
  | destination
  | arrayName
  | guard
  | namespaces
deriving DecidableEq, Repr

namespace Field

/-- The key that gives a field. -/
def key : Field → String
  | .source => "source_path"
  | .destination => "destination_path"
  | .arrayName => "array_name"
  | .guard => "guard_token"
  | .namespaces => "namespace_path"

/-- The place of a field where fields are given by position. -/
def position : Field → Nat
  | .source => 0
  | .destination => 1
  | .arrayName => 2
  | .guard => 3
  | .namespaces => 4

end Field

/-- The text a value is. -/
def textOf? : Value → Option String
  | .string text => some text
  | _ => none

/-- The texts a value lists. -/
def textsOf? : Value → Option (List String)
  | .array items => items.mapM textOf?
  | _ => none

/-- A field read from the value it is given, if it is given one. -/
def fieldOf? {α : Type} (read? : Value → Option α) (usual : α) : Option Value → Option α
  | none => some usual
  | some value => read? value

namespace Embedding

/-- The embedding with the given values for its fields. -/
def ofFields? (given : Field → Option Value) : Option Embedding := do
  let path? := fun value => (textOf? value).map Path.ofString
  return {
    source := ← fieldOf? path? usual.source (given .source)
    destination := ← fieldOf? path? usual.destination (given .destination)
    arrayName := ← fieldOf? textOf? usual.arrayName (given .arrayName)
    guard := ← fieldOf? textOf? usual.guard (given .guard)
    namespaces := ← fieldOf? textsOf? usual.namespaces (given .namespaces) }

/-- The embedding a table describes. -/
def ofTable? (table : Table) : Option Embedding :=
  ofFields? fun field => table.lookup field.key

/-- The embedding that values describe by their position. -/
def ofItems? (items : List Value) : Option Embedding :=
  ofFields? fun field => items[field.position]?

/-- The embedding an entry of a list describes.  A moment in time counts as an
entry that gives no field. -/
def ofEntry? : Value → Option Embedding
  | .table _ table => ofTable? table
  | .array items => ofItems? items
  | .dateTime _ => some usual
  | _ => none

/-- The embeddings that the list in a table describes. -/
def listOfTable? (table : Table) : Option (List Embedding) :=
  match table.lookup "shaders" with
  | none => some []
  | some (.array items) => items.mapM ofEntry?
  | some (.tables elements) => elements.mapM ofTable?
  | some _ => none

/-- An embedding, if all its names are identifiers. -/
def checked (embedding : Embedding) : Except Failure Embedding :=
  match embedding.fault? with
  | none => .ok embedding
  | some fault => .error (.invalid fault)

/-- Loads an embedding from a text. -/
def ofToml (text : String) : Except Failure Embedding :=
  match (parse? text).bind ofTable? with
  | none => .error .malformed
  | some embedding => embedding.checked

/-- Loads a list of embeddings from a text.  The first one with a fault is
reported. -/
def listOfToml (text : String) : Except Failure (List Embedding) :=
  match (parse? text).bind listOfTable? with
  | none => .error .malformed
  | some embeddings => embeddings.mapM checked

/-- Reads the text of a configuration file. -/
def readText (disk : Disk) (here : Location) (path : Path) : Except Failure String :=
  match disk.read here path with
  | .error refusal => .error (.unreadConfig path refusal)
  | .ok bytes =>
    match Utf8.decode? bytes with
    | none => .error (.unreadConfig path .notText)
    | some text => .ok text

/-- Loads an embedding from a file. -/
def ofFile (disk : Disk) (here : Location) (path : Path) : Except Failure Embedding := do
  ofToml (← readText disk here path)

/-- Loads a list of embeddings from a file. -/
def listOfFile (disk : Disk) (here : Location) (path : Path) :
    Except Failure (List Embedding) := do
  listOfToml (← readText disk here path)

end Embedding

end ShaderHeader
