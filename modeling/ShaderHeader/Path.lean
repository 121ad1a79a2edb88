import ShaderHeader.Text.Pieces
import ShaderHeader.Text.Utf8

/-!
# Paths

A path is a string of bytes in which slashes separate parts.  Empty parts and
parts that are a single dot name nothing; `fileName?` and `parent?` see through
them, while `parts` keeps every part, because a system that follows a path has
to visit a directory for each of them.
-/

namespace ShaderHeader

/-- A name inside a directory: bytes without a slash. -/
abbrev Name := List UInt8

/-- A path, as the bytes that spell it. -/
structure Path where
  bytes : List UInt8
deriving DecidableEq, Repr

namespace Path

/-- The byte that separates parts. -/
def slash : UInt8 := 0x2F

/-- The part that stays where it is. -/
def dot : Name := [0x2E]

/-- The part that goes to the directory above. -/
def dotDot : Name := [0x2E, 0x2E]

/-- The path a text spells. -/
def ofString (text : String) : Path where
  bytes := Utf8.encode text

/-- The path as text, ill-formed parts replaced. -/
def display (path : Path) : String :=
  Utf8.decodeLossy path.bytes

/-- Whether the path starts at the root. -/
def isAbsolute (path : Path) : Bool :=
  path.bytes.head? == some slash

/-- Whether the path ends in a slash. -/
def endsInSlash (path : Path) : Bool :=
  path.bytes.getLast? == some slash

/-- All parts of the path, empty ones included. -/
def parts (path : Path) : List Name :=
  pieces slash path.bytes

/-- Whether a part names something, be it the directory above. -/
def isComponent (part : Name) : Bool :=
  part != [] && part != dot

/-- The parts that name something. -/
def components (path : Path) : List Name :=
  path.parts.filter isComponent

/-- The last component, unless it is the directory above. -/
def fileName? (path : Path) : Option Name :=
  match path.components.getLast? with
  | none => none
  | some name => if name = dotDot then none else some name

/-- The parts with slashes between them. -/
def joinParts (parts : List Name) : List UInt8 :=
  [slash].intercalate parts

/-- The parts before the last one that `counts`, as far as the last of those that
does.  There are none of them if no part counts. -/
def partsBefore? (counts : Name → Bool) (parts : List Name) : Option (List Name) :=
  match parts.reverse.dropWhile (!counts ·) with
  | [] => none
  | _ :: before => some (before.dropWhile (!counts ·)).reverse

/-- The path up to the component before its last one, spelled as it is.  A relative
path that opens with a dot keeps it as a component of its own; the root and the
empty path have no parent. -/
def parent? (path : Path) : Option Path :=
  if path.isAbsolute then
    (partsBefore? isComponent path.parts.tail).map fun before => ⟨slash :: joinParts before⟩
  else match path.parts with
    | first :: rest =>
      match partsBefore? isComponent rest with
      | some before => some ⟨joinParts (first :: before)⟩
      | none => if first = [] then none else some ⟨[]⟩
    | [] => none

/-- The directory a path says its last component is in; the current one if the
path does not say. -/
def folder (path : Path) : Path :=
  match path.parent? with
  | some parent => if parent.bytes = [] then ⟨dot⟩ else parent
  | none => ⟨dot⟩

/-- Continues a path with another one.  An absolute continuation replaces it. -/
def join (path continuation : Path) : Path :=
  if continuation.isAbsolute || path.bytes = [] then continuation
  else if path.endsInSlash then ⟨path.bytes ++ continuation.bytes⟩
  else ⟨path.bytes ++ slash :: continuation.bytes⟩

end Path

end ShaderHeader
