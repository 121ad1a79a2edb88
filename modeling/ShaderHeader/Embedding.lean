import ShaderHeader.Identifier
import ShaderHeader.Path

/-!
# Embeddings

An `Embedding` names one shader to embed: where its module lies, where its header
goes, and which names the header declares.  Every field can be derived from the
shader's name, and the header is generated only if all names are identifiers.
-/

namespace ShaderHeader

/-- The identity and location of one embedded shader. -/
structure Embedding where
  /-- The compiled module to read. -/
  source : Path
  /-- The header to generate. -/
  destination : Path
  /-- The name of the declared array. -/
  arrayName : String
  /-- The macro that guards against repeated inclusion. -/
  guard : String
  /-- The enclosing namespaces, outermost first. -/
  namespaces : List String
deriving DecidableEq, Repr

/-- What is wrong with the names of an embedding. -/
inductive Fault where
  | arrayName (name : String)
  | guard (name : String)
  | namespaceSegment (name : String)
deriving DecidableEq, Repr

/-- A fault in words. -/
def Fault.message : Fault → String
  | .arrayName name => "array name '" ++ name ++ "' is not a C identifier"
  | .guard name => "guard token '" ++ name ++ "' is not a C identifier"
  | .namespaceSegment name => "namespace '" ++ name ++ "' is not a C identifier"

namespace Embedding

/-- The directory that receives headers, as seen from the shader sources. -/
def includeFolder : Path :=
  .ofString "../include/parallax/shaders"

/-- The namespaces of a header for which none are given. -/
def usualNamespaces : List String :=
  ["parallax", "shaders"]

/-- Derives every field from a shader's name. -/
def ofShader (name : String) : Embedding where
  source := .ofString (name ++ ".spv")
  destination := includeFolder.join (.ofString (name ++ ".hpp"))
  arrayName := constantCase name ++ "_SPV"
  guard := "_".intercalate (usualNamespaces.map constantCase) ++ "_" ++ constantCase name ++ "_HPP"
  namespaces := usualNamespaces

/-- The embedding of the vector-multiply shader, which stands in wherever nothing
else is said. -/
def usual : Embedding :=
  ofShader "vector_multiply"

instance : Inhabited Embedding where
  default := usual

/-- The name of the constant that holds the size of the array in bytes. -/
def sizeName (embedding : Embedding) : String :=
  embedding.arrayName ++ "_SIZE"

/-- The first name that is no identifier: the array's name, the guard, then the
namespaces from the outside in. -/
def fault? (embedding : Embedding) : Option Fault :=
  if ¬ IsIdentifier embedding.arrayName then some (.arrayName embedding.arrayName)
  else if ¬ IsIdentifier embedding.guard then some (.guard embedding.guard)
  else (embedding.namespaces.find? fun segment => ¬ IsIdentifier segment).map .namespaceSegment

/-- An embedding is valid when all its names are identifiers. -/
def Valid (embedding : Embedding) : Prop :=
  embedding.fault? = none

instance (embedding : Embedding) : Decidable embedding.Valid :=
  inferInstanceAs (Decidable (_ = none))

end Embedding

end ShaderHeader
