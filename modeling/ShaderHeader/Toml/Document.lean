import ShaderHeader.Toml.Statement

/-!
# Documents

The table a TOML document describes: its statements, carried out in order.  A
header changes which table the following keys belong to.
-/

namespace ShaderHeader

namespace Toml

/-- A document as far as it has been read: its table, and the keys by which the
last header called the table that is being filled. -/
structure Document where
  root : Table
  current : List String

namespace Document

/-- The document without statements. -/
def empty : Document where
  root := []
  current := []

/-- Carries out a statement. -/
def execute (document : Document) : Statement → Option Document
  | .assign key value =>
    (document.root.within (Table.assign key.name value key.parents) document.current).map
      fun root => { document with root }
  | .header key =>
    (document.root.within (Table.announce key.name) key.parents).map
      fun root => { root, current := key.parents ++ [key.name] }
  | .elementHeader key =>
    (document.root.within (Table.announceElement key.name) key.parents).map
      fun root => { root, current := key.parents ++ [key.name] }

/-- The document that a list of statements makes. -/
def ofStatements? (statements : List Statement) : Option Document :=
  statements.foldlM execute empty

end Document

/-- The table a text describes, if the text is TOML. -/
def parse? (text : String) : Option Table := do
  let statements ← statements.readAll? text.toList
  let document ← Document.ofStatements? statements
  return document.root

end Toml

end ShaderHeader
