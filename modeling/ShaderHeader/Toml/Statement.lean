import ShaderHeader.Toml.DateTime
import ShaderHeader.Toml.Table

/-!
# Statements

The lines of a TOML document: a key with its value, or a header in single or
double brackets.
-/

namespace ShaderHeader

namespace Toml

open Scanner

/-- A line of a document. -/
inductive Statement where
  | assign (key : Key) (value : Value)
  | header (key : Key)
  | elementHeader (key : Key)

/-- A character of a key without quotes. -/
def isBareKeyChar (c : Char) : Bool :=
  c.isAlphanum || c == '-' || c == '_'

/-- One part of a key. -/
def keyPart : Scanner String :=
  basicString <|> literalString <|> String.ofList <$> many1 (satisfy isBareKeyChar)

/-- The greatest number of parts of a key, and of arrays and tables in braces
around a value. -/
def maxDepth : Nat := 79

/-- A key, with the blanks around it and around its dots. -/
def key : Scanner Key :=
  filterMap (separated (do blanks; let part ← keyPart; blanks; return part) (char '.'))
    fun parts => if parts.length ≤ maxDepth then Key.ofParts? parts else none

/-- A truth value. -/
def boolean : Scanner Bool :=
  (do exact "true".toList; return true) <|> (do exact "false".toList; return false)

/-- A value that holds no other values. -/
def scalar : Scanner Value :=
  (.string <$> string) <|> (.boolean <$> boolean) <|> (.dateTime <$> dateTime) <|>
    (.decimal <$> decimal) <|> (.integer <$> integer)

/-- Values in brackets, separated by commas and perhaps followed by one. -/
def array (item : Scanner Value) : Scanner Value := do
  char '['
  let items ← (do
    let items ← separated (do spacing; let value ← item; spacing; return value) (char ',')
    let _ ← optional (char ',')
    return items) <|> pure []
  spacing
  char ']'
  return .array items

/-- A key and its value, with the blanks around them. -/
def pair (item : Scanner Value) : Scanner (Key × Value) := do
  let key ← key
  char '='
  blanks
  let value ← item
  return (key, value)

/-- A table in braces, on one line. -/
def inlineTable (item : Scanner Value) : Scanner Value := do
  char '\x7b'
  let pairs ← separated (do let entry ← pair item; blanks; return entry) (char ',') <|> pure []
  blanks
  char '\x7d'
  match Table.ofPairs? pairs with
  | some table => return .table .inline table
  | none => failure

/-- A value with at most the given number of arrays and braces inside each other. -/
def value : Nat → Scanner Value
  | 0 => scalar
  | depth + 1 => scalar <|> array (value depth) <|> inlineTable (value depth)

/-- A header with the given number of brackets on either side. -/
def bracketed (count : Nat) : Scanner Key := do
  exact (List.replicate count '[')
  let key ← key
  exact (List.replicate count ']')
  return key

/-- A statement, without what follows it on its line. -/
def statement : Scanner Statement :=
  (.elementHeader <$> bracketed 2) <|> (.header <$> bracketed 1) <|>
    ((fun (key, value) => .assign key value) <$> pair (value maxDepth))

/-- A line: a statement, or nothing but a comment or the end of the line. -/
def line : Scanner (Option Statement) :=
  (do newline; return none) <|> (do comment; lineEnd; return none) <|> (do
    let statement ← statement
    lineTail
    return some statement)

/-- The statements of a document.  A byte order mark at its front is skipped. -/
def statements : Scanner (List Statement) := do
  let _ ← optional (char '\uFEFF')
  blanks
  let lines ← many (do let line ← line; blanks; return line)
  return lines.filterMap id

end Toml

end ShaderHeader
