/-!
# Identifiers

Which texts a generated header may use as names, and how a free-form shader name
is turned into the middle part of one.
-/

namespace ShaderHeader

/-- An ASCII letter. -/
def isLetter (c : Char) : Bool :=
  ('a' ≤ c && c ≤ 'z') || ('A' ≤ c && c ≤ 'Z')

/-- An ASCII digit. -/
def isDigit (c : Char) : Bool :=
  '0' ≤ c && c ≤ '9'

/-- A character that may stand first in an identifier. -/
def isNameStart (c : Char) : Bool :=
  isLetter c || c == '_'

/-- A character that may stand in an identifier after the first one. -/
def isNamePart (c : Char) : Bool :=
  isLetter c || isDigit c || c == '_'

/-- Whether characters spell an identifier: a letter or underscore, then
letters, digits and underscores, all of them ASCII. -/
def spellsIdentifier : List Char → Bool
  | [] => false
  | c :: rest => isNameStart c && rest.all isNamePart

/-- A text is an identifier when a compiler of the generated header reads it as
one name. -/
def IsIdentifier (text : String) : Prop :=
  spellsIdentifier text.toList = true

instance (text : String) : Decidable (IsIdentifier text) :=
  inferInstanceAs (Decidable (_ = true))

/-- Writes a character the way names of constants are written: letters in upper
case, digits as they are, an underscore for anything else. -/
def constantChar (c : Char) : Char :=
  if isLetter c || isDigit c then c.toUpper else '_'

/-- Writes a text the way names of constants are written, one character for
each character. -/
def constantCase (text : String) : String :=
  String.ofList (text.toList.map constantChar)

end ShaderHeader
