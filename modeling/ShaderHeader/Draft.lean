/-!
# Indented drafts

A `Draft` is a text under construction that knows its level of indentation.
Indentation is written with the first characters of a line and not before, so a
blank line stays blank whatever the level.
-/

namespace ShaderHeader

/-- A text under construction: the indentation of one level, the text so far, the
current level, and whether the next characters open a line. -/
structure Draft where
  unit : String
  text : String := ""
  level : Nat := 0
  atLineStart : Bool := true
deriving DecidableEq, Repr

namespace Draft

/-- The indentation of a number of levels. -/
def indentation (unit : String) : Nat → String
  | 0 => ""
  | level + 1 => unit ++ indentation unit level

/-- Adds characters.  The first ones on a line come after its indentation. -/
def write (draft : Draft) (s : String) : Draft :=
  if draft.atLineStart && s != "" then
    { draft with
      text := draft.text ++ indentation draft.unit draft.level ++ s
      atLineStart := false }
  else
    { draft with text := draft.text ++ s }

/-- Ends the line. -/
def newline (draft : Draft) : Draft :=
  { draft with text := draft.text ++ "\n", atLineStart := true }

/-- Adds characters and ends the line. -/
def writeLine (draft : Draft) (s : String) : Draft :=
  (draft.write s).newline

/-- Adds several lines. -/
def writeLines (draft : Draft) (lines : List String) : Draft :=
  lines.foldl writeLine draft

/-- Goes one level deeper. -/
def indent (draft : Draft) : Draft :=
  { draft with level := draft.level + 1 }

/-- Goes one level back; at level zero it stays there. -/
def outdent (draft : Draft) : Draft :=
  { draft with level := draft.level - 1 }

/-- Does something one level deeper. -/
def indented (draft : Draft) (body : Draft → Draft) : Draft :=
  (body draft.indent).outdent

/-- The finished text, which ends its last line. -/
def finish (draft : Draft) : String :=
  if draft.text.toList.getLast? = some '\n' then draft.text else draft.text ++ "\n"

/-- A single edit of a draft. -/
inductive Edit where
  | write (s : String)
  | writeLine (s : String)
  | newline
  | indent
  | outdent
  | indented (body : List Edit)

mutual

/-- Carries out an edit. -/
def edit (draft : Draft) : Edit → Draft
  | .write s => draft.write s
  | .writeLine s => draft.writeLine s
  | .newline => draft.newline
  | .indent => draft.indent
  | .outdent => draft.outdent
  | .indented body => (editAll draft.indent body).outdent

/-- Carries out edits one after another. -/
def editAll (draft : Draft) : List Edit → Draft
  | [] => draft
  | first :: rest => editAll (edit draft first) rest

end

end Draft

end ShaderHeader
