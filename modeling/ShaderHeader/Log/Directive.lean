import ShaderHeader.Log.Event
import ShaderHeader.Log.Pattern
import ShaderHeader.Text.Cut
import ShaderHeader.Text.Pieces

/-!
# Log directives

A directive sets a limit for some events.  It may name the beginning of their
target, a span they have to be in, and a field they have to have, perhaps with a
test of its value:

    target[span{field=value}]=level

Each part may be missing.  This program opens no spans, and values are only tested
in spans, so a directive that asks for either applies to none of its events.
-/

namespace ShaderHeader

/-- A field that a directive asks for. -/
structure FieldTest where
  name : String
  /-- What the value of the field has to match. -/
  value? : Option String
deriving DecidableEq, Repr

/-- A limit for some events: they are shown up to `limit`, or not at all if there
is none. -/
structure Directive where
  /-- The beginning of the targets that are meant. -/
  target? : Option String
  /-- The name of the span that is meant. -/
  span? : Option String
  field? : Option FieldTest
  limit : Option Level
deriving DecidableEq, Repr

/-- The limit with a number: none at zero, then the levels by their rank. -/
def limitOfRank? : Nat → Option (Option Level)
  | 0 => some none
  | 1 => some (some .error)
  | 2 => some (some .warn)
  | 3 => some (some .info)
  | 4 => some (some .debug)
  | 5 => some (some .trace)
  | _ => none

/-- The number that decimal digits spell, perhaps after a plus sign. -/
def rankOf? (text : List Char) : Option Nat :=
  let digits := if text.head? = some '+' then text.tail else text
  if digits = [] then none
  else if digits.all isDigit then
    some (ofDigits 10 (digits.map fun c => c.toNat - '0'.toNat))
  else none

/-- The limit a text stands for: a number, or the name of a level or `off`, in any
case. -/
def limitOf? (text : List Char) : Option (Option Level) :=
  match (rankOf? text).bind limitOfRank? with
  | some limit => some limit
  | none =>
    match String.ofList (text.map Char.toLower) with
    | "off" => some none
    | "error" => some (some .error)
    | "warn" => some (some .warn)
    | "info" => some (some .info)
    | "debug" => some (some .debug)
    | "trace" => some (some .trace)
    | _ => none

/-- Reads what a directive says of a field. -/
def FieldTest.ofChars? (text : List Char) : Option FieldTest :=
  if text = [] then none
  else match pieces '=' text with
    | [] => none
    | [name] => some ⟨String.ofList name, none⟩
    | name :: value :: _ =>
      if isValueTest value then some ⟨String.ofList name, some (String.ofList value)⟩ else none

namespace Directive

/-- Whether a directive may begin with a character other than a bracket. -/
def opens (c : Char) : Bool :=
  isAlphabetic c || isNumeric c || ['-', ':', '_'].contains c

/-- Completes a directive after its target and its bracket, or after its target
alone, by the limit from a position of its text on.  An empty one is no restriction. -/
def limitedFrom? (directive : Directive) (text : List Char) (position : Nat) :
    Option Directive := do
  match ← dropBytes? position text with
  | [] => return directive
  | level => return { directive with limit := ← limitOf? level }

/-- Completes a directive after its bracket, of which `rest` is left, from a position
of its text on. -/
def closed? (directive : Directive) (text : List Char) (position : Nat) :
    List Char → Option Directive
  | [] => some directive
  | '=' :: _ => directive.limitedFrom? text (position + 1)
  | _ => none

/-- Reads the bracket of a directive, of which `rest` is left, from a position of its
text on. -/
def bracketed? (directive : Directive) (text : List Char) (position : Nat) (rest : List Char) :
    Option Directive := do
  let name := rest.takeWhile fun c => c ≠ ']' && c ≠ '{'
  let nameEnd := position + byteLength name
  let span ← cut? text position nameEnd
  match rest.dropWhile fun c => c ≠ ']' && c ≠ '{' with
  | [] => none
  | c :: rest =>
    if c = ']' then
      closed? { directive with span? := some (String.ofList span) } text (nameEnd + 1) rest
    else
      let field := rest.takeWhile (· ≠ '}')
      let fieldEnd := nameEnd + 1 + byteLength field
      let field ← FieldTest.ofChars? (← cut? text (nameEnd + 1) fieldEnd)
      let span? := if span = [] then none else some (String.ofList span)
      match rest.dropWhile (· ≠ '}') with
      | _ :: ']' :: rest =>
        closed? { directive with span?, field? := some field } text (fieldEnd + 2) rest
      | _ => none

/-- Reads a directive.  White space at its ends is passed over when its parts are
told apart, but the parts are then cut out of the whole text at the positions they
have without it.  A text that has only one part is a limit for all targets or the
beginning of targets that are shown without limit. -/
def ofChars? (text : List Char) : Option Directive := do
  let anything : Directive := ⟨none, none, none, some .trace⟩
  let body := trimmed text
  if body.head? = some '[' then
    anything.bracketed? text 1 body.tail
  else
    guard (body.head?.any opens)
    let name := body.takeWhile fun c => c ≠ '=' && c ≠ '['
    let position := byteLength name
    match body.dropWhile fun c => c ≠ '=' && c ≠ '[' with
    | [] =>
      match limitOf? text with
      | some limit => return { anything with limit }
      | none => return { anything with target? := some (String.ofList text) }
    | c :: rest =>
      let target ← takeBytes? position text
      let directive := { anything with target? := some (String.ofList target) }
      if c = '=' then directive.limitedFrom? text (position + 1)
      else directive.bracketed? text (position + 1) rest

/-- Whether a directive says anything about an event: it asks for no span and no
value, its target begins that of the event, and the event has its field. -/
def Applies (directive : Directive) (event : Event) : Prop :=
  directive.span? = none
    ∧ (∀ target ∈ directive.target?, target.toList <+: Event.target.toList)
    ∧ (∀ field ∈ directive.field?, field.value? = none ∧ field.name ∈ event.fields)

instance (directive : Directive) (event : Event) : Decidable (directive.Applies event) :=
  inferInstanceAs (Decidable (_ ∧ _ ∧ _))

/-- Whether a directive shows events of a level. -/
def Shows (directive : Directive) (level : Level) : Prop :=
  ∃ limit ∈ directive.limit, level.rank ≤ limit.rank

instance (directive : Directive) (level : Level) : Decidable (directive.Shows level) :=
  match shown : directive.limit with
  | none => isFalse (by simp [Shows, shown])
  | some limit => decidable_of_iff (level.rank ≤ limit.rank) (by simp [Shows, shown])

/-- How much of a target a directive names; nothing is less than the empty text. -/
def reach (directive : Directive) : Nat :=
  directive.target?.elim 0 fun target => target.utf8ByteSize + 1

/-- Whether a directive gives way to another one where both apply: the other names
more of the target, or as much of it and a field while this one names none or one
that is not later in the order of texts. -/
def Yields (directive other : Directive) : Prop :=
  directive.reach < other.reach
    ∨ directive.reach = other.reach
      ∧ directive.field?.all fun field => other.field?.any fun later => field.name ≤ later.name

instance (directive other : Directive) : Decidable (directive.Yields other) :=
  inferInstanceAs (Decidable (_ ∨ _ ∧ _))

end Directive

end ShaderHeader
