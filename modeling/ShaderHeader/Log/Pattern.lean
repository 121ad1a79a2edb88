import ShaderHeader.Identifier
import ShaderHeader.Text.Alphabetic
import ShaderHeader.Text.Digits
import ShaderHeader.Text.Numeric
import ShaderHeader.Text.WhiteSpace

/-!
# Patterns

A directive may ask for fields whose value matches a pattern.  No event of this
program is ever matched, so all that counts is whether a pattern is well-formed.

A pattern is made of characters, dots, anchors, escapes, sets in brackets, groups
in parentheses, bars between alternatives, and signs that repeat what stands
before them.  Flags at the head of a group change how it is read.  Counted
repetitions and whatever else is written with braces, commas or equals signs
cannot occur, since a directive gives these characters another meaning.  Neither
letters regardless of case nor classes such as all digits are known beyond ASCII,
and patterns must not be nested too deeply.
-/

namespace ShaderHeader

namespace Pattern

/-- How the characters of a pattern are read. -/
structure Flags where
  /-- Letters stand for both of their cases. -/
  ignoresCase : Bool := false
  /-- A pattern speaks of characters, not of bytes. -/
  unicode : Bool := true
  /-- White space and comments stand for nothing. -/
  spaced : Bool := false

namespace Flags

/-- Sets the flag of a letter, if the letter has a meaning for well-formedness. -/
def set (flags : Flags) (value : Bool) : Char → Flags
  | 'i' => { flags with ignoresCase := value }
  | 'u' => { flags with unicode := value }
  | 'x' => { flags with spaced := value }
  | _ => flags

/-- Carries out settings: flags before a minus sign are set, those after it are
cleared. -/
def apply (flags : Flags) (value : Bool) : List Char → Flags
  | [] => flags
  | '-' :: rest => flags.apply false rest
  | letter :: rest => (flags.set value letter).apply value rest

end Flags

/-- Whether letters and minus signs are settings of flags: none of them occurs
twice, and the minus sign is not the last. -/
def areSettings (settings : List Char) : Bool :=
  settings.all "imsUuRx-".toList.contains && settings.Nodup && settings.getLast? != some '-'

/-- Drops white space, and comments from a number sign to the end of the line. -/
def dropSpace (inComment : Bool) : List Char → List Char
  | [] => []
  | c :: rest =>
    if inComment then dropSpace (c != '\n') rest
    else if isWhiteSpace c then dropSpace false rest
    else if c = '#' then dropSpace true rest
    else c :: rest

/-- What is next in a pattern. -/
def Flags.ahead (flags : Flags) (text : List Char) : List Char :=
  if flags.spaced then dropSpace false text else text

/-- The character that decides whether a minus sign makes a range: the next one after
white space and at most one number sign, with which a comment would begin. -/
def Flags.peek? (flags : Flags) (text : List Char) : Option Char :=
  if flags.spaced then
    match text.dropWhile isWhiteSpace with
    | '#' :: rest => (rest.dropWhile isWhiteSpace).head?
    | rest => rest.head?
  else text.head?

/-! ## Nesting -/

/-- How deep a pattern may be nested. -/
def maxDepth : Nat := 250

/-- The depths of things that follow each other, as far as they are needed for the
depth of the whole: of what stands before the last bar or operator, if there is one,
and of the things after it. -/
structure Frame where
  before? : Option Nat := none
  count : Nat := 0
  /-- The greatest depth of a thing before the last one. -/
  deepest : Nat := 0
  /-- The depth of the last thing. -/
  last : Nat := 0

namespace Frame

/-- Adds a thing of a given depth. -/
def push (frame : Frame) (depth : Nat) : Frame :=
  { frame with
    count := frame.count + 1
    deepest := max frame.deepest frame.last
    last := depth }

/-- Repeats the last thing. -/
def repeated (frame : Frame) : Frame :=
  { frame with last := frame.last + 1 }

/-- The depth of the things after the last bar or operator: several of them are one
deeper than the deepest. -/
def rowDepth (frame : Frame) : Nat :=
  if frame.count ≤ 1 then frame.last else max frame.deepest frame.last + 1

/-- The depth of the whole. -/
def depth (frame : Frame) : Nat :=
  match frame.before? with
  | none => frame.rowDepth
  | some before => max before frame.rowDepth + 1

/-- Begins another alternative after a bar.  All alternatives are equally deep. -/
def alternative (frame : Frame) : Frame where
  before? := some (max (frame.before?.getD 0) frame.rowDepth)

/-- Begins the right side of an operator.  All before it is its left side. -/
def operand (frame : Frame) : Frame where
  before? := some frame.depth

end Frame

/-! ## Characters -/

/-- A single thing that a pattern, or a set in it, is made of. -/
inductive Atom where
  /-- A character, perhaps given as one byte. -/
  | char (c : Char) (isByte : Bool)
  /-- A class of characters. -/
  | category
  /-- A place between characters. -/
  | place

/-- Whether an atom can be read under the given flags.  Regardless of case there
are no characters, and among bytes only those of ASCII. -/
def Flags.allows (flags : Flags) (inSet : Bool) : Atom → Bool
  | .char c isByte =>
    if flags.unicode then !flags.ignoresCase else c.toNat < 0x80 || !(isByte || inSet)
  | .category => !flags.unicode
  | .place => !inSet

/-- The code point that so many hexadecimal digits spell. -/
def codePoint? (flags : Flags) : Nat → Nat → List Char → Option (Nat × List Char)
  | 0, code, text => some (code, text)
  | count + 1, code, text =>
    match flags.ahead text with
    | [] => none
    | c :: rest => (hexValue? c).bind fun digit => codePoint? flags count (16 * code + digit) rest

/-- A character given by so many hexadecimal digits. -/
def coded? (flags : Flags) (count : Nat) (text : List Char) : Option (Atom × List Char) := do
  let (code, rest) ← codePoint? flags count 0 text
  let c ← charOf? code
  return (.char c (count = 2), rest)

/-- What a backslash begins. -/
def escape? (flags : Flags) : List Char → Option (Atom × List Char)
  | [] => none
  | c :: rest =>
    match c with
    | 'x' => coded? flags 2 rest
    | 'u' => coded? flags 4 rest
    | 'U' => coded? flags 8 rest
    | 'd' | 's' | 'w' => some (.category, rest)
    | 'A' | 'z' => some (.place, rest)
    | 'b' | 'B' | '<' | '>' => if flags.unicode then none else some (.place, rest)
    | 'a' => some (.char '\x07' false, rest)
    | 't' => some (.char '\t' false, rest)
    | 'n' => some (.char '\n' false, rest)
    | 'v' => some (.char '\x0B' false, rest)
    | 'f' => some (.char '\x0C' false, rest)
    | 'r' => some (.char '\r' false, rest)
    | _ =>
      if c.toNat < 0x80 && !isLetter c && !isDigit c then some (.char c false, rest) else none

/-! ## Sets -/

/-- How far the reading of a set has got. -/
structure SetReading where
  /-- Whether nothing, or nothing but minus signs, has been read of the innermost set. -/
  opening : Bool := true
  frame : Frame := {}
  /-- The sets around the innermost one. -/
  enclosing : List Frame := []

/-- Adds a member to the innermost set. -/
def SetReading.push (reading : SetReading) (depth : Nat) : SetReading :=
  { reading with opening := false, frame := reading.frame.push depth }

/-- Goes on to the right side of an operator. -/
def SetReading.operand (reading : SetReading) : SetReading :=
  { reading with opening := false, frame := reading.frame.operand }

/-- What a step of reading a set leads to: a place inside, or the end of the set, which
then has a depth. -/
inductive SetProgress where
  | inside (reading : SetReading)
  | complete (depth : Nat)

/-- Closes the innermost set. -/
def SetReading.close (reading : SetReading) : SetProgress :=
  match reading.enclosing with
  | [] => .complete (reading.frame.depth + 1)
  | outer :: others =>
    .inside { opening := false, frame := outer.push (reading.frame.depth + 1), enclosing := others }

/-- A set after its bracket, which a circumflex complements.  Among bytes there
are no complements. -/
def openSet? (flags : Flags) (text : List Char) : Option (List Char) :=
  match flags.ahead text with
  | '^' :: rest => if flags.unicode then some rest else none
  | rest => some rest

/-- The names of the classes of ASCII. -/
def classNames : List String :=
  ["alnum", "alpha", "ascii", "blank", "cntrl", "digit", "graph", "lower", "print", "punct",
    "space", "upper", "word", "xdigit"]

/-- A named class inside a set, after its bracket, and whether it is complemented. -/
def namedClass? : List Char → Option (Bool × List Char)
  | ':' :: text =>
    let name := text.takeWhile (· ≠ ':')
    match text.dropWhile (· ≠ ':') with
    | ':' :: ']' :: rest =>
      if classNames.contains (String.ofList name) then some (false, rest)
      else match name with
        | '^' :: name =>
          if classNames.contains (String.ofList name) then some (true, rest) else none
        | _ => none
    | _ => none
  | _ => none

/-- A single member of a set. -/
def member? (flags : Flags) : List Char → Option (Atom × List Char)
  | [] => none
  | '\\' :: rest => escape? flags rest
  | c :: rest => some (.char c false, rest)

/-- A member of a set, or a range between two characters in their order.  A minus
sign before the closing bracket or before another one makes no range. -/
def range? (flags : Flags) (text : List Char) : Option (List Char) := do
  let (first, rest) ← member? flags text
  guard (flags.allows true first)
  match flags.ahead rest with
  | '-' :: beyond =>
    if flags.peek? beyond = some ']' || flags.peek? beyond = some '-' then
      return rest
    else
      let (last, rest) ← member? flags (flags.ahead beyond)
      guard (flags.allows true last)
      match first, last with
      | .char low _, .char high _ => if low ≤ high then return rest else none
      | _, _ => none
  | _ => return rest

/-- Reads one thing of a set. -/
def setStep? (flags : Flags) (reading : SetReading) (text : List Char) :
    Option (SetProgress × List Char) :=
  let member := (range? flags text).map (SetProgress.inside (reading.push 0), ·)
  match text with
  | [] => none
  | '-' :: rest =>
    if reading.opening then
      if flags.allows true (.char '-' false) then
        some (.inside { reading.push 0 with opening := true }, rest)
      else none
    else match rest with
      | '-' :: rest => some (.inside reading.operand, rest)
      | _ => member
  | ']' :: rest =>
    if reading.opening && reading.frame.count = 0 then
      if flags.allows true (.char ']' false) then some (.inside (reading.push 0), rest) else none
    else some (reading.close, rest)
  | '[' :: rest =>
    match namedClass? rest with
    | some (complemented, rest) =>
      if flags.unicode && flags.ignoresCase || !flags.unicode && complemented then none
      else some (.inside (reading.push 0), rest)
    | none =>
      (openSet? flags rest).map
        (SetProgress.inside { enclosing := reading.frame :: reading.enclosing }, ·)
  | '&' :: '&' :: rest => some (.inside reading.operand, rest)
  | '~' :: '~' :: rest => some (.inside reading.operand, rest)
  | _ => member

/-- The depth of a set and what follows its closing bracket. -/
def afterSet? (flags : Flags) (reading : SetReading) (text : List Char) :
    Option (Nat × List Char) :=
  match setStep? flags reading (flags.ahead text) with
  | none => none
  | some (.complete depth, rest) => some (depth, rest)
  | some (.inside next, rest) =>
    if _ : rest.length < text.length then afterSet? flags next rest else none
termination_by text.length

/-! ## Groups and alternatives -/

/-- How far the reading of a pattern has got. -/
structure Reading where
  flags : Flags := {}
  /-- What has been read of the innermost group. -/
  frame : Frame := {}
  /-- Whether what was read last may be repeated. -/
  repeatable : Bool := false
  /-- The groups around the innermost one, and the flags to go back to in them. -/
  enclosing : List (Flags × Frame) := []
  /-- The names given to groups. -/
  names : List (List Char) := []

/-- Adds a thing of a given depth, which may be repeated. -/
def Reading.push (reading : Reading) (depth : Nat) : Reading :=
  { reading with frame := reading.frame.push depth, repeatable := true }

/-- Whether characters may name a group: a letter or underscore, then also numbers,
dots and brackets. -/
def isGroupName : List Char → Bool
  | [] => false
  | c :: rest =>
    (c == '_' || isAlphabetic c)
      && rest.all fun c => isAlphabetic c || isNumeric c || "_.[]".toList.contains c

/-- A group after its parenthesis, up to where its contents begin.  A head of flags
without contents changes the flags for what follows it in the enclosing group. -/
def openGroup? (reading : Reading) (text : List Char) : Option (Reading × List Char) :=
  let inside := { reading with
    frame := {}
    repeatable := false
    enclosing := (reading.flags, reading.frame) :: reading.enclosing }
  match reading.flags.ahead text with
  | '?' :: 'P' :: '<' :: rest | '?' :: '<' :: rest =>
    let name := rest.takeWhile (· ≠ '>')
    match rest.dropWhile (· ≠ '>') with
    | _ :: rest =>
      if isGroupName name && !reading.names.contains name then
        some ({ inside with names := name :: reading.names }, rest)
      else none
    | [] => none
  | '?' :: rest =>
    let settings := rest.takeWhile fun c => c ≠ ':' && c ≠ ')'
    let flags := reading.flags.apply true settings
    if !areSettings settings then none
    else match rest.dropWhile fun c => c ≠ ':' && c ≠ ')' with
      | ':' :: rest => some ({ inside with flags }, rest)
      | _ :: rest =>
        if settings = [] then none
        else some ({ reading.push 0 with flags, repeatable := false }, rest)
      | [] => none
  | rest => some (inside, rest)

/-- Reads one thing of a pattern. -/
def step? (reading : Reading) : List Char → Option (Reading × List Char)
  | [] => none
  | c :: rest =>
    match c with
    | '(' => openGroup? reading rest
    | ')' => match reading.enclosing with
      | [] => none
      | (flags, frame) :: enclosing =>
        let depth := reading.frame.depth + 1
        some ({ reading with flags, frame := frame.push depth, repeatable := true, enclosing }, rest)
    | '|' => some ({ reading with frame := reading.frame.alternative, repeatable := false }, rest)
    | '[' => do
      let rest ← openSet? reading.flags rest
      let (depth, rest) ← afterSet? reading.flags {} rest
      return (reading.push depth, rest)
    | '?' | '*' | '+' =>
      if reading.repeatable then
        let repeated := { reading with frame := reading.frame.repeated }
        match rest with
        | '?' :: rest => some (repeated, rest)
        | _ => some (repeated, rest)
      else none
    | '{' => none
    | '.' => if reading.flags.unicode then some (reading.push 0, rest) else none
    | '^' | '$' => some (reading.push 0, rest)
    | '\\' => do
      let (atom, rest) ← escape? reading.flags rest
      if reading.flags.allows false atom then return (reading.push 0, rest) else none
    | _ =>
      if reading.flags.allows false (.char c false) then some (reading.push 0, rest) else none

/-- Whether what is left of a pattern completes it. -/
def completes (reading : Reading) (text : List Char) : Bool :=
  match reading.flags.ahead text with
  | [] => reading.enclosing.isEmpty && reading.frame.depth ≤ maxDepth
  | next =>
    match step? reading next with
    | none => false
    | some (after, rest) =>
      if _ : rest.length < text.length then completes after rest else false
termination_by text.length

/-- Whether a text is a well-formed pattern. -/
def isWellFormed (text : List Char) : Bool :=
  completes {} text

end Pattern

/-- Whether a text is a decimal number without a sign, or names one that is not
finite. -/
def isUnsignedNumber (text : List Char) : Bool :=
  let rest := text.dropWhile isDigit
  let fraction := if rest.head? = some '.' then rest.tail.takeWhile isDigit else []
  let rest := if rest.head? = some '.' then rest.tail.dropWhile isDigit else rest
  let digits := text.takeWhile isDigit ++ fraction
  let exponent := match rest.tail with
    | '+' :: digits | '-' :: digits => digits
    | digits => digits
  ["inf", "infinity", "nan"].contains (String.ofList (text.map Char.toLower))
    || digits != []
      && (rest == []
        || ['e', 'E'].contains (rest.headD ' ') && exponent != [] && exponent.all isDigit)

/-- Whether a text can be asked for as the value of a field.  It is a pattern, or a
number with a plus sign, which as a pattern would repeat nothing. -/
def isValueTest (text : List Char) : Bool :=
  Pattern.isWellFormed text || text.head? == some '+' && isUnsignedNumber text.tail

end ShaderHeader
