/-!
# Scanners

A `Scanner` reads something off the front of a text and leaves the rest, or
refuses.  Scanners are sequenced with `do`, and `p <|> q` is `q` where `p`
refuses.
-/

namespace ShaderHeader

namespace Toml

/-- Reads a value off the front of a text. -/
abbrev Scanner := StateT (List Char) Option

namespace Scanner

/-- Reads a character that satisfies a test. -/
def satisfy (test : Char → Bool) : Scanner Char
  | c :: rest => if test c then some (c, rest) else none
  | [] => none

/-- Reads the given character. -/
def char (expected : Char) : Scanner Unit
  | c :: rest => if c = expected then some ((), rest) else none
  | [] => none

/-- Reads the given characters. -/
def exact : List Char → Scanner Unit
  | [] => pure ()
  | c :: rest => do
    char c
    exact rest

/-- Succeeds only at the end of the text. -/
def atEnd : Scanner Unit
  | [] => some ((), [])
  | _ :: _ => none

/-- Reads with a scanner until it refuses, at most the given number of times. -/
def upTo {α : Type} (p : Scanner α) : Nat → Scanner (List α)
  | 0 => pure []
  | limit + 1 => (do
      let first ← p
      let rest ← upTo p limit
      return first :: rest) <|> pure []

/-- Reads with a scanner until it refuses.  Where each success takes a character,
the length of the text is no restriction. -/
def many {α : Type} (p : Scanner α) : Scanner (List α) :=
  fun text => upTo p text.length text

/-- Reads with a scanner at least once and until it refuses. -/
def many1 {α : Type} (p : Scanner α) : Scanner (List α) := do
  let first ← p
  let rest ← many p
  return first :: rest

/-- Reads with a scanner exactly the given number of times. -/
def times {α : Type} (p : Scanner α) : Nat → Scanner (List α)
  | 0 => pure []
  | count + 1 => do
    let first ← p
    let rest ← times p count
    return first :: rest

/-- Reads one or more values with a separator between them. -/
def separated {α : Type} (p : Scanner α) (separator : Scanner Unit) : Scanner (List α) := do
  let first ← p
  let rest ← many (do separator; p)
  return first :: rest

/-- Reads something that satisfies a test as a whole. -/
def filterMap {α β : Type} (p : Scanner α) (f : α → Option β) : Scanner β := do
  let value ← p
  match f value with
  | some result => return result
  | none => failure

/-- Reads a whole text. -/
def readAll? {α : Type} (p : Scanner α) (text : List Char) : Option α :=
  match p text with
  | some (value, []) => some value
  | _ => none

end Scanner

end Toml

end ShaderHeader
