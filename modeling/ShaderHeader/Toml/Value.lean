/-!
# TOML values

What a TOML document can hold.  A table remembers how it came to be, because that
decides which later lines may still add to it.
-/

namespace ShaderHeader

namespace Toml

/-- A day of the calendar. -/
structure Date where
  year : Nat
  month : Nat
  day : Nat
deriving DecidableEq, Repr

/-- A time of day. -/
structure Time where
  hour : Nat
  minute : Nat
  second : Nat
  nanosecond : Nat
deriving DecidableEq, Repr

/-- How far a clock is from universal time. -/
inductive Offset where
  | universal
  | minutes (count : Int)
deriving DecidableEq, Repr

/-- A moment, or as much of it as was written. -/
structure DateTime where
  date? : Option Date
  time? : Option Time
  offset? : Option Offset
deriving DecidableEq, Repr

/-- A number with a fraction or an exponent: `digits` times ten to the power of
`exponent`, or one of the special numbers. -/
inductive Decimal where
  | finite (negative : Bool) (digits : Nat) (exponent : Int)
  | infinity (negative : Bool)
  | notANumber
deriving DecidableEq, Repr

/-- How a table came to be. -/
inductive Origin where
  /-- Written between braces. -/
  | inline
  /-- Named by a header of its own. -/
  | header
  /-- Named by a header only on the way to another table. -/
  | implied
  /-- Named by a dotted key on the way to a value. -/
  | dotted
deriving DecidableEq, Repr

/-- A value of a document. -/
inductive Value where
  | string (text : String)
  | integer (number : Int)
  | decimal (number : Decimal)
  | boolean (truth : Bool)
  | dateTime (moment : DateTime)
  | array (items : List Value)
  | table (origin : Origin) (entries : List (String × Value))
  /-- Tables that were each named by a header in double brackets. -/
  | tables (elements : List (List (String × Value)))

/-- The entries of a table. -/
abbrev Table := List (String × Value)

/-- Puts a value at a key, in place of the one it had. -/
def Table.put : Table → String → Value → Table
  | [], key, value => [(key, value)]
  | (other, old) :: rest, key, value =>
    if other = key then (key, value) :: rest else (other, old) :: Table.put rest key value

end Toml

end ShaderHeader
