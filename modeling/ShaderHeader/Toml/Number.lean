import ShaderHeader.Toml.Quoted
import ShaderHeader.Toml.Value

/-!
# Numbers

Integers in four bases, which have to fit in 64 bits with a sign, and decimals,
which must not exceed the range of double precision on the positive side.
-/

namespace ShaderHeader

namespace Toml

open Scanner

/-- A digit of a base of at most sixteen. -/
def digit (base : Nat) : Scanner Nat :=
  filterMap hexDigit fun value => if value < base then some value else none

/-- Digits of a base.  Single underscores may stand between them. -/
def digits (base : Nat) : Scanner (List Nat) := do
  let first ← digit base
  let rest ← many (digit base <|> (do char '_'; digit base))
  return first :: rest

/-- A sign; true for minus. -/
def sign : Scanner Bool :=
  (do char '-'; return true) <|> (do char '+'; return false)

/-- A sign, or none, which counts as plus. -/
def signOrNone : Scanner Bool :=
  (·.getD false) <$> optional sign

/-- The whole part of a decimal number: digits without a leading zero. -/
def wholePart : Scanner (List Nat) := do
  match ← digit 10 with
  | 0 => return [0]
  | first =>
    let rest ← many (digit 10 <|> (do char '_'; digit 10))
    return first :: rest

/-- The number with a sign and a magnitude. -/
def signed (negative : Bool) (magnitude : Nat) : Int :=
  if negative then -(magnitude : Int) else magnitude

/-- An integer if it fits in 64 bits with a sign. -/
def fitting? (number : Int) : Option Int :=
  if -Int.pow 2 63 ≤ number ∧ number < Int.pow 2 63 then some number else none

/-- An integer in the base its marker stands for.  It has no sign. -/
def markedInteger (marker : Char) (base : Nat) : Scanner Int := do
  exact ['0', marker]
  filterMap (digits base) fun value => fitting? (ofDigits base value)

/-- A decimal integer. -/
def plainInteger : Scanner Int := do
  let negative ← signOrNone
  filterMap wholePart fun value => fitting? (signed negative (ofDigits 10 value))

/-- An integer in any base. -/
def integer : Scanner Int :=
  markedInteger 'x' 16 <|> markedInteger 'o' 8 <|> markedInteger 'b' 2 <|> plainInteger

/-- The least number that double precision rounds to infinity: halfway between
its greatest number and the next power of two. -/
def overflowBound : Nat :=
  Nat.pow 2 1024 - Nat.pow 2 970

/-- Whether `digits` times ten to the power of `exponent` is rounded to infinity. -/
def overflows (digits : Nat) (exponent : Int) : Bool :=
  if digits = 0 then false
  else if 0 ≤ exponent then
    400 < exponent || overflowBound ≤ digits * Nat.pow 10 exponent.toNat
  else
    let places := (-exponent).toNat
    places < (Nat.toDigits 10 digits).length && overflowBound * Nat.pow 10 places ≤ digits

/-- A fraction: a point and digits. -/
def fraction : Scanner (List Nat) := do
  char '.'
  digits 10

/-- An exponent: its letter, perhaps a sign, and digits. -/
def exponent : Scanner Int := do
  let _ ← satisfy fun c => c == 'e' || c == 'E'
  let negative ← signOrNone
  let value ← digits 10
  return signed negative (ofDigits 10 value)

/-- A decimal with a fraction, an exponent, or both.  A positive one must not
overflow. -/
def finiteDecimal : Scanner Decimal := do
  let negative ← signOrNone
  let whole ← wholePart
  let (places, power) ←
    (do let power ← exponent; return ([], power)) <|> (do
      let places ← fraction
      let power ← optional exponent
      return (places, power.getD 0))
  let value := ofDigits 10 (whole ++ places)
  let power := power - places.length
  if !negative && overflows value power then failure
  return .finite negative value power

/-- One of the special numbers. -/
def specialDecimal : Scanner Decimal := do
  let negative ← signOrNone
  (do exact ['i', 'n', 'f']; return .infinity negative) <|>
    (do exact ['n', 'a', 'n']; return .notANumber)

/-- A number that is no integer. -/
def decimal : Scanner Decimal :=
  finiteDecimal <|> specialDecimal

end Toml

end ShaderHeader
