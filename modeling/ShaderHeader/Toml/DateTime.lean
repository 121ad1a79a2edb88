import ShaderHeader.Toml.Number

/-!
# Dates and times

A date, a time of day, or both with a letter or a blank between them and perhaps
an offset after them.  Each field has a fixed number of digits and is checked
against the calendar and the clock.
-/

namespace ShaderHeader

namespace Toml

open Scanner

/-- A field of so many digits between two bounds. -/
def dateField (length least greatest : Nat) : Scanner Nat :=
  filterMap (times (digit 10) length) fun value =>
    let number := ofDigits 10 value
    if least ≤ number ∧ number ≤ greatest then some number else none

/-- Whether a year has a leap day. -/
def isLeapYear (year : Nat) : Bool :=
  year % 4 = 0 && (year % 100 ≠ 0 || year % 400 = 0)

/-- How many days a month has. -/
def daysIn (year month : Nat) : Nat :=
  if month = 2 then (if isLeapYear year then 29 else 28)
  else if month = 4 ∨ month = 6 ∨ month = 9 ∨ month = 11 then 30
  else 31

/-- A day of the calendar. -/
def date : Scanner Date := do
  let year ← dateField 4 0 9999
  char '-'
  let month ← dateField 2 1 12
  char '-'
  let day ← dateField 2 1 (daysIn year month)
  return { year, month, day }

/-- A fraction of a second in nanoseconds.  Digits beyond the ninth are ignored. -/
def nanoseconds : Scanner Nat := do
  char '.'
  let places ← many1 (digit 10)
  let kept := places.take 9
  return ofDigits 10 kept * Nat.pow 10 (9 - kept.length)

/-- A time of day.  A minute may have a leap second. -/
def time : Scanner Time := do
  let hour ← dateField 2 0 23
  char ':'
  let minute ← dateField 2 0 59
  char ':'
  let second ← dateField 2 0 60
  let nanosecond ← optional nanoseconds
  return { hour, minute, second, nanosecond := nanosecond.getD 0 }

/-- An offset from universal time. -/
def offset : Scanner Offset :=
  (do
    let _ ← satisfy fun c => c == 'Z' || c == 'z'
    return .universal) <|> (do
    let negative ← sign
    let hours ← dateField 2 0 23
    char ':'
    let minutes ← dateField 2 0 59
    return .minutes (signed negative (60 * hours + minutes)))

/-- The time that may follow a date. -/
def timeOfDate : Scanner (Time × Option Offset) := do
  let _ ← satisfy fun c => c == 'T' || c == 't' || c == ' '
  let time ← time
  let offset ← optional offset
  return (time, offset)

/-- A date, a date with a time, or a time. -/
def dateTime : Scanner DateTime :=
  (do
    let date ← date
    let rest? ← optional timeOfDate
    return { date? := some date, time? := rest?.map (·.1), offset? := rest?.bind (·.2) }) <|> (do
    let time ← time
    return { date? := none, time? := some time, offset? := none })

end Toml

end ShaderHeader
