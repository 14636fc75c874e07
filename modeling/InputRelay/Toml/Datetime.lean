/-
Dates and times, as TOML writes them: a date, a time, or both with a `T` or a blank between them and perhaps the offset
from universal time. A date must exist in the calendar.
-/
import InputRelay.Toml.Number

namespace InputRelay.Toml.Datetime

/-- a number of exactly so many digits, within bounds -/
def field (count low high : Nat) : Scan Nat := do
  let n := Text.valueOf 10 (← Scan.exactly count Char.isDigit)
  if low ≤ n ∧ n ≤ high then return n else failure

def isLeapYear (year : Nat) : Bool := year % 4 == 0 && (year % 100 != 0 || year % 400 == 0)

def daysInMonth (year month : Nat) : Nat :=
  if month = 2 then (if isLeapYear year then 29 else 28)
  else if month = 4 ∨ month = 6 ∨ month = 9 ∨ month = 11 then 30
  else 31

def date : Scan Unit := do
  let year ← field 4 0 9999
  let _ ← Scan.char '-'
  let month ← field 2 1 12
  let _ ← Scan.char '-'
  let _ ← field 2 1 (daysInMonth year month)

/-- a minute may have a leap second; any digits may follow the seconds -/
def time : Scan Unit := do
  let _ ← field 2 0 23
  let _ ← Scan.char ':'
  let _ ← field 2 0 59
  let _ ← Scan.char ':'
  let _ ← field 2 0 60
  let _ ← Scan.maybe do
    let _ ← Scan.char '.'
    Scan.run1 Char.isDigit

def offset : Scan Unit := do
  let mark ← Scan.satisfy fun c => c == 'Z' || c == 'z' || c == '+' || c == '-'
  if mark == '+' || mark == '-' then
    let _ ← field 2 0 23
    let _ ← Scan.char ':'
    let _ ← field 2 0 59

/-- the time of a date, after what sets it off -/
def timeOfDay : Scan Unit := do
  let _ ← Scan.satisfy fun c => c == 'T' || c == 't' || c == ' '
  time
  let _ ← Scan.maybe offset

def dated : Scan Unit := do
  date
  let _ ← Scan.maybe timeOfDay

def any : Scan String := do
  return String.ofList (← Scan.taken (dated <|> time))

end InputRelay.Toml.Datetime
