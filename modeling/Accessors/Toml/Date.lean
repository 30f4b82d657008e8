import Accessors.Text.Reader
import Accessors.Toml.Basic
import Accessors.Toml.Text

/-!
Dates and times of TOML documents: a date, a time, or both with an offset. A day must exist in its month, and
a minute may have a leap second.
-/

namespace Accessors.Toml.Grammar

open Accessors.Text

/-- A number of so many digits within bounds. -/
def number (width least most : Nat) : Reader Nat := do
  let n := (← Reader.takeCount Char.isDigit width).foldl (fun n c => n * 10 + hexValue c) 0
  if least ≤ n ∧ n ≤ most then return n else Reader.refuse

def isLeapYear (year : Nat) : Bool :=
  year % 4 == 0 && (year % 100 != 0 || year % 400 == 0)

def daysIn (year month : Nat) : Nat :=
  if month = 2 then (if isLeapYear year then 29 else 28)
  else if month = 4 ∨ month = 6 ∨ month = 9 ∨ month = 11 then 30
  else 31

def day : Reader Unit := do
  let year ← number 4 0 9999
  Reader.word ['-']
  let month ← number 2 1 12
  Reader.word ['-']
  let _ ← number 2 1 (daysIn year month)

def time : Reader Unit := do
  let _ ← number 2 0 23
  Reader.word [':']
  let _ ← number 2 0 59
  Reader.word [':']
  let _ ← number 2 0 60
  if ← Reader.word? ['.'] then
    let _ ← Reader.takeIf Char.isDigit
    let _ ← Reader.takeWhile Char.isDigit

/-- The distance from universal time. -/
def offset : Reader Unit := do
  let letter ← Reader.takeIf fun c => c == 'Z' || c == 'z' || c == '+' || c == '-'
  if letter == '+' || letter == '-' then
    let _ ← number 2 0 23
    Reader.word [':']
    let _ ← number 2 0 59

/-- A time after a date, with what separates them. -/
def timeOfDay : Reader Unit := do
  let _ ← Reader.takeIf fun c => c == 'T' || c == 't' || c == ' '
  time
  let _ ← Reader.attempt offset

def dateTime : Reader Unit := do
  day
  let _ ← Reader.attempt timeOfDay

def date : Reader Toml := do
  return .date (String.ofList (← Reader.spelling (Reader.orElse dateTime time)))

end Accessors.Toml.Grammar
