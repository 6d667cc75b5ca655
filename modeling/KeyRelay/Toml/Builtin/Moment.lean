import KeyRelay.Text.Decimal

/-! # Reading points in time

A date, a time of day, or both with an optional offset. A date exists in the
calendar; a minute may have a leap second. -/
set_option autoImplicit false

namespace KeyRelay.Toml

open Text (isDigit digitsValue)

/-- A number of exactly `count` digits between two bounds. -/
def fixedNumber? (count low high : Nat) (text : List Char) : Option (Nat × List Char) :=
  let digits := text.take count
  let value := digitsValue digits
  if digits.length = count ∧ digits.all isDigit ∧ low ≤ value ∧ value ≤ high then
    some (value, text.drop count)
  else none

def expect? (c : Char) : List Char → Option (List Char)
  | first :: rest => if first = c then some rest else none
  | [] => none

def isLeapYear (year : Nat) : Bool :=
  year % 4 = 0 && (year % 100 ≠ 0 || year % 400 = 0)

def daysInMonth (year month : Nat) : Nat :=
  if month = 2 then (if isLeapYear year then 29 else 28)
  else if month = 4 ∨ month = 6 ∨ month = 9 ∨ month = 11 then 30
  else 31

def date? (text : List Char) : Option (List Char) := do
  let (year, text) ← fixedNumber? 4 0 9999 text
  let (month, text) ← fixedNumber? 2 1 12 (← expect? '-' text)
  let (_, text) ← fixedNumber? 2 1 (daysInMonth year month) (← expect? '-' text)
  return text

def skipFraction : List Char → List Char
  | '.' :: c :: rest => if isDigit c then rest.dropWhile isDigit else '.' :: c :: rest
  | text => text

def time? (text : List Char) : Option (List Char) := do
  let (_, text) ← fixedNumber? 2 0 23 text
  let (_, text) ← fixedNumber? 2 0 59 (← expect? ':' text)
  let (_, text) ← fixedNumber? 2 0 60 (← expect? ':' text)
  return skipFraction text

def offset? : List Char → Option (List Char)
  | c :: rest =>
    if c = 'Z' ∨ c = 'z' then some rest
    else if c = '+' ∨ c = '-' then do
      let (_, text) ← fixedNumber? 2 0 23 rest
      let (_, text) ← fixedNumber? 2 0 59 (← expect? ':' text)
      return text
    else none
  | [] => none

/-- The time behind a date, if there is one, with its offset. -/
def skipDayTime (text : List Char) : List Char :=
  match text with
  | c :: rest =>
    if c = 'T' ∨ c = 't' ∨ c = ' ' then
      match time? rest with
      | some behind => (offset? behind).getD behind
      | none => text
    else text
  | [] => []

def moment? (text : List Char) : Option (List Char) :=
  match date? text with
  | some behind => some (skipDayTime behind)
  | none => time? text

end KeyRelay.Toml
