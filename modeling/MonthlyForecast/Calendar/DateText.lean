import MonthlyForecast.Calendar.Date
import MonthlyForecast.Text.Blank
import MonthlyForecast.Text.Digits

/-! The written form of dates and timestamps. A date is written `YYYY-MM-DD`; a
year outside 0 to 9999 carries a sign and at least four digits. Reading is more
tolerant: blanks may stand around every part, leading zeros may be left out, and
a signed year may have any number of digits. A timestamp is a date, a `T`, a time
of day to the second, and a `Z`; only that form is read. -/
namespace MonthlyForecast

open Text

/-- The year of a written date: four digits, or a sign and at least four. -/
def yearText (year : Int) : List Char :=
  if 0 ≤ year ∧ year ≤ 9999 then paddedDigits 4 year.toNat
  else (if year < 0 then '-' else '+') :: paddedDigits 4 year.natAbs

/-- A year at the front of a text. A sign stands directly before the digits and
lifts the limit of four. -/
def readYear (text : List Char) : Option (Int × List Char) :=
  match text with
  | '-' :: rest => (takeNumber rest.length rest).map fun (value, rest) => (-(value : Int), rest)
  | '+' :: rest => (takeNumber rest.length rest).map fun (value, rest) => ((value : Int), rest)
  | _ => (takeNumber 4 text).map fun (value, rest) => ((value : Int), rest)

/-- A hyphen with blanks around it, then a number of one or two digits. -/
def readHyphenNumber (text : List Char) : Option (Nat × List Char) :=
  match skipBlank text with
  | '-' :: rest => takeNumber 2 (skipBlank rest)
  | _ => none

namespace Date

def ofText? (text : String) : Option Date := do
  let (year, rest) ← readYear (skipBlank text.toList)
  let (month, rest) ← readHyphenNumber rest
  let (day, rest) ← readHyphenNumber rest
  if (skipBlank rest).isEmpty then ofParts? year month day else none

def chars (date : Date) : List Char :=
  yearText date.year ++ '-' :: paddedDigits 2 date.month ++ '-' :: paddedDigits 2 date.day

def toText (date : Date) : String :=
  String.ofList date.chars

/-- The month of a date as `YYYY-MM`. -/
def monthText (date : Date) : String :=
  String.ofList (yearText date.year ++ '-' :: paddedDigits 2 date.month)

end Date

/-- A moment of coordinated universal time, to the second. -/
structure Timestamp where
  date : Date
  hour : Nat
  minute : Nat
  second : Nat
deriving DecidableEq

namespace Timestamp

/-- Exactly two digits. -/
def twoDigits (first second : Char) : Option Nat :=
  if first.isDigit && second.isDigit then some (digitsValue [first, second]) else none

/-- Reads the one form `YYYY-MM-DDTHH:MM:SSZ`; the second may be a leap second. -/
def ofText? (text : String) : Option Timestamp :=
  match text.toList with
  | [y₁, y₂, y₃, y₄, '-', o₁, o₂, '-', d₁, d₂, 'T', h₁, h₂, ':', m₁, m₂, ':', s₁, s₂, 'Z'] => do
    let century ← twoDigits y₁ y₂
    let year ← twoDigits y₃ y₄
    let date ← Date.ofParts? (100 * century + year : Nat) (← twoDigits o₁ o₂) (← twoDigits d₁ d₂)
    let hour ← twoDigits h₁ h₂
    let minute ← twoDigits m₁ m₂
    let second ← twoDigits s₁ s₂
    if hour ≤ 23 ∧ minute ≤ 59 ∧ second ≤ 60 then some ⟨date, hour, minute, second⟩ else none
  | _ => none

def toText (moment : Timestamp) : String :=
  String.ofList (moment.date.chars ++ 'T' :: paddedDigits 2 moment.hour ++
    ':' :: paddedDigits 2 moment.minute ++ ':' :: paddedDigits 2 moment.second ++ ['Z'])

end Timestamp
end MonthlyForecast
