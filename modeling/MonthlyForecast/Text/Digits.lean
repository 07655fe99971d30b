/-! Decimal digits in text: the value of a run of ASCII digits, and the digits of
a number with an optional least width. -/
namespace MonthlyForecast.Text

/-- The value of one ASCII digit. -/
def digitValue (c : Char) : Nat :=
  c.toNat - 48

/-- The number that a run of ASCII digits denotes; zero for no digits. -/
def digitsValue (digits : List Char) : Nat :=
  digits.foldl (fun value c => 10 * value + digitValue c) 0

/-- The decimal digits of a number, without leading zeros. -/
def decimalDigits (value : Nat) : List Char :=
  Nat.toDigits 10 value

/-- The decimal digits of a number, filled with leading zeros up to a width. -/
def paddedDigits (width value : Nat) : List Char :=
  List.replicate (width - (decimalDigits value).length) '0' ++ decimalDigits value

theorem le_length_paddedDigits (width value : Nat) :
    width ≤ (paddedDigits width value).length := by
  simp only [paddedDigits, List.length_append, List.length_replicate]
  omega

/-- Takes between one and `most` digits from the front of a text. -/
def takeNumber (most : Nat) (text : List Char) : Option (Nat × List Char) :=
  match (text.take most).takeWhile Char.isDigit with
  | [] => none
  | run => some (digitsValue run, text.drop run.length)

end MonthlyForecast.Text
