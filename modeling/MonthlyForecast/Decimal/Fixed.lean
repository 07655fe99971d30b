import MonthlyForecast.Decimal.Magnitude
import MonthlyForecast.Decimal.Rounding
import MonthlyForecast.Text.Digits

/-! A double with a fixed number of places: its exact value, rounded to that many
places with ties to even, never with an exponent. The sign is kept, also when the
rounded value is zero. -/
namespace MonthlyForecast.Decimal

/-- The magnitude in units of the last place. -/
def Magnitude.roundToPlaces (m : Magnitude) (places : Nat) : Nat :=
  roundDiv (m.significand * Nat.pow 2 m.exponent.toNat * Nat.pow 10 places)
    (Nat.pow 2 (-m.exponent).toNat)

/-- Sets the decimal point before the last `places` digits. -/
def pointed (places units : Nat) : List Char :=
  let digits := Text.paddedDigits (places + 1) units
  digits.take (digits.length - places) ++ '.' :: digits.drop (digits.length - places)

def fixed (places : Nat) (x : Float) : String :=
  if x.isNaN then "NaN"
  else
    let sign := if isNegative x then ['-'] else []
    let body := if x.isFinite then pointed places ((magnitude x).roundToPlaces places)
      else ['i', 'n', 'f']
    String.ofList (sign ++ body)

end MonthlyForecast.Decimal
