import MonthlyForecast.Json.NumberFormat

/-! Numbers read by way of a significand of 64 bits, the format of documents unless another
one is given. The significand takes in digits for as long as they fit. It is turned into a
double, and that is multiplied or divided by a power of ten. Each of these steps rounds, so
the double that is read is not always the nearest one. -/
namespace MonthlyForecast.Json

open Decimal

/-- A significand behind which digits were taken in as long as they fit, and how many did
not. -/
def takeIn (significand : Nat) : List Char → Nat × Nat
  | [] => (significand, 0)
  | digit :: digits =>
    let longer := 10 * significand + Text.digitValue digit
    if longer < Nat.pow 2 64 then takeIn longer digits else (significand, digits.length + 1)

/-- The largest power of ten by which a double is multiplied or divided at once. -/
def largestPower : Nat := 308

def tenTo (exponent : Nat) : Float :=
  Scaled.toFloat ⟨1, exponent⟩

/-- A significand in units of a power of ten. Two divisions take every significand to zero. -/
def scale (significand : Nat) (exponent : Int) : Float :=
  let x := Scaled.toFloat ⟨significand, 0⟩
  if 0 ≤ exponent then
    if exponent ≤ largestPower then x * tenTo exponent.toNat
    else if significand = 0 then x
    else infinity
  else
    let places := exponent.natAbs
    if places ≤ largestPower then x / tenTo places
    else if places ≤ 2 * largestPower then x / tenTo largestPower / tenTo (places - largestPower)
    else 0

namespace Numeral

/-- The digits before the point are taken in first. One that does not fit is counted in the
exponent, and the digits behind the point are tried all the same. -/
def viaSignificand (n : Numeral) : Float :=
  let run := Text.decimalDigits n.digits
  let (whole, skipped) := takeIn 0 (run.take (run.length - n.places))
  let (significand, dropped) := takeIn whole (run.drop (run.length - n.places))
  let x := scale significand (n.exponent + skipped + dropped)
  if n.negative then -x else x

end Numeral

instance NumberFormat.significand : NumberFormat where
  write := Numeral.ofFloat
  read := Numeral.viaSignificand

end MonthlyForecast.Json
