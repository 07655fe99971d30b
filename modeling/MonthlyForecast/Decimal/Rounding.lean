/-! Rounding of quotients of natural numbers to the nearest, ties to even. -/
namespace MonthlyForecast.Decimal

/-- The quotient rounded to the nearest natural number, a tie to the even one. -/
def roundDiv (numerator denominator : Nat) : Nat :=
  let quotient := numerator / denominator
  match compare (2 * (numerator % denominator)) denominator with
  | .lt => quotient
  | .gt => quotient + 1
  | .eq => if quotient % 2 = 0 then quotient else quotient + 1

end MonthlyForecast.Decimal
