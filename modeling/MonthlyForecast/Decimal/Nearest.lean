import MonthlyForecast.Decimal.Magnitude
import MonthlyForecast.Decimal.Rounding

/-! The double nearest to a decimal, found in natural numbers. The bits of a double
without its sign number the doubles from zero upwards. They come in blocks of `2 ^ 52`
with one spacing each: the smallest spacing in the first two blocks, and from then on
twice that of the block before. A significand that is rounded up to the end of its
block is the first one of the next, so a carry needs no case of its own. -/
namespace MonthlyForecast.Decimal

/-- The bits of infinity; the bits of finite doubles without sign are smaller. -/
def infinityBits : Nat := 0x7FF0000000000000

def infinity : Float := Float.ofBits infinityBits.toUInt64

def signBit : Nat := Nat.pow 2 63

/-- The bits of the double nearest to a quotient, a tie going to the even one. For a
quotient too large for a double they are not smaller than `infinityBits`. -/
def nearestToQuotient (numerator denominator : Nat) : Nat :=
  let units := numerator * Nat.pow 2 1074
  let doublings := (units / denominator).log2 - 52
  doublings * Nat.pow 2 52 + roundDiv units (denominator * Nat.pow 2 doublings)

/-- A number from this power of ten on is infinite as a double, and one below its
inverse is zero. -/
def decadeLimit : Int := 400

namespace Scaled

/-- The bits of the double nearest to a decimal. The powers of numbers far outside the
range of doubles are not computed. -/
def nearestBits (d : Scaled) : Nat :=
  if d.digits = 0 ∨ d.exponent + d.digits.log2 < -decadeLimit then 0
  else if decadeLimit < d.exponent then infinityBits
  else nearestToQuotient (d.digits * Nat.pow 10 d.exponent.toNat) (Nat.pow 10 (-d.exponent).toNat)

/-- The nearest double with the given sign; none if the decimal is too large for one. -/
def toFloat? (negative : Bool) (d : Scaled) : Option Float :=
  let bits := d.nearestBits
  if bits < infinityBits then
    some (Float.ofBits (if negative then signBit + bits else bits).toUInt64)
  else none

/-- The nearest double, which is infinite if the decimal is too large for a finite one. -/
def toFloat (d : Scaled) : Float :=
  (d.toFloat? false).getD infinity

end Scaled
end MonthlyForecast.Decimal
