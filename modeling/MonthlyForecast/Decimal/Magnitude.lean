/-! The exact value of a finite double, and exact comparison of decimals with it.
A magnitude is `significand * 2 ^ exponent`; a scaled decimal is
`digits * 10 ^ exponent`. Both are compared in natural numbers, without rounding.
NaN and the infinities have no magnitude here: callers set them aside first. -/
namespace MonthlyForecast.Decimal

structure Magnitude where
  significand : Nat
  exponent : Int
  /-- The double below is half as far away as the double above. -/
  narrowBelow : Bool

/-- The magnitude of a finite double, read from its bits. -/
def magnitude (x : Float) : Magnitude :=
  let biased := ((x.toBits >>> 52) &&& 0x7FF).toNat
  let fraction := (x.toBits &&& 0xFFFFFFFFFFFFF).toNat
  if biased = 0 then ⟨fraction, -1074, false⟩
  else ⟨Nat.pow 2 52 + fraction, (biased : Int) - 1075, fraction == 0 && biased > 1⟩

/-- The sign bit is set; true of negative zero. -/
def isNegative (x : Float) : Bool :=
  x.toBits >>> 63 == 1

structure Scaled where
  digits : Nat
  exponent : Int
deriving DecidableEq

/-- Compares `a * 10 ^ i` with `n * 2 ^ j`. -/
def compareScaled (a : Nat) (i : Int) (n : Nat) (j : Int) : Ordering :=
  compare (a * Nat.pow 10 i.toNat * Nat.pow 2 (-j).toNat)
    (n * Nat.pow 2 j.toNat * Nat.pow 10 (-i).toNat)

/-- The decimal lies among the reals whose nearest double is this one: between the
midpoints to its neighbours, which belong to it if its significand is even. -/
def Magnitude.roundsFrom (m : Magnitude) (d : Scaled) : Bool :=
  let low := if m.narrowBelow then 4 * m.significand - 1 else 4 * m.significand - 2
  let high := 4 * m.significand + 2
  let closed := m.significand % 2 == 0
  let atLow := compareScaled d.digits d.exponent low (m.exponent - 2)
  let atHigh := compareScaled d.digits d.exponent high (m.exponent - 2)
  (atLow == .gt || (closed && atLow == .eq)) && (atHigh == .lt || (closed && atHigh == .eq))

end MonthlyForecast.Decimal
