import MonthlyForecast.Decimal.Magnitude

/-! The shortest decimal of a double: the fewest digits that lie among the reals
whose nearest double it is, and of two such decimals the nearer, a tie going to the
even digit. Seventeen digits suffice for every double; that fact is not relied on,
since the search falls back to the exact value. -/
namespace MonthlyForecast.Decimal

/-- The least `k` with `m < 10 ^ k`. The binary logarithm gives a lower bound that
is at most three too small. -/
def Magnitude.decimalSize (m : Magnitude) : Int :=
  let bound := ((m.significand.log2 + m.exponent) * 30103).fdiv 100000
  let fits (k : Int) := compareScaled 1 k m.significand m.exponent == .gt
  if fits bound then bound
  else if fits (bound + 1) then bound + 1
  else if fits (bound + 2) then bound + 2
  else bound + 3

/-- The value in units of `10 ^ exponent`, rounded down. -/
def Magnitude.unitsBelow (m : Magnitude) (exponent : Int) : Nat :=
  (m.significand * Nat.pow 2 m.exponent.toNat * Nat.pow 10 (-exponent).toNat) /
    (Nat.pow 2 (-m.exponent).toNat * Nat.pow 10 exponent.toNat)

/-- The nearer of two adjacent decimals on one grid; on a tie the even one. -/
def Magnitude.nearer (m : Magnitude) (below : Nat) (exponent : Int) : Nat :=
  match compareScaled (2 * below + 1) exponent (2 * m.significand) m.exponent with
  | .lt => below + 1
  | .gt => below
  | .eq => if below % 2 = 0 then below else below + 1

/-- The decimal on the grid `10 ^ exponent` that identifies the double, if one of
the two around it does. -/
def Magnitude.onGrid? (m : Magnitude) (exponent : Int) : Option Scaled :=
  let below := m.unitsBelow exponent
  match m.roundsFrom ⟨below, exponent⟩, m.roundsFrom ⟨below + 1, exponent⟩ with
  | true, true => some ⟨m.nearer below exponent, exponent⟩
  | true, false => some ⟨below, exponent⟩
  | false, true => some ⟨below + 1, exponent⟩
  | false, false => none

/-- The exact value as a decimal. -/
def Magnitude.exact (m : Magnitude) : Scaled :=
  ⟨m.significand * Nat.pow 2 m.exponent.toNat * Nat.pow 5 (-m.exponent).toNat, min m.exponent 0⟩

/-- Moves trailing zeros of the digits into the exponent, at most `fuel` of them. -/
def Scaled.stripZeros : Nat → Scaled → Scaled
  | 0, d => d
  | fuel + 1, d =>
    if d.digits ≠ 0 ∧ d.digits % 10 = 0 then stripZeros fuel ⟨d.digits / 10, d.exponent + 1⟩ else d

def Magnitude.shortest (m : Magnitude) : Scaled :=
  if m.significand = 0 then ⟨0, 0⟩
  else
    let size := m.decimalSize
    let found := (List.range 17).findSome? fun (more : Nat) => m.onGrid? (size - 1 - more)
    (found.getD m.exact).stripZeros 17

end MonthlyForecast.Decimal
