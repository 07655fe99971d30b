/-! Membership in a table of closed ranges of code points. -/
namespace MonthlyForecast.Text

def inRanges (ranges : List (Nat × Nat)) (c : Char) : Bool :=
  ranges.any fun (low, high) => low ≤ c.toNat && c.toNat ≤ high

end MonthlyForecast.Text
