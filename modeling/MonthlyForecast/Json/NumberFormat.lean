import MonthlyForecast.Decimal.Nearest
import MonthlyForecast.Json.Numeral

/-! How doubles stand in a JSON text. A number format writes doubles as numerals and reads
numerals as doubles. Documents leave the format open; what they need of it is that it reads a
double back from what it writes for it. -/
namespace MonthlyForecast.Json

class NumberFormat where
  /-- The numeral that is written for a finite double. -/
  write : Float → Numeral
  /-- The double that a numeral is read as; not finite if the number is out of range. -/
  read : Numeral → Float

namespace NumberFormat

variable [NumberFormat]

def print (x : Float) : List Char :=
  (write x).render

/-- The double in a text that is one number. -/
def parse? (text : List Char) : Option Float :=
  match Numeral.read text with
  | some (numeral, []) => some (read numeral)
  | _ => none

/-- A finite double that is printed and read back is the same double. -/
def RoundTrips : Prop :=
  ∀ x : Float, x.isFinite = true → parse? (print x) = some x

end NumberFormat

/-- Doubles are written with their shortest digits, and the nearest double is read. -/
@[reducible] def NumberFormat.nearest : NumberFormat where
  write := Numeral.ofFloat
  read n := (n.scaled.toFloat? n.negative).getD Decimal.infinity

namespace Numeral

variable [NumberFormat]

/-- The double that is read, unless the number is out of range. -/
def toFloat? (n : Numeral) : Option Float :=
  let x := NumberFormat.read n
  if x.isFinite then some x else none

/-- A whole number that fits a word of 64 bits is taken in as it is, and any other number as
a double. -/
def isDenotable (n : Numeral) : Bool :=
  (n.integral && n.digits < Nat.pow 2 64) || n.toFloat?.isSome

end Numeral
end MonthlyForecast.Json
