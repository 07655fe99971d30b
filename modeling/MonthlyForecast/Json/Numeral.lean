import MonthlyForecast.Decimal.Shortest
import MonthlyForecast.Text.Digits

/-! Numbers of a JSON text. A numeral keeps the decimal that was written and
whether it was written as an integer, because an integer field takes no fraction
and no exponent. Which double a numeral stands for is left to a number format. -/
namespace MonthlyForecast.Json

open Text

/-- The number `digits * 10 ^ exponent`, with its sign kept apart so that negative
zero is a number of its own. -/
structure Numeral where
  negative : Bool
  digits : Nat
  exponent : Int
  /-- How many digits were written behind a point. -/
  places : Nat
  /-- Written with neither fraction nor exponent. -/
  integral : Bool
deriving DecidableEq

namespace Numeral

def ofInt (value : Int) : Numeral :=
  ⟨value < 0, value.natAbs, 0, 0, true⟩

/-- The shortest numeral of a finite double. -/
def ofFloat (x : Float) : Numeral :=
  let shortest := (Decimal.magnitude x).shortest
  ⟨Decimal.isNegative x, shortest.digits, shortest.exponent, 0, false⟩

/-- The integer that was written, if it was written as one. Negative zero is no integer. -/
def toInt? (n : Numeral) : Option Int :=
  if !n.integral || (n.negative && n.digits == 0) then none
  else some (if n.negative then -(n.digits : Int) else n.digits)

theorem toInt?_ofInt (value : Int) : (ofInt value).toInt? = some value := by
  have nonzero : (decide (value < 0) && value.natAbs == 0) = false := by
    simp only [Bool.and_eq_false_iff, decide_eq_false_iff_not, beq_eq_false_iff_ne]
    omega
  simp only [toInt?, ofInt, nonzero, decide_eq_true_eq, Bool.not_true, Bool.or_self,
    Bool.false_eq_true, if_false, Option.some.injEq]
  omega

/-- The decimal that was written, without its sign. -/
def scaled (n : Numeral) : Decimal.Scaled :=
  ⟨n.digits, n.exponent⟩

/-- Splits a run of digits from the front. -/
def spanDigits (text : List Char) : List Char × List Char :=
  (text.takeWhile Char.isDigit, text.dropWhile Char.isDigit)

/-- The digits before the point: a single zero, or no leading zero. -/
def readWhole (text : List Char) : Option (List Char × List Char) :=
  match spanDigits text with
  | ([], _) => none
  | (['0'], rest) => some (['0'], rest)
  | ('0' :: _, _) => none
  | (run, rest) => some (run, rest)

/-- The digits after the point; absent if there is no point. -/
def readFraction (text : List Char) : Option (Option (List Char) × List Char) :=
  match text with
  | '.' :: rest =>
    match spanDigits rest with
    | ([], _) => none
    | (run, rest) => some (some run, rest)
  | _ => some (none, text)

/-- A signed run of digits. -/
def readSigned (text : List Char) : Option (Int × List Char) :=
  let (negative, body) := match text with
    | '-' :: rest => (true, rest)
    | '+' :: rest => (false, rest)
    | _ => (false, text)
  match spanDigits body with
  | ([], _) => none
  | (run, rest) => some (if negative then -(digitsValue run : Int) else digitsValue run, rest)

/-- The exponent; absent if there is no mark. -/
def readExponent (text : List Char) : Option (Option Int × List Char) :=
  match text with
  | 'e' :: rest => (readSigned rest).map fun (value, rest) => (some value, rest)
  | 'E' :: rest => (readSigned rest).map fun (value, rest) => (some value, rest)
  | _ => some (none, text)

def read (text : List Char) : Option (Numeral × List Char) := do
  let (negative, body) := match text with
    | '-' :: rest => (true, rest)
    | _ => (false, text)
  let (whole, rest) ← readWhole body
  let (fraction, rest) ← readFraction rest
  let (exponent, rest) ← readExponent rest
  let places := fraction.getD []
  some (⟨negative, digitsValue (whole ++ places), exponent.getD 0 - places.length,
    places.length, fraction.isNone && exponent.isNone⟩, rest)

/-- Numbers whose leading digit has a decimal exponent from here on are written
without an exponent, up to `plainBelow`. -/
def plainFrom : Int := -5

def plainBelow : Int := 16

/-- Lays out digits whose first one has the decimal exponent `lead`: positionally
with at least one place, or with a signed exponent and no superfluous point. -/
def layout (run : List Char) (lead : Int) : List Char :=
  if plainFrom ≤ lead ∧ lead < plainBelow then
    if lead < 0 then
      '0' :: '.' :: List.replicate (lead.natAbs - 1) '0' ++ run
    else
      let whole := lead.toNat + 1
      let filled := run ++ List.replicate (whole - run.length) '0'
      filled.take whole ++ '.' :: (if whole < filled.length then filled.drop whole else ['0'])
  else
    let mantissa := match run with
      | first :: second :: rest => first :: '.' :: second :: rest
      | _ => run
    mantissa ++ 'e' :: (if lead < 0 then '-' else '+') :: decimalDigits lead.natAbs

def render (n : Numeral) : List Char :=
  let sign := if n.negative then ['-'] else []
  let run := decimalDigits n.digits
  sign ++ if n.integral then run
    else if n.digits = 0 then ['0', '.', '0']
    else layout run (n.exponent + run.length - 1)

end Numeral
end MonthlyForecast.Json
