import MonthlyForecast.Calendar.DateText
import MonthlyForecast.Decimal.Nearest

/-! Numbers, dates and times of a TOML document. Only their form and range are
checked; nothing here needs their value. Digits may be grouped by single underscores.
An integer fits 128 bits and a float is not too large for a double. Dates exist, and
the seconds of a time may be left out. -/
namespace MonthlyForecast.Toml

open Text

/-- The digits of a run in which single underscores may stand between digits. -/
def joinDigits (isDigit : Char → Bool) : List Char → Option (List Char)
  | [] => none
  | [c] => if isDigit c then some [c] else none
  | c :: '_' :: rest => if isDigit c then (joinDigits isDigit rest).map (c :: ·) else none
  | c :: rest => if isDigit c then (joinDigits isDigit rest).map (c :: ·) else none

/-- Digits without a superfluous leading zero. -/
def wholeDigits (run : List Char) : Option (List Char) :=
  match joinDigits Char.isDigit run with
  | some ('0' :: _ :: _) => none
  | digits => digits

/-- The value of digits in a base up to sixteen. -/
def valueInBase (base : Nat) (run : List Char) : Nat :=
  run.foldl (fun value c =>
    base * value + (if c.isDigit then c.toNat - 48 else c.toLower.toNat - 87)) 0

def isHexDigit (c : Char) : Bool :=
  c.isDigit || ('a' ≤ c && c ≤ 'f') || ('A' ≤ c && c ≤ 'F')

def integerLimit : Nat := Nat.pow 2 128

/-- The run is an integer without a sign in the given base, and fits. -/
def isBased (base : Nat) (isDigit : Char → Bool) (run : List Char) : Bool :=
  match joinDigits isDigit run with
  | some digits => valueInBase base digits < integerLimit
  | none => false

/-- The sign of a number and what follows it. -/
def splitSign : List Char → Bool × List Char
  | '-' :: rest => (true, rest)
  | '+' :: rest => (false, rest)
  | text => (false, text)

/-- An integer. Below zero half of the range fits. -/
def isInteger (text : List Char) : Bool :=
  match text with
  | '0' :: 'x' :: run => isBased 16 isHexDigit run
  | '0' :: 'o' :: run => isBased 8 (fun c => '0' ≤ c && c ≤ '7') run
  | '0' :: 'b' :: run => isBased 2 (fun c => c == '0' || c == '1') run
  | _ =>
    let (negative, run) := splitSign text
    match wholeDigits run with
    | some digits =>
      let value := digitsValue digits
      if negative then value ≤ integerLimit / 2 else value < integerLimit
    | none => false

def isExponentMark (c : Char) : Bool := c == 'e' || c == 'E'

/-- The exponent of a float; zero if there is no mark. -/
def exponent? (text : List Char) : Option Int :=
  match text with
  | [] => some 0
  | _ :: rest =>
    let (negative, run) := splitSign rest
    (joinDigits Char.isDigit run).map fun digits =>
      if negative then -(digitsValue digits : Int) else digitsValue digits

/-- The digits after the point; none of them if there is no point. -/
def fraction? (text : List Char) : Option (List Char) :=
  match text with
  | [] => some []
  | _ :: run => joinDigits Char.isDigit run

/-- A float: a special value, or digits with a fraction, an exponent or both. -/
def isFloat (text : List Char) : Bool :=
  let (_, body) := splitSign text
  if body == ['i', 'n', 'f'] || body == ['n', 'a', 'n'] then true
  else
    let whole := body.takeWhile fun c => c != '.' && !isExponentMark c
    let rest := body.drop whole.length
    let point := rest.takeWhile fun c => !isExponentMark c
    match wholeDigits whole, fraction? point, exponent? (rest.drop point.length) with
    | some whole, some fraction, some exponent =>
      let decimal : Decimal.Scaled :=
        ⟨digitsValue (whole ++ fraction), exponent - fraction.length⟩
      !rest.isEmpty && (decimal.toFloat? false).isSome
    | _, _, _ => false

/-- A full date, `YYYY-MM-DD`. -/
def isDate : List Char → Bool
  | [y₁, y₂, y₃, y₄, '-', m₁, m₂, '-', d₁, d₂] =>
    match Timestamp.twoDigits y₁ y₂, Timestamp.twoDigits y₃ y₄, Timestamp.twoDigits m₁ m₂,
        Timestamp.twoDigits d₁ d₂ with
    | some century, some year, some month, some day =>
      (Date.ofParts? (100 * century + year : Nat) month day).isSome
    | _, _, _, _ => false
  | _ => false

/-- Two digits below a limit. -/
def isBelow (limit : Nat) (first second : Char) : Bool :=
  match Timestamp.twoDigits first second with
  | some value => value < limit
  | none => false

/-- The offset of a time from universal time; absent for a local time. -/
def isZone : List Char → Bool
  | [] => true
  | ['Z'] => true
  | ['z'] => true
  | [sign, h₁, h₂, ':', m₁, m₂] =>
    (sign == '+' || sign == '-') && isBelow 24 h₁ h₂ && isBelow 60 m₁ m₂
  | _ => false

/-- What may follow a time of day that stands alone: nothing. -/
def isNoZone (text : List Char) : Bool := text.isEmpty

/-- A time of day with optional seconds and fraction, and what may follow it. -/
def isTime (isSuffix : List Char → Bool) : List Char → Bool
  | h₁ :: h₂ :: ':' :: m₁ :: m₂ :: rest =>
    isBelow 24 h₁ h₂ && isBelow 60 m₁ m₂ &&
      match rest with
      | ':' :: s₁ :: s₂ :: '.' :: rest =>
        let fraction := rest.takeWhile Char.isDigit
        isBelow 61 s₁ s₂ && !fraction.isEmpty && isSuffix (rest.drop fraction.length)
      | ':' :: s₁ :: s₂ :: rest => isBelow 61 s₁ s₂ && isSuffix rest
      | rest => isSuffix rest
  | _ => false

def isTimeMark (c : Char) : Bool := c == 'T' || c == 't' || c == ' '

/-- A date, a time of day, or both with an optional offset. -/
def isDateTime (text : List Char) : Bool :=
  isDate text || isTime isNoZone text ||
    match text.drop 10 with
    | mark :: time => isDate (text.take 10) && isTimeMark mark && isTime isZone time
    | [] => false

def isScalar (text : List Char) : Bool :=
  isInteger text || isFloat text || isDateTime text

end MonthlyForecast.Toml
