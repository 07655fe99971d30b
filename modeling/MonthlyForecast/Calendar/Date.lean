/-! Days of the proleptic Gregorian calendar and whole-month arithmetic on them.
A forecast works on months: a month is named by its first day, and months are
counted by `Date.monthIndex`, the number of months since January of year 0. Dates
outside the supported years do not exist, so a shift that leaves them has no
result. Nothing is said about weeks or the day within a month. -/
namespace MonthlyForecast

def isLeapYear (year : Int) : Bool :=
  year % 4 == 0 && (year % 100 != 0 || year % 400 == 0)

def daysInMonth (year : Int) (month : Nat) : Nat :=
  match month with
  | 2 => if isLeapYear year then 29 else 28
  | 4 | 6 | 9 | 11 => 30
  | _ => 31

theorem one_le_daysInMonth (year : Int) (month : Nat) : 1 ≤ daysInMonth year month := by
  unfold daysInMonth
  split
  · split <;> decide
  all_goals decide

/-- The first year whose dates are supported. -/
def firstYear : Int := -262143

/-- The last year whose dates are supported. -/
def lastYear : Int := 262142

/-- The day exists in the calendar and its year is supported. -/
def DayExists (year : Int) (month day : Nat) : Prop :=
  firstYear ≤ year ∧ year ≤ lastYear ∧ 1 ≤ month ∧ month ≤ 12 ∧
    1 ≤ day ∧ day ≤ daysInMonth year month

instance (year : Int) (month day : Nat) : Decidable (DayExists year month day) :=
  inferInstanceAs (Decidable (_ ∧ _))

structure Date where
  year : Int
  month : Nat
  day : Nat
  day_exists : DayExists year month day
deriving DecidableEq

namespace Date

def ofParts? (year : Int) (month day : Nat) : Option Date :=
  if h : DayExists year month day then some ⟨year, month, day, h⟩ else none

theorem ofParts?_eq_some_iff {year : Int} {month day : Nat} {date : Date} :
    ofParts? year month day = some date ↔
      date.year = year ∧ date.month = month ∧ date.day = day := by
  unfold ofParts?
  constructor
  · intro found
    split at found
    · cases found
      exact ⟨rfl, rfl, rfl⟩
    · contradiction
  · rintro ⟨rfl, rfl, rfl⟩
    exact dif_pos date.day_exists

/-- Months since January of year 0. -/
def monthIndex (date : Date) : Int :=
  date.year * 12 + (date.month - 1 : Nat)

/-- The first day of the month with the given index, if its year is supported. -/
def ofMonthIndex? (index : Int) : Option Date :=
  ofParts? (index / 12) ((index % 12).toNat + 1) 1

def startOfMonth (date : Date) : Date where
  year := date.year
  month := date.month
  day := 1
  day_exists :=
    let ⟨first, last, low, high, _, _⟩ := date.day_exists
    ⟨first, last, low, high, Nat.le_refl 1, one_le_daysInMonth _ _⟩

@[simp] theorem monthIndex_startOfMonth (date : Date) :
    date.startOfMonth.monthIndex = date.monthIndex := rfl

/-- The first day of the month that lies `offset` months after the date's month. -/
def addMonths? (date : Date) (offset : Int) : Option Date :=
  ofMonthIndex? (date.monthIndex + offset)

/-- Whole months from the month of `start` to the month of `stop`; negative if
`stop` lies in an earlier month. -/
def monthsTo (start stop : Date) : Int :=
  stop.monthIndex - start.monthIndex

/-- The first days of all months from the month of `start` to that of `stop`,
both included; empty if `stop` lies in an earlier month. -/
def monthsThrough (start stop : Date) : List Date :=
  (List.range (monthsTo start stop + 1).toNat).filterMap fun (offset : Nat) =>
    start.addMonths? offset

end Date
end MonthlyForecast
