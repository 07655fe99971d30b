import Mathlib.Logic.Function.Iterate
import MonthlyForecast.Proofs.Calendar.Shift

/-! Distances between months, counted one month at a time. The months of a calendar without
first or last year follow each other in both directions, and the month at a distance is the one
to which so many single steps lead. Adding months to a date is this count, with no result where
the supported years end. So distances add up, the months between two dates lead from the one to
the other, and 32 bits hold every number on the way. -/
namespace MonthlyForecast

/-- A month of a calendar without first or last year. -/
structure CalendarMonth where
  year : Int
  month : Nat
  month_exists : 1 ≤ month ∧ month ≤ 12
deriving DecidableEq

namespace CalendarMonth

/-- December is followed by January of the next year. -/
def next (current : CalendarMonth) : CalendarMonth :=
  if inside : current.month < 12 then ⟨current.year, current.month + 1, by omega⟩
  else ⟨current.year + 1, 1, by decide⟩

/-- January follows December of the year before. -/
def previous (current : CalendarMonth) : CalendarMonth :=
  if inside : 1 < current.month then
    ⟨current.year, current.month - 1, by have := current.month_exists; omega⟩
  else ⟨current.year - 1, 12, by decide⟩

/-- The month so many steps later, or earlier if the distance is negative. -/
def after (start : CalendarMonth) : Int → CalendarMonth
  | .ofNat count => next^[count] start
  | .negSucc count => previous^[count + 1] start

/-- The first day of the month, if its year is supported. -/
def firstDay? (current : CalendarMonth) : Option Date :=
  Date.ofParts? current.year current.month 1

/-- Months since January of year 0. -/
def index (current : CalendarMonth) : Int :=
  current.year * 12 + (current.month - 1 : Nat)

variable {first second : CalendarMonth}

theorem eq_of_index (same : first.index = second.index) : first = second := by
  obtain ⟨year, month, inside⟩ := first
  obtain ⟨year', month', inside'⟩ := second
  simp only [index] at same
  obtain ⟨rfl, rfl⟩ : year = year' ∧ month = month' := by omega
  rfl

theorem index_next (current : CalendarMonth) : current.next.index = current.index + 1 := by
  have := current.month_exists
  unfold next index
  split <;> simp only <;> omega

theorem index_previous (current : CalendarMonth) :
    current.previous.index = current.index - 1 := by
  have := current.month_exists
  unfold previous index
  split <;> simp only <;> omega

theorem index_iterate_next (start : CalendarMonth) (count : Nat) :
    (next^[count] start).index = start.index + count := by
  induction count with
  | zero => simp
  | succ count ih =>
    rw [Function.iterate_succ_apply', index_next, ih]
    omega

theorem index_iterate_previous (start : CalendarMonth) (count : Nat) :
    (previous^[count] start).index = start.index - count := by
  induction count with
  | zero => simp
  | succ count ih =>
    rw [Function.iterate_succ_apply', index_previous, ih]
    omega

/-- Steps count indices. -/
theorem index_after (start : CalendarMonth) (distance : Int) :
    (start.after distance).index = start.index + distance := by
  cases distance with
  | ofNat count => exact index_iterate_next start count
  | negSucc count =>
    rw [after, index_iterate_previous]
    omega

end CalendarMonth

/-- The numbers of 32 bits with a sign. -/
def FitsInt32 (number : Int) : Prop :=
  Int32.minValue.toInt ≤ number ∧ number ≤ Int32.maxValue.toInt

namespace Date

def calendarMonth (date : Date) : CalendarMonth where
  year := date.year
  month := date.month
  month_exists :=
    let ⟨_, _, low, high, _⟩ := date.day_exists
    ⟨low, high⟩

/-- The first day of the month `count` steps later. -/
def later? (date : Date) (count : UInt32) : Option Date :=
  (CalendarMonth.next^[count.toNat] date.calendarMonth).firstDay?

/-- The first day of the month `count` steps earlier. -/
def earlier? (date : Date) (count : UInt32) : Option Date :=
  (CalendarMonth.previous^[count.toNat] date.calendarMonth).firstDay?

/-- A distance of 32 bits taken as a direction and a size. The size has no sign, so that the
least distance has one as well. -/
def shift? (date : Date) (distance : Int32) : Option Date :=
  let size := UInt32.ofNat distance.toInt.natAbs
  if 0 ≤ distance then date.startOfMonth.later? size else date.startOfMonth.earlier? size

variable {date other moved : Date} {month : CalendarMonth} {distance : Int}

theorem index_calendarMonth (date : Date) : date.calendarMonth.index = date.monthIndex := rfl

theorem calendarMonth_eq_iff :
    date.calendarMonth = month ↔ date.year = month.year ∧ date.month = month.month := by
  constructor
  · rintro rfl
    exact ⟨rfl, rfl⟩
  · rintro ⟨years, months⟩
    apply CalendarMonth.eq_of_index
    rw [CalendarMonth.index, CalendarMonth.index, ← years, ← months]
    rfl

theorem firstDay?_eq_some_iff :
    month.firstDay? = some date ↔ date.day = 1 ∧ date.calendarMonth = month := by
  rw [CalendarMonth.firstDay?, ofParts?_eq_some_iff, calendarMonth_eq_iff]
  tauto

theorem exists_firstDay?_iff :
    (∃ first, month.firstDay? = some first) ↔ DayExists month.year month.month 1 := by
  unfold CalendarMonth.firstDay? ofParts?
  split <;> simp [*]

theorem firstDay?_eq_none_iff :
    month.firstDay? = none ↔ ¬ DayExists month.year month.month 1 := by
  rw [← exists_firstDay?_iff, ← Option.isSome_iff_exists, Option.not_isSome_iff_eq_none]

/-- The days of a month are those with its first day. -/
theorem startOfMonth_eq_iff {first : Date} (found : month.firstDay? = some first) :
    date.startOfMonth = first ↔ date.calendarMonth = month := by
  obtain ⟨firstDay, rfl⟩ := firstDay?_eq_some_iff.mp found
  constructor
  · rintro rfl
    rfl
  · intro same
    exact eq_of_monthIndex rfl firstDay (congrArg CalendarMonth.index same)

/-- Adding months is counting steps, for all months that have a first day. -/
theorem addMonths?_eq_firstDay? (date : Date) (distance : Int) :
    date.addMonths? distance = (date.calendarMonth.after distance).firstDay? := by
  apply Option.ext
  intro moved
  rw [addMonths?_eq_some_iff, firstDay?_eq_some_iff]
  apply and_congr_right
  intro _
  rw [← index_calendarMonth, ← index_calendarMonth, ← CalendarMonth.index_after]
  exact ⟨CalendarMonth.eq_of_index, congrArg _⟩

theorem exists_addMonths?_iff :
    (∃ moved, date.addMonths? distance = some moved) ↔
      DayExists (date.calendarMonth.after distance).year
        (date.calendarMonth.after distance).month 1 := by
  rw [addMonths?_eq_firstDay?, exists_firstDay?_iff]

theorem shift?_eq_addMonths? (date : Date) (distance : Int32) :
    date.shift? distance = date.addMonths? distance.toInt := by
  have low : -2 ^ 31 ≤ distance.toInt := distance.le_toInt
  have high : distance.toInt < 2 ^ 31 := distance.toInt_lt
  have size : (UInt32.ofNat distance.toInt.natAbs).toNat = distance.toInt.natAbs :=
    UInt32.toNat_ofNat_of_lt' (by rw [UInt32.size]; omega)
  have start : date.startOfMonth.calendarMonth = date.calendarMonth := rfl
  rw [addMonths?_eq_firstDay?, shift?]
  simp only [Int32.le_iff_toInt_le, Int32.toInt_zero, later?, earlier?, size, start]
  generalize distance.toInt = number
  cases number with
  | ofNat count => simp [CalendarMonth.after]
  | negSucc count => simp [CalendarMonth.after]

theorem monthsTo_eq (start stop : Date) :
    monthsTo start stop = (stop.year - start.year) * 12 + ((stop.month : Int) - start.month) := by
  obtain ⟨_, _, _, _, _, _⟩ := start.day_exists
  obtain ⟨_, _, _, _, _, _⟩ := stop.day_exists
  unfold monthsTo monthIndex
  omega

theorem monthsTo_of_addMonths? (found : date.addMonths? distance = some moved) :
    monthsTo date moved = distance := by
  obtain ⟨_, index⟩ := addMonths?_eq_some_iff.mp found
  unfold monthsTo
  omega

theorem addMonths?_monthsTo (start stop : Date) :
    start.addMonths? (monthsTo start stop) = some stop.startOfMonth := by
  rw [addMonths?_eq_some_iff, monthIndex_startOfMonth, monthsTo]
  exact ⟨rfl, by omega⟩

/-- Counting the months between two dates never leaves the numbers of 32 bits. -/
theorem monthsTo_fits (start stop : Date) :
    FitsInt32 (stop.year - start.year) ∧ FitsInt32 ((stop.year - start.year) * 12) ∧
      FitsInt32 ((stop.month : Int) - start.month) ∧ FitsInt32 (monthsTo start stop) := by
  obtain ⟨_, _, _, _, _, _⟩ := start.day_exists
  obtain ⟨_, _, _, _, _, _⟩ := stop.day_exists
  rw [monthsTo_eq]
  unfold FitsInt32 firstYear lastYear at *
  rw [Int32.toInt_minValue, Int32.toInt_maxValue]
  omega

/-- Whole numbers move the months as far as the calendar goes. A distance leads where single
steps lead, if that month has a first day, and is found again between the two dates; distances
add up; and 32 bits hold the distances and all that is counted for them. -/
theorem addMonths_exact (date other : Date) (distance further : Int) :
    (∀ moved, date.addMonths? distance = some moved ↔
        moved.day = 1 ∧ moved.calendarMonth = date.calendarMonth.after distance) ∧
      ((∃ moved, date.addMonths? distance = some moved) ↔
        DayExists (date.calendarMonth.after distance).year
          (date.calendarMonth.after distance).month 1) ∧
      (∀ moved, date.addMonths? distance = some moved →
        monthsTo date moved = distance ∧
          moved.addMonths? further = date.addMonths? (distance + further)) ∧
      date.addMonths? (monthsTo date other) = some other.startOfMonth ∧
      (∀ distance32, date.shift? distance32 = date.addMonths? distance32.toInt) ∧
      monthsTo date other =
        (other.year - date.year) * 12 + ((other.month : Int) - date.month) ∧
      FitsInt32 (other.year - date.year) ∧ FitsInt32 ((other.year - date.year) * 12) ∧
      FitsInt32 ((other.month : Int) - date.month) ∧ FitsInt32 (monthsTo date other) := by
  refine ⟨?_, exists_addMonths?_iff, ?_, addMonths?_monthsTo date other,
    shift?_eq_addMonths? date, monthsTo_eq date other, monthsTo_fits date other⟩
  · intro moved
    rw [addMonths?_eq_firstDay?, firstDay?_eq_some_iff]
  · intro moved found
    exact ⟨monthsTo_of_addMonths? found, addMonths?_add found further⟩

end Date
end MonthlyForecast
