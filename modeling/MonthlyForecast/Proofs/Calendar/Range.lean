import Mathlib.Data.List.Chain
import MonthlyForecast.Proofs.Calendar.Shift

/-! The months of a range in the order of days. Every distance up to the end of the range has a
month, so none is passed over: the list holds the first days between those of the two ends, each
a month after the one before it. -/
namespace MonthlyForecast.Date

/-- The one day comes before the other in the calendar. -/
def Before (first second : Date) : Prop :=
  first.MonthBefore second ∨
    first.year = second.year ∧ first.month = second.month ∧ first.day < second.day

/-- The one day comes before the other or is the same. -/
def UpTo (first second : Date) : Prop :=
  first.Before second ∨ first = second

variable {start stop first second : Date}

theorem before_iff_of_first (firstDay : first.day = 1) (secondDay : second.day = 1) :
    first.Before second ↔ first.monthIndex < second.monthIndex := by
  rw [monthIndex_lt_iff, Before, firstDay, secondDay]
  simp

theorem upTo_iff_of_first (firstDay : first.day = 1) (secondDay : second.day = 1) :
    first.UpTo second ↔ first.monthIndex ≤ second.monthIndex := by
  rw [UpTo, before_iff_of_first firstDay secondDay, Int.le_iff_lt_or_eq]
  apply or_congr_right
  exact ⟨congrArg _, eq_of_monthIndex firstDay secondDay⟩

/-- Each distance within the range leads to the month that stands there. -/
theorem exists_getElem?_monthsThrough {distance : Nat}
    (inside : (distance : Int) ≤ monthsTo start stop) :
    ∃ month, start.startOfMonth.addMonths? distance = some month ∧
      (start.monthsThrough stop)[distance]? = some month := by
  have stands : (List.range (monthsTo start stop + 1).toNat)[distance]? = some distance := by
    rw [List.getElem?_range (by omega)]
  obtain ⟨month, found, firstDay, index⟩ :=
    exists_getElem?_of_forall₂ (forall₂_monthsThrough start stop) stands
  exact ⟨month, addMonths?_eq_some_iff.mpr ⟨firstDay, index⟩, found⟩

theorem monthsThrough_isChain (start stop : Date) :
    (start.monthsThrough stop).IsChain fun month next => month.addMonths? 1 = some next := by
  rw [List.isChain_iff_getElem]
  intro place inside
  rw [length_monthsThrough] at inside
  have low : (place : Int) ≤ monthsTo start stop := by omega
  have high : ((place + 1 : Nat) : Int) ≤ monthsTo start stop := by omega
  obtain ⟨month, found, stands⟩ := exists_getElem?_monthsThrough low
  obtain ⟨next, nextFound, nextStands⟩ := exists_getElem?_monthsThrough high
  obtain ⟨_, rfl⟩ := List.getElem?_eq_some_iff.mp stands
  obtain ⟨_, rfl⟩ := List.getElem?_eq_some_iff.mp nextStands
  rw [addMonths?_add found, ← nextFound]
  rfl

/-- The months of a range are the first days in it, in order and without a gap. -/
theorem monthsThrough_exact (start stop : Date) :
    let months := start.monthsThrough stop
    (∀ date, date ∈ months ↔
        date.day = 1 ∧ start.startOfMonth.UpTo date ∧ date.UpTo stop.startOfMonth) ∧
      months.Pairwise Before ∧
      (months.IsChain fun month next => month.addMonths? 1 = some next) ∧
      (months.length : Int) = max 0 (monthsTo start stop + 1) ∧
      ∀ distance : Nat, distance ≤ monthsTo start stop → ∃ month,
        start.startOfMonth.addMonths? distance = some month ∧ months[distance]? = some month := by
  refine ⟨?_, ?_, monthsThrough_isChain start stop, ?_, ?_⟩
  · intro date
    rw [mem_monthsThrough_iff]
    apply and_congr_right
    intro firstDay
    rw [upTo_iff_of_first rfl firstDay, upTo_iff_of_first firstDay rfl,
      monthIndex_startOfMonth, monthIndex_startOfMonth]
  · exact (monthsThrough_sorted start stop).imp Or.inl
  · rw [length_monthsThrough]
    omega
  · intro distance inside
    exact exists_getElem?_monthsThrough inside

end MonthlyForecast.Date
