import MonthlyForecast.Proofs.Calendar.Months

/-! Months at a distance. A month at a distance from a date is a first day with the month index
moved by the distance, so distances add up as long as the dates on the way exist, two dates that
are moved alike keep their order, and the months between them move with them. -/
namespace MonthlyForecast.Date

variable {date other start stop start' stop' : Date} {distance : Int}

theorem addMonths?_eq_some_iff : date.addMonths? distance = some other ↔
    other.day = 1 ∧ other.monthIndex = date.monthIndex + distance :=
  ofMonthIndex?_eq_some_iff

theorem addMonths?_startOfMonth (moved : date.addMonths? distance = some other) :
    date.startOfMonth.addMonths? distance = some other.startOfMonth := by
  obtain ⟨_, index⟩ := addMonths?_eq_some_iff.mp moved
  exact addMonths?_eq_some_iff.mpr ⟨rfl, index⟩

/-- From a month at a distance a further one is reached as from the date itself. -/
theorem addMonths?_add (moved : date.addMonths? distance = some other) (further : Int) :
    other.addMonths? further = date.addMonths? (distance + further) := by
  obtain ⟨_, index⟩ := addMonths?_eq_some_iff.mp moved
  rw [addMonths?, addMonths?, index, Int.add_assoc]

/-- Dates that are moved alike keep their order. -/
theorem monthBefore_shift_iff (moved : start.addMonths? distance = some start')
    (movedStop : stop.addMonths? distance = some stop') :
    stop'.MonthBefore start' ↔ stop.MonthBefore start := by
  obtain ⟨_, index⟩ := addMonths?_eq_some_iff.mp moved
  obtain ⟨_, stopIndex⟩ := addMonths?_eq_some_iff.mp movedStop
  rw [← monthIndex_lt_iff, ← monthIndex_lt_iff]
  omega

/-- The months between two dates move with the dates. -/
theorem monthsThrough_shift (moved : start.addMonths? distance = some start')
    (movedStop : stop.addMonths? distance = some stop') :
    List.Forall₂ (fun month other => month.addMonths? distance = some other)
      (start.monthsThrough stop) (start'.monthsThrough stop') := by
  obtain ⟨_, index⟩ := addMonths?_eq_some_iff.mp moved
  obtain ⟨_, stopIndex⟩ := addMonths?_eq_some_iff.mp movedStop
  have months := forall₂_monthsThrough start stop
  have others := forall₂_monthsThrough start' stop'
  have count : monthsTo start' stop' = monthsTo start stop := by
    unfold monthsTo
    omega
  -- Both lists go through the same offsets.
  rw [count] at others
  generalize List.range (monthsTo start stop + 1).toNat = offsets at months others
  generalize start.monthsThrough stop = firsts at months
  generalize start'.monthsThrough stop' = seconds at others
  induction months generalizing seconds with
  | nil =>
    cases others
    exact .nil
  | cons one _ ih =>
    cases others with
    | cons other rest =>
      have here := one.2
      have there := other.2
      exact .cons (addMonths?_eq_some_iff.mpr ⟨other.1, by omega⟩) (ih _ rest)

end MonthlyForecast.Date
