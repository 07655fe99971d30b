import MonthlyForecast.Proofs.Calendar.Distance
import MonthlyForecast.Proofs.Evaluation.Series

/-! What is kept of a list of variables. Of the variables with one id the last one counts with
all its points, and of its points in one month the last one: earlier ones do not stand in for it
where it has no number. A month that the calendar does not have gives no value. -/
namespace MonthlyForecast

/-- The item is the last one in the list that is meant. -/
def IsLast {α : Type} (items : List α) (meant : α → Prop) (item : α) : Prop :=
  ∃ before after, items = before ++ item :: after ∧ meant item ∧ ∀ later ∈ after, ¬ meant later

section Recorded

variable {α κ : Type} [BEq κ] [LawfulBEq κ] {items : List α} {key : α → κ} {wanted : κ} {item : α}

theorem find?_reverse_eq_some_iff :
    items.reverse.find? (key · == wanted) = some item ↔ IsLast items (key · = wanted) item := by
  rw [List.find?_eq_some_iff_append, beq_iff_eq]
  constructor
  · rintro ⟨same, after, before, whole, others⟩
    refine ⟨before.reverse, after.reverse, ?_, same, ?_⟩
    · simpa using congrArg List.reverse whole
    · simpa using others
  · rintro ⟨before, after, rfl, same, others⟩
    exact ⟨same, after.reverse, before.reverse, by simp, by simpa using others⟩

theorem find?_reverse_eq_none_iff :
    items.reverse.find? (key · == wanted) = none ↔ ∀ item ∈ items, key item ≠ wanted := by
  simp

end Recorded

theorem bind_eq_none_iff_or {α β : Type} {found : Option α} {next : α → Option β} :
    found.bind next = none ↔ found = none ∨ ∃ item, found = some item ∧ next item = none := by
  cases found <;> simp

namespace SeriesPoint

/-- The number of a point; none if its value is missing or not finite. -/
def number? (point : SeriesPoint) : Option Float :=
  point.value.bind finite?

variable {point : SeriesPoint}

theorem number?_eq_some_iff {number : Float} :
    point.number? = some number ↔ point.value = some number ∧ number.isFinite :=
  bind_finite?_eq_some_iff

theorem number?_eq_none_iff :
    point.number? = none ↔ ∀ number, point.value = some number → ¬ number.isFinite := by
  simp only [Option.eq_none_iff_forall_ne_some, ne_eq, number?_eq_some_iff, not_and]

end SeriesPoint

/-- What a series has for a month is the value of the last point in the month. -/
theorem MonthlySeries.lookup_ofPoints {month : CalendarMonth} {first : Date}
    (found : month.firstDay? = some first) (points : List SeriesPoint) :
    ((MonthlySeries.ofPoints points).lookup first).join =
      (points.reverse.find? (·.date.calendarMonth == month)).bind
        SeriesPoint.number? := by
  have inMonth : ∀ point : SeriesPoint,
      (point.date.startOfMonth == first) = (point.date.calendarMonth == month) := by
    intro point
    rw [Bool.eq_iff_iff, beq_iff_eq, beq_iff_eq, Date.startOfMonth_eq_iff found]
  rw [ofPoints, lookup_recorded, ← Option.bind_id_eq_join, Option.bind_map]
  simp only [inMonth]
  rfl

namespace SeriesTable

theorem value?_ofVariables (entries : List Variable) (id : String) (date : Date) (offset : Int) :
    (ofVariables entries).value? id date offset =
      (date.calendarMonth.after offset).firstDay?.bind fun _ =>
        (entries.reverse.find? (·.id == id)).bind fun entry =>
          (entry.timeSeries.reverse.find?
            (·.date.calendarMonth == date.calendarMonth.after offset)).bind
              SeriesPoint.number? := by
  simp only [value?, Option.bind_eq_bind, Date.addMonths?_eq_firstDay?, ofVariables,
    lookup_recorded, Option.bind_map]
  cases found : (date.calendarMonth.after offset).firstDay? with
  | none => rfl
  | some first =>
    simp only [Option.bind_some, Function.comp_def, MonthlySeries.lookup_ofPoints found]

/-- A variable's value in a month is that of the last point in it, of the last variable with
the id, if the point has a number; nothing else gives a value. -/
theorem value_ofVariables_exact (entries : List Variable) (id : String) (date : Date)
    (offset : Int) :
    let table := ofVariables entries
    let month := date.calendarMonth.after offset
    (table.contains id ↔ ∃ entry ∈ entries, entry.id = id) ∧
      (∀ number, table.value? id date offset = some number ↔
        DayExists month.year month.month 1 ∧ ∃ entry, IsLast entries (·.id = id) entry ∧
          ∃ point, IsLast entry.timeSeries (·.date.calendarMonth = month) point ∧
            point.value = some number ∧ number.isFinite) ∧
      (table.value? id date offset = none ↔
        ¬ DayExists month.year month.month 1 ∨ (∀ entry ∈ entries, entry.id ≠ id) ∨
          ∃ entry, IsLast entries (·.id = id) entry ∧
            ((∀ point ∈ entry.timeSeries, point.date.calendarMonth ≠ month) ∨
              ∃ point, IsLast entry.timeSeries (·.date.calendarMonth = month) point ∧
                ∀ number, point.value = some number → ¬ number.isFinite)) := by
  intro table month
  have value : table.value? id date offset = _ := value?_ofVariables entries id date offset
  refine ⟨contains_ofVariables_iff, ?_, ?_⟩
  · intro number
    rw [value, ← Date.exists_firstDay?_iff]
    simp only [Option.bind_eq_some_iff, exists_and_right, find?_reverse_eq_some_iff,
      SeriesPoint.number?_eq_some_iff]
    rfl
  · rw [value, bind_eq_none_iff_or, exists_and_right, Date.exists_firstDay?_iff,
      Date.firstDay?_eq_none_iff]
    simp only [bind_eq_none_iff_or, find?_reverse_eq_some_iff, find?_reverse_eq_none_iff,
      SeriesPoint.number?_eq_none_iff]
    exact or_and_left.trans (and_iff_right (em' _))

end SeriesTable
end MonthlyForecast
