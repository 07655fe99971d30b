import MonthlyForecast.Evaluation.Series
import MonthlyForecast.Proofs.Calendar.Shift

/-! What a table of series gives. Every entry comes from a variable, every cell from a point of
it, each from the last one with its key, and a value at a distance from a date is that of a cell
for the month at the distance. -/
namespace MonthlyForecast

/-- What is recorded item by item comes from one of the items. -/
theorem exists_of_recorded {α κ β : Type} [BEq κ] {key : α → κ} {value : α → β} {items : List α}
    {entry : κ × β} (member : entry ∈ items.foldl
      (fun entries item => recordEntry entries (key item) (value item)) []) :
    ∃ item ∈ items, entry = (key item, value item) := by
  revert entry
  apply foldl_invariant (fun done entries => ∀ entry ∈ entries,
    ∃ item ∈ done, entry = (key item, value item))
  · simp
  · intro done item entries _ recorded entry member
    rcases List.mem_cons.mp member with rfl | earlier
    · exact ⟨item, by simp, rfl⟩
    · obtain ⟨other, among, same⟩ := recorded entry (List.mem_of_mem_filter earlier)
      exact ⟨other, List.mem_append_left _ among, same⟩

theorem mem_of_lookup {κ α : Type} [BEq κ] [LawfulBEq κ] {entries : List (κ × α)} {key : κ}
    {value : α} (found : entries.lookup key = some value) : (key, value) ∈ entries := by
  obtain ⟨before, after, rfl, _⟩ := List.lookup_eq_some_iff.mp found
  simp

section Recorded

variable {α κ β : Type} [BEq κ] [LawfulBEq κ]

theorem lookup_recordEntry (entries : List (κ × β)) (key wanted : κ) (value : β) :
    (recordEntry entries key value).lookup wanted =
      if wanted == key then some value else entries.lookup wanted := by
  rw [recordEntry, List.lookup_cons]
  cases same : wanted == key with
  | true => rfl
  | false =>
    -- The entry that is taken out has another key.
    simp only [Bool.false_eq_true, if_false]
    induction entries with
    | nil => rfl
    | cons entry rest ih =>
      obtain ⟨other, recorded⟩ := entry
      by_cases hidden : other = key
      · simp [hidden, same, ih, List.lookup_cons]
      · simp [hidden, ih, List.lookup_cons]

/-- Of the items with a key the last one is found. -/
theorem lookup_recorded (items : List α) (key : α → κ) (value : α → β) (wanted : κ) :
    (items.foldl (fun entries item => recordEntry entries (key item) (value item)) []).lookup
        wanted = (items.reverse.find? (key · == wanted)).map value := by
  apply foldl_invariant fun done (entries : List (κ × β)) =>
    entries.lookup wanted = (done.reverse.find? (key · == wanted)).map value
  · rfl
  · intro done item entries _ found
    rw [lookup_recordEntry, List.reverse_append, List.reverse_singleton, List.singleton_append,
      List.find?_cons, BEq.comm, found]
    split <;> simp [*]

end Recorded

theorem MonthlySeries.exists_point {points : List SeriesPoint} {cell : Date × Option Float}
    (member : cell ∈ MonthlySeries.ofPoints points) :
    ∃ point ∈ points, cell = (point.date.startOfMonth, point.value.bind finite?) :=
  exists_of_recorded member

namespace SeriesTable

variable {table : SeriesTable} {entries : List Variable} {id : String} {date : Date}
  {offset : Int} {number : Float}

theorem exists_variable {entry : String × MonthlySeries} (member : entry ∈ ofVariables entries) :
    ∃ given ∈ entries, entry = (given.id, .ofPoints given.timeSeries) :=
  exists_of_recorded member

/-- The recorded ids are those of the given variables. -/
theorem contains_ofVariables_iff :
    (ofVariables entries).contains id ↔ ∃ entry ∈ entries, entry.id = id := by
  rw [contains, ofVariables, lookup_recorded]
  simp

/-- A value at a distance is that of the month at the distance. -/
theorem value?_at (table : SeriesTable) (id : String) (date : Date) (offset : Int) :
    table.value? id date offset =
      (date.addMonths? offset).bind fun month => table.value? id month 0 := by
  unfold value?
  cases found : date.addMonths? offset with
  | none => rfl
  | some month =>
    have here : month.addMonths? 0 = some month := by
      rw [Date.addMonths?_add found, Int.add_zero, found]
    simp [here]

/-- A value stands in a cell for its month. -/
theorem exists_cell (given : table.value? id date offset = some number) :
    ∃ month series, date.addMonths? offset = some month ∧ (id, series) ∈ table ∧
      (month, some number) ∈ series := by
  simp only [value?, Option.bind_eq_bind, Option.bind_eq_some_iff, Option.join_eq_some_iff]
    at given
  obtain ⟨month, here, series, entered, recorded⟩ := given
  exact ⟨month, series, here, mem_of_lookup entered, mem_of_lookup recorded⟩

end SeriesTable
end MonthlyForecast
