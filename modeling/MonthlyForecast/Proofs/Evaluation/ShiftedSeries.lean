import MonthlyForecast.Proofs.Evaluation.Series

/-! Series whose points are all moved by one distance. Cells are found by the index of their
month, so where a month leaves the calendar it is missing before and after the move alike. The
series of moved points are the moved series, as later points hide the same earlier ones. -/
namespace MonthlyForecast

/-- The point at a distance, if the calendar has the month. -/
def SeriesPoint.shift? (distance : Int) (point : SeriesPoint) : Option SeriesPoint :=
  (point.date.addMonths? distance).map fun date => { point with date := date }

/-- The variable with all its points at a distance. -/
def Variable.shift? (distance : Int) (entry : Variable) : Option Variable :=
  (entry.timeSeries.mapM (SeriesPoint.shift? distance)).map fun points =>
    { entry with timeSeries := points }

/-- A cell for the first day of a month, and the same value for the month at a distance. -/
structure CellShifted (distance : Int) (cell other : Date × Option Float) : Prop where
  first : cell.1.day = 1
  moved : cell.1.addMonths? distance = some other.1
  value_eq : other.2 = cell.2

/-- A series and the same series at a distance. -/
abbrev SeriesShifted (distance : Int) : MonthlySeries → MonthlySeries → Prop :=
  List.Forall₂ (CellShifted distance)

/-- A table and the same table with all series at a distance. -/
abbrev TableShifted (distance : Int) : SeriesTable → SeriesTable → Prop :=
  List.Forall₂ fun entry other => other.1 = entry.1 ∧ SeriesShifted distance entry.2 other.2

/-- Recording related items keeps two lists related, if related items have the key at once. -/
theorem recordEntry_forall₂ {κ α β : Type} [BEq κ] [LawfulBEq κ]
    {related : κ × α → κ × β → Prop} {entries : List (κ × α)} {others : List (κ × β)}
    {key otherKey : κ} {value : α} {otherValue : β} (all : List.Forall₂ related entries others)
    (new : related (key, value) (otherKey, otherValue))
    (keys : ∀ entry other, related entry other → (entry.1 = key ↔ other.1 = otherKey)) :
    List.Forall₂ related (recordEntry entries key value)
      (recordEntry others otherKey otherValue) := by
  refine .cons new (List.rel_filter ?_ all)
  intro entry other one
  simp only [bne_iff_ne, ne_eq, keys entry other one]

variable {distance offset index : Int} {cell other : Date × Option Float} {date moved : Date}
  {series others : MonthlySeries} {id : String}

theorem CellShifted.index_eq (one : CellShifted distance cell other) :
    other.1.monthIndex = cell.1.monthIndex + distance :=
  (Date.addMonths?_eq_some_iff.mp one.moved).2

theorem CellShifted.key_iff (one : CellShifted distance cell other) (first : date.day = 1)
    (shift : date.addMonths? distance = some moved) : cell.1 = date ↔ other.1 = moved := by
  obtain ⟨otherFirst, otherIndex⟩ := Date.addMonths?_eq_some_iff.mp one.moved
  obtain ⟨movedFirst, movedIndex⟩ := Date.addMonths?_eq_some_iff.mp shift
  constructor
  · rintro rfl
    exact Date.eq_of_monthIndex otherFirst movedFirst (by omega)
  · rintro rfl
    exact Date.eq_of_monthIndex one.first first (by omega)

/-- The series of moved points. -/
theorem seriesShifted_ofPoints {points shifted : List SeriesPoint}
    (found : points.mapM (SeriesPoint.shift? distance) = some shifted) :
    SeriesShifted distance (.ofPoints points) (.ofPoints shifted) := by
  apply List.rel_foldl (P := SeriesShifted distance) _ .nil (forall₂_of_mapM found)
  intro entries others all point other one
  obtain ⟨date, shift, rfl⟩ := Option.map_eq_some_iff.mp one
  have shift := Date.addMonths?_startOfMonth shift
  exact recordEntry_forall₂ all ⟨rfl, shift, rfl⟩ fun _ _ cells => cells.key_iff rfl shift

/-- The table of moved variables. -/
theorem tableShifted_ofVariables {entries shifted : List Variable}
    (found : entries.mapM (Variable.shift? distance) = some shifted) :
    TableShifted distance (.ofVariables entries) (.ofVariables shifted) := by
  apply List.rel_foldl (P := TableShifted distance) _ .nil (forall₂_of_mapM found)
  intro table others all entry other one
  obtain ⟨points, shift, rfl⟩ := Option.map_eq_some_iff.mp one
  refine recordEntry_forall₂ all ⟨rfl, seriesShifted_ofPoints shift⟩ ?_
  rintro entry other ⟨same, _⟩
  rw [same]

/-- A cell is found by its month index. -/
theorem lookup_cons_index (first : cell.1.day = 1) :
    (Date.ofMonthIndex? index).bind (fun month => List.lookup month (cell :: series)) =
      if cell.1.monthIndex = index then some cell.2
      else (Date.ofMonthIndex? index).bind fun month => List.lookup month series := by
  split
  · rename_i here
    rw [Date.ofMonthIndex?_eq_some_iff.mpr ⟨first, here⟩, Option.bind_some, List.lookup_cons]
    simp
  · rename_i apart
    cases found : Date.ofMonthIndex? index with
    | none => rfl
    | some month =>
      obtain ⟨_, same⟩ := Date.ofMonthIndex?_eq_some_iff.mp found
      have other : month ≠ cell.1 := by
        rintro rfl
        exact apart same
      rw [Option.bind_some, Option.bind_some, List.lookup_cons, beq_false_of_ne other]

theorem SeriesShifted.lookup_eq (all : SeriesShifted distance series others) (index : Int) :
    (Date.ofMonthIndex? (index + distance)).bind (fun month => List.lookup month others) =
      (Date.ofMonthIndex? index).bind fun month => List.lookup month series := by
  induction all with
  | nil => simp
  | cons one _ ih =>
    -- The cells' months lie at the distance, so both searches stop here or neither does.
    have otherFirst := (Date.addMonths?_eq_some_iff.mp one.moved).1
    rw [lookup_cons_index one.first, lookup_cons_index otherFirst, ih, one.index_eq, one.value_eq]
    simp only [Int.add_left_inj]

namespace TableShifted

variable {table otherTable : SeriesTable} (all : TableShifted distance table otherTable)
include all

theorem lookup (id : String) :
    Option.Rel (SeriesShifted distance) (table.lookup id) (otherTable.lookup id) := by
  induction all with
  | nil => exact .none
  | cons one _ ih =>
    rw [List.lookup_cons, List.lookup_cons, one.1]
    split
    · exact .some one.2
    · exact ih

/-- A moved table gives at a moved date what the table gives at the date. -/
theorem value?_eq (shift : date.addMonths? distance = some moved) (id : String) (offset : Int) :
    otherTable.value? id moved offset = table.value? id date offset := by
  have gathered : ∀ (found : Option Date) (series : MonthlySeries),
      (found.bind fun month => (List.lookup month series).join) =
        (found.bind fun month => List.lookup month series).join := by
    intro found series
    cases found <;> rfl
  have index : moved.monthIndex + offset = date.monthIndex + offset + distance := by
    have := (Date.addMonths?_eq_some_iff.mp shift).2
    omega
  have found := all.lookup id
  simp only [SeriesTable.value?, Date.addMonths?, index, Option.bind_eq_bind]
  generalize table.lookup id = series at found
  generalize otherTable.lookup id = others at found
  cases found with
  | none => simp
  | some cells =>
    simp only [Option.bind_some, gathered, cells.lookup_eq]

end TableShifted
end MonthlyForecast
