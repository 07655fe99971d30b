import MonthlyForecast.Calendar.Date
import MonthlyForecast.Evaluation.Formula

/-! Variables and their monthly series. Only the month of a point counts; of two
points in one month the later in the list holds, also if it is empty, and of two
variables with one id the later one. -/
namespace MonthlyForecast

inductive VariableType where
  | actual
  | budget
  | input
  | unknown
deriving DecidableEq

namespace VariableType

def all : List VariableType := [actual, budget, input, unknown]

def name : VariableType → String
  | actual => "ACTUAL"
  | budget => "BUDGET"
  | input => "INPUT"
  | unknown => "UNKNOWN"

end VariableType

structure SeriesPoint where
  date : Date
  value : Option Float
deriving DecidableEq

structure Variable where
  id : String
  name : String
  type : VariableType
  organizationId : String
  timeSeries : List SeriesPoint
deriving DecidableEq

/-- The months of one variable with the values recorded for them. -/
abbrev MonthlySeries := List (Date × Option Float)

/-- The monthly series of a run, by variable id. -/
abbrev SeriesTable := List (String × MonthlySeries)

/-- Writes an entry in front, so that it hides earlier entries for its key. -/
def recordEntry {κ α : Type} [BEq κ] (entries : List (κ × α)) (key : κ) (value : α) :
    List (κ × α) :=
  (key, value) :: entries.filter (·.1 != key)

namespace MonthlySeries

def ofPoints (points : List SeriesPoint) : MonthlySeries :=
  points.foldl
    (fun series point => recordEntry series point.date.startOfMonth (point.value.bind finite?)) []

end MonthlySeries

namespace SeriesTable

def ofVariables (entries : List Variable) : SeriesTable :=
  entries.foldl
    (fun table entry => recordEntry table entry.id (.ofPoints entry.timeSeries)) []

def contains (table : SeriesTable) (id : String) : Bool :=
  (table.lookup id).isSome

/-- The value recorded for the month that lies `offset` months after the date's
month. Missing for an unknown variable, a month outside the calendar, a month without
a point and a point without a value. -/
def value? (table : SeriesTable) (id : String) (date : Date) (offset : Int) : Option Float := do
  let month ← date.addMonths? offset
  let series ← table.lookup id
  (series.lookup month).join

end SeriesTable
end MonthlyForecast
