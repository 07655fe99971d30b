import MonthlyForecast.Calendar.Date
import MonthlyForecast.Graph.Basic

/-! The table of evaluated values, a row for each node and a column for each month,
kept row after row in one array. A cell that lies outside the table reads as pending
and cannot be written. -/
namespace MonthlyForecast

inductive Cell where
  /-- Not evaluated yet. -/
  | pending
  /-- Evaluated; the value may be missing. -/
  | ready (value : Option Float)
deriving DecidableEq

namespace Cell

/-- The evaluated value; missing if the cell is pending. -/
def value : Cell → Option Float
  | pending => none
  | ready value => value

end Cell

structure Ledger where
  months : List Date
  cells : Array Cell

namespace Ledger

/-- A table of pending cells. -/
def empty (nodeCount : Nat) (months : List Date) : Ledger :=
  ⟨months, Array.replicate (nodeCount * months.length) .pending⟩

/-- The place of a cell in the array. -/
def offset (ledger : Ledger) (node : NodeIndex) (month : Nat) : Nat :=
  node * ledger.months.length + month

def get (ledger : Ledger) (node : NodeIndex) (month : Nat) : Cell :=
  if month < ledger.months.length then ledger.cells[ledger.offset node month]?.getD .pending
  else .pending

def value (ledger : Ledger) (node : NodeIndex) (month : Nat) : Option Float :=
  (ledger.get node month).value

def insert (ledger : Ledger) (node : NodeIndex) (month : Nat) (value : Option Float) : Ledger :=
  if month < ledger.months.length then
    let place := ledger.offset node month
    { ledger with cells := ledger.cells.setIfInBounds place (.ready value) }
  else ledger

theorem get_empty (nodeCount : Nat) (months : List Date) (node : NodeIndex) (month : Nat) :
    (empty nodeCount months).get node month = .pending := by
  unfold get
  split
  · simp only [empty, Array.getElem?_replicate]
    split <;> rfl
  · rfl

@[simp] theorem months_insert (ledger : Ledger) (node : NodeIndex) (month : Nat)
    (value : Option Float) : (ledger.insert node month value).months = ledger.months := by
  unfold insert
  split <;> rfl

/-- The values of a node, in month order. -/
def row (ledger : Ledger) (node : NodeIndex) : List (Option Float) :=
  (List.range ledger.months.length).map (ledger.value node)

end Ledger
end MonthlyForecast
