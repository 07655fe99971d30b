import MonthlyForecast.Proofs.Decimal.Places
import MonthlyForecast.Proofs.Report.TraceMarks

/-! The lines of a trace as they are read. The rules for a value, a shift and each kind of entry
are stated here once more, on the numbers themselves, and every entry is written by them. -/
namespace MonthlyForecast

/-- A value in brackets, with three places if it is a number. -/
def valueText : Option Float → String
  | none => "[null]"
  | some number => "[" ++ Decimal.placesText number ++ "]"

/-- The text for a cell; a question mark stands for a value that there is not yet. -/
def Cell.shownText : Cell → String
  | pending => "[?]"
  | ready value => valueText value

/-- A number of months with its sign; nothing for none. -/
def shiftText : Int → String
  | .ofNat 0 => ""
  | .ofNat (months + 1) => ", offset +" ++ toString (months + 1)
  | .negSucc months => ", offset -" ++ toString (months + 1)

theorem Cell.traceText_eq (cell : Cell) : cell.traceText = cell.shownText := by
  match cell with
  | pending => rfl
  | ready none => rfl
  | ready (some number) => rw [traceText, Decimal.fixed_three, shownText, valueText]

/-- Three places and a point are longer than a question mark. -/
theorem Decimal.three_le_length_fixed {places : Nat} (some_places : 1 < places) (value : Float) :
    3 ≤ (fixed places value).toList.length := by
  have body : ∀ units, 3 ≤ (pointed places units).length := by
    intro units
    have padded := Text.le_length_paddedDigits (places + 1) units
    simp only [pointed, List.length_append, List.length_take, List.length_cons, List.length_drop]
    omega
  unfold fixed
  split
  · decide
  · simp only [String.toList_ofList, List.length_append]
    by_cases finite : value.isFinite
    · rw [if_pos finite]
      exact Nat.le_add_left_of_le (body _)
    · rw [if_neg finite]
      exact Nat.le_add_left 3 _

/-- Only a cell without a value is written with the mark for one. -/
theorem valueText_ne (value : Option Float) : valueText value ≠ "[?]" := by
  cases value with
  | none => decide
  | some number =>
    have long := Decimal.three_le_length_fixed (by decide : 1 < 3) number
    intro same
    have lengths := congrArg (fun text : String => text.toList.length) same
    simp only [valueText, ← Decimal.fixed_three, String.toList_append, List.length_append]
      at lengths
    have mark : "[?]".toList.length = 3 := rfl
    have bracket : "[".toList.length = 1 := rfl
    omega

namespace TraceEntry

theorem offsetText_eq (months : Int) : offsetText months = shiftText months := by
  match months with
  | .ofNat 0 => rfl
  | .ofNat (months + 1) =>
    have later : (0 : Int) < Int.ofNat (months + 1) := Int.natCast_pos.mpr months.succ_pos
    rw [offsetText, if_neg later.ne', if_pos later, String.append_assoc]
    rfl
  | .negSucc months =>
    have earlier : Int.negSucc months < 0 := Int.negSucc_lt_zero months
    rw [offsetText, if_neg earlier.ne, if_neg earlier.asymm]
    rfl

/-- The line of an entry that is no reference: its marks, its level, its id with a value, and what
it says of its node. -/
def fullLine (entry : TraceEntry) (value said : String) : String :=
  railText entry.rails ++ s!"[L{entry.level}] " ++ entry.node ++ value ++ said ++ "\n"

/-- An entry as it is read. A reference shows no value and names the level of the full entry. -/
def lineText (entry : TraceEntry) : String :=
  let value := entry.value.shownText
  match entry.detail with
  | .reference first => railText entry.rails ++ entry.node ++ s!" -> (Ref to L{first})" ++ "\n"
  | .data variableId months =>
    entry.fullLine value (" -> Data(" ++ variableId ++ shiftText months ++ ")")
  | .constant number => entry.fullLine value (" -> Const(" ++ Decimal.placesText number ++ ")")
  | .seed sourceMetricId => entry.fullLine value (" -> " ++ sourceMetricId ++ ".prev()")
  | .operator operation inputs => entry.fullLine value
    (" = " ++ (" " ++ operation.symbol ++ " ").intercalate
      (inputs.map fun (id, value) => id ++ value.shownText))
  | .metric label => entry.fullLine value (" -> Metric(" ++ label ++ ")")
  | .calculated label => entry.fullLine value (" = " ++ label)
  | .fallback label => entry.fullLine value (" = " ++ label ++ " [FALLBACK]")

theorem toLine_eq (entry : TraceEntry) : entry.toLine = entry.lineText := by
  rw [toLine, marks_eq_railText, lineText, headText, Cell.traceText_eq]
  cases entry.detail <;>
    simp [fullLine, detailText, offsetText_eq, Cell.traceText_eq, Decimal.fixed_three,
      String.append_assoc]

end TraceEntry
end MonthlyForecast
