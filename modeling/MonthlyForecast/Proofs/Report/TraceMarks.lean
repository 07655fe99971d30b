import Mathlib.Data.List.Induction
import MonthlyForecast.Report.Trace

/-! The marks before an entry. They are made by replacing parts of the marks above, which is
safe because those consist of bars and blanks with one connector behind them. -/
namespace MonthlyForecast.TraceEntry

/-- The marks before an entry: a bar below every open branch, and a connector that
tells the last input from the others. -/
def railText : List Bool → String
  | [] => ""
  | [follows] => if follows then "|--" else "`--"
  | follows :: rest => (if follows then "|  " else "   ") ++ railText rest

/-- A bar for each branch that is open, and blanks for each that is not. -/
def stemText (rails : List Bool) : String :=
  String.join (rails.map fun follows => if follows then "|  " else "   ")

theorem stemText_cons (follows : Bool) (rails : List Bool) :
    stemText (follows :: rails) = (if follows then "|  " else "   ") ++ stemText rails := by
  simp [stemText, String.join_cons]

theorem railText_snoc (rails : List Bool) (follows : Bool) :
    railText (rails ++ [follows]) = stemText rails ++ connector follows := by
  induction rails with
  | nil => simp [railText, stemText, connector]
  | cons first rest ih =>
    have step : railText (first :: (rest ++ [follows])) =
        (if first then "|  " else "   ") ++ railText (rest ++ [follows]) := by
      cases rest <;> rfl
    rw [List.cons_append, step, ih, stemText_cons, String.append_assoc]

theorem stemText_snoc (rails : List Bool) (follows : Bool) :
    stemText (rails ++ [follows]) = stemText rails ++ if follows then "|  " else "   " := by
  simp [stemText, String.join_append]

/-- Bars and blanks hold no connector, and none begins in them. -/
theorem replaceAll_stem {pattern : String} (connects : pattern = "|--" ∨ pattern = "`--")
    (fresh : String) (rails : List Bool) (text : String) :
    Text.replaceAll pattern fresh (stemText rails ++ text) =
      stemText rails ++ Text.replaceAll pattern fresh text := by
  have passes : ∀ rest, Text.replaceFrom pattern.toList fresh.toList 0
      ((stemText rails).toList ++ rest) =
        (stemText rails).toList ++ Text.replaceFrom pattern.toList fresh.toList 0 rest := by
    intro rest
    induction rails with
    | nil => simp [stemText]
    | cons follows rails ih =>
      rw [stemText_cons, String.toList_append, List.append_assoc, List.append_assoc, ← ih]
      rcases connects with rfl | rfl <;> cases follows <;> rfl
  rw [Text.replaceAll, String.toList_append, passes, String.ofList_append, String.ofList_toList]
  rfl

/-- Only the connector behind the bars and blanks is replaced. -/
theorem childStem_railText (rails : List Bool) : childStem (railText rails) = stemText rails := by
  induction rails using List.reverseRecOn with
  | nil => rfl
  | append_singleton rails follows =>
    rw [railText_snoc, childStem, replaceAll_stem (Or.inr rfl), replaceAll_stem (Or.inl rfl),
      stemText_snoc]
    cases follows <;> rfl

/-- The marks are one cell for each step from the root: a bar or a blank for each branch on
the way, and the own connector. -/
theorem marks_eq_railText (rails : List Bool) : marks rails = railText rails := by
  induction rails using List.reverseRecOn with
  | nil => rfl
  | append_singleton rails follows ih =>
    rw [railText_snoc, ← childStem_railText, ← ih, marks, marks, List.foldl_append]
    rfl

end MonthlyForecast.TraceEntry
