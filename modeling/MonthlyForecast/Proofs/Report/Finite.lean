import MonthlyForecast.Proofs.Calculation.Completion
import MonthlyForecast.Proofs.Evaluation.Finite
import MonthlyForecast.Proofs.Report.Columns

/-! Only finite numbers are reported. The columns of a report repeat cells of the ledger and
values of series, and both hold finite numbers only. -/
namespace MonthlyForecast

structure MetricMonth.AllProper (row : MetricMonth) : Prop where
  forecast : Proper row.forecast
  budget : Proper row.budget
  historical : Proper row.historical

structure NodeMonth.AllProper (row : NodeMonth) : Prop where
  calculated : Proper row.calculated
  forecast : Proper row.forecast
  budget : Proper row.budget
  historical : Proper row.historical

/-- Every value of the report is missing or a finite number. -/
structure Report.AllProper (report : Report) : Prop where
  metrics : ∀ entry ∈ report.metrics, ∀ row ∈ entry.values, row.AllProper
  nodes : ∀ entries, report.allNodes = some entries →
    ∀ entry ∈ entries, ∀ row ∈ entry.values, row.AllProper

namespace Model

variable {model : Model} {ledger : Ledger} (series : model.series.AllProper)
  (proper : ledger.AllProper)
include series proper

theorem metricReport_proper (metric : NodeIndex) :
    ∀ row ∈ (model.metricReport ledger metric).values, row.AllProper := by
  intro row member
  obtain ⟨⟨month, place⟩, _, rfl⟩ := List.mem_map.mp member
  exact ⟨proper.value metric place, columnValue_proper series _ month,
    columnValue_proper series _ month⟩

theorem nodeReport_proper (node metric : NodeIndex) :
    ∀ row ∈ (model.nodeReport ledger node (model.metricReport ledger metric)).values,
      row.AllProper := by
  intro row member
  obtain ⟨⟨columns, calculated⟩, paired, rfl⟩ := List.mem_map.mp member
  obtain ⟨shown, listed⟩ := List.of_mem_zip paired
  obtain ⟨place, _, rfl⟩ := List.mem_map.mp listed
  obtain ⟨forecast, budget, historical⟩ := metricReport_proper series proper metric columns shown
  exact ⟨proper.value node place, forecast, budget, historical⟩

theorem report_proper (trees : List MetricTree) (forecastId : String) (moment : Timestamp)
    (included : Bool) : (model.report ledger trees forecastId moment included).AllProper where
  metrics := by
    intro entry member
    obtain ⟨tree, _, rfl⟩ := List.mem_map.mp member
    exact metricReport_proper series proper tree.root
  nodes := by
    intro entries given entry member
    obtain rfl := eq_nodeEntries given
    obtain ⟨⟨node, owner⟩, _, rfl⟩ := List.mem_map.mp member
    exact nodeReport_proper series proper node owner

end Model

namespace Request

/-- No NaN and no infinity stands in the ledger of a run, for any graph and any trees, or in a
report, whatever numbers the constants and the points of the series hold. -/
theorem values_proper (policy : Policy) :
    (∀ graph entries trees months ledger,
      Model.run ⟨graph, .ofVariables entries, policy⟩ trees months = .ok ledger →
        ∀ number, .ready (some number) ∈ ledger.cells →
          number.isNaN = false ∧ number.isInf = false) ∧
      ∀ (request : Request) moment report, request.report policy moment = .ok report →
        report.AllProper := by
  constructor
  · intro graph entries trees months ledger ran number member
    let model : Model := ⟨graph, .ofVariables entries, policy⟩
    have series : model.series.AllProper := SeriesTable.allProper_ofVariables entries
    have proper := (Model.run_proper series trees months).of_ok ran
    exact proper _ member number rfl
  · intro request moment report reported
    have series : (request.model policy).series.AllProper :=
      SeriesTable.allProper_ofVariables request.variableList
    obtain ⟨trees, ledger, _, _, ran, rfl⟩ := report_eq_ok reported
    have proper := (Model.run_proper series trees request.months).of_ok ran
    exact Model.report_proper series proper trees _ moment _

/-- Constants and points that are no finite numbers, added up and shown. -/
def unboundedRequest : Request where
  forecastId := "unbounded"
  nodes := [⟨"limit", .constant "Limit" (1 / 0), none⟩, ⟨"none", .constant "None" (0 / 0), none⟩,
    ⟨"rate", .data "Rate" "rates" 0, none⟩,
    ⟨"sum", .operator .add ["limit", "none", "rate"], none⟩,
    ⟨"total", .metric ⟨"Total", some "rates", some "rates", true⟩, none⟩]
  edges := [⟨"a", "limit", "sum"⟩, ⟨"b", "none", "sum"⟩, ⟨"c", "rate", "sum"⟩,
    ⟨"d", "sum", "total"⟩]
  variableList := [⟨"rates", "Rates", .input, "",
    [⟨⟨2022, 5, 1, by decide⟩, some (0 / 0)⟩, ⟨⟨2022, 6, 1, by decide⟩, some (-1 / 0)⟩]⟩]
  startDate := ⟨2022, 5, 1, by decide⟩
  endDate := ⟨2022, 6, 1, by decide⟩
  includeNodeResults := some true

theorem values_proper_unbounded :
    ∃ trees ledger report,
      (unboundedRequest.model .standard).run trees unboundedRequest.months = .ok ledger ∧
      unboundedRequest.report .standard ⟨unboundedRequest.startDate, 0, 0, 0⟩ = .ok report ∧
      (∀ number, .ready (some number) ∈ ledger.cells →
        number.isNaN = false ∧ number.isInf = false) ∧ report.AllProper := by
  have completes : (unboundedRequest.report .standard
      ⟨unboundedRequest.startDate, 0, 0, 0⟩).toBool = true := by
    decide +kernel
  obtain ⟨report, reported⟩ := exists_of_toBool completes
  obtain ⟨trees, ledger, _, _, ran, _⟩ := report_eq_ok reported
  obtain ⟨run, shown⟩ := values_proper .standard
  exact ⟨trees, ledger, report, ran, reported, run _ _ trees _ ledger ran,
    shown unboundedRequest _ report reported⟩

end Request
end MonthlyForecast
