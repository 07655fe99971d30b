import MonthlyForecast.Contract.Report
import MonthlyForecast.Proofs.Calculation.Solution
import MonthlyForecast.Proofs.Contract.Request
import MonthlyForecast.Proofs.Report.Finite

/-! Documents of the contract lose nothing, whichever way doubles are written and read, as long
as that keeps doubles. A report comes back from its document: its columns hold finite numbers or
nothing, its dates are supported ones, and its moment is printed in the form that is read. A
request that was read comes back from what it is written as. -/
namespace MonthlyForecast

open Json

section

variable [NumberFormat] (exact : NumberFormat.RoundTrips)
include exact

theorem Proper.decodes {value : Option Float} (proper : Proper value) :
    Decodes (.option Json.float value) (toOption? toFloat?) value := by
  apply decodes_option rfl
  intro number given
  obtain ⟨nan, inf⟩ := proper number given
  apply decodes_float exact
  rw [isFinite_eq, nan, inf]
  rfl

theorem MetricMonth.decodes {row : MetricMonth} (proper : row.AllProper) :
    Decodes (row.toJson Json.float) ofJson? row := by
  obtain ⟨date, readDate, date_eq⟩ := decodes_date row.date
  obtain ⟨forecast, readForecast, forecast_eq⟩ := proper.forecast.decodes exact
  obtain ⟨budget, readBudget, budget_eq⟩ := proper.budget.decodes exact
  obtain ⟨historical, readHistorical, historical_eq⟩ := proper.historical.decodes exact
  refine ⟨_, readsAs_record (.cons (.named readDate) (.cons (.named readForecast)
    (.cons (.named readBudget) (.cons (.named readHistorical) .nil)))), ?_⟩
  rw [ofJson?, Fields.ofJson?_record (by simp) (by simp)]
  simp [date_eq, forecast_eq, budget_eq, historical_eq]

theorem NodeMonth.decodes {row : NodeMonth} (proper : row.AllProper) :
    Decodes (row.toJson Json.float) ofJson? row := by
  obtain ⟨date, readDate, date_eq⟩ := decodes_date row.date
  obtain ⟨calculated, readCalculated, calculated_eq⟩ := proper.calculated.decodes exact
  obtain ⟨forecast, readForecast, forecast_eq⟩ := proper.forecast.decodes exact
  obtain ⟨budget, readBudget, budget_eq⟩ := proper.budget.decodes exact
  obtain ⟨historical, readHistorical, historical_eq⟩ := proper.historical.decodes exact
  refine ⟨_, readsAs_record (.cons (.named readDate) (.cons (.named readCalculated)
    (.cons (.named readForecast) (.cons (.named readBudget)
      (.cons (.named readHistorical) .nil))))), ?_⟩
  rw [ofJson?, Fields.ofJson?_record (by simp) (by simp)]
  simp [date_eq, calculated_eq, forecast_eq, budget_eq, historical_eq]

theorem MetricReport.decodes {entry : MetricReport}
    (proper : ∀ row ∈ entry.values, row.AllProper) :
    Decodes (entry.toJson Json.float) ofJson? entry := by
  obtain ⟨rows, readRows, rows_eq⟩ :=
    decodes_list fun row among => MetricMonth.decodes exact (proper row among)
  refine ⟨_, readsAs_record (.cons (.named (readsAs_text entry.metricNodeId))
    (.cons (.named (readsAs_text entry.label)) (.cons (.named readRows) .nil))), ?_⟩
  rw [ofJson?, Fields.ofJson?_record (by simp) (by simp)]
  simp [rows_eq]

theorem NodeReport.decodes {entry : NodeReport} (proper : ∀ row ∈ entry.values, row.AllProper) :
    Decodes (entry.toJson Json.float) ofJson? entry := by
  have type : toChoice? NodeType.all NodeType.name (.text entry.nodeType.name) =
      some entry.nodeType :=
    toChoice?_text (by cases entry.nodeType <;> decide) (by decide)
  obtain ⟨rows, readRows, rows_eq⟩ :=
    decodes_list fun row among => NodeMonth.decodes exact (proper row among)
  refine ⟨_, readsAs_record (.cons (.named (readsAs_text entry.nodeId))
    (.cons (.named (readsAs_text entry.nodeType.name))
      (.cons (.named (readsAs_text entry.metricNodeId)) (.cons (.named readRows) .nil)))), ?_⟩
  rw [ofJson?, Fields.ofJson?_record (by simp) (by simp)]
  simp [type, rows_eq]

theorem Report.decodes {report : Report} (proper : report.AllProper)
    (form : report.calculatedAt.InForm) : Decodes (report.toJson Json.float) ofJson? report := by
  obtain ⟨id, moment, metrics, allNodes⟩ := report
  obtain ⟨momentBack, readMoment, moment_eq⟩ := decodes_timestamp form
  obtain ⟨metricsBack, readMetrics, metrics_eq⟩ :=
    decodes_list fun entry among => MetricReport.decodes exact (proper.metrics entry among)
  cases allNodes with
  | none =>
    refine ⟨_, readsAs_record (.cons (.named (readsAs_text id)) (.cons (.named readMoment)
      (.cons (.named readMetrics) .nil))), ?_⟩
    rw [ofJson?, Fields.ofJson?_record (by simp) (by simp)]
    simp [moment_eq, metrics_eq]
  | some nodes =>
    obtain ⟨nodesBack, readNodes, nodes_eq⟩ := decodes_some rfl (decodes_list fun entry among =>
      NodeReport.decodes exact (proper.nodes nodes rfl entry among))
    refine ⟨_, readsAs_record (.cons (.named (readsAs_text id)) (.cons (.named readMoment)
      (.cons (.named readMetrics) (.cons (.named readNodes) .nil)))), ?_⟩
    rw [ofJson?, Fields.ofJson?_record (by simp) (by simp)]
    simp [moment_eq, metrics_eq, nodes_eq]

end

namespace Request

theorem allProper_of_report {policy : Policy} {request : Request} {moment : Timestamp}
    {report : Report} (reported : request.report policy moment = .ok report) :
    report.AllProper ∧ report.calculatedAt = moment := by
  have series : (request.model policy).series.AllProper :=
    SeriesTable.allProper_ofVariables request.variableList
  obtain ⟨trees, ledger, _, _, ran, rfl⟩ := report_eq_ok reported
  have proper := (Model.run_proper series trees request.months).of_ok ran
  exact ⟨Model.report_proper series proper trees _ moment _, rfl⟩

/-- If the number format keeps doubles, a request that was read from a text is read from the text
of its document again, and so is the report of any request at a moment of the form
`YYYY-MM-DDTHH:MM:SSZ`. -/
theorem documents_round_trip [NumberFormat] (exact : NumberFormat.RoundTrips) :
    (∀ text request, ofText? text = some request →
      ofText? (request.toJson Json.float).toText = some request) ∧
      ∀ policy (request : Request) moment report, moment.InForm →
        request.report policy moment = .ok report →
          Report.ofText? report.toText = some report := by
  refine ⟨fun text request found => ofText?_toText exact found, ?_⟩
  intro policy request moment report form reported
  obtain ⟨proper, rfl⟩ := allProper_of_report reported
  obtain ⟨back, reads, same⟩ := Report.decodes exact proper form
  rw [Report.ofText?, Report.toText, Json.ofText?_toText reads, Option.bind_some, same]

/-- Negative zero, a number with an exponent, a missing value and years that take a sign, in a
text that writes most structures as arrays. -/
def terseText : String :=
  "[\"terse\",[\x7b\"kind\":\"CONSTANT\",\"attributes\":[\"Rate\",-0.0],\"id\":\"rate\"," ++
    "\"position\":[12,1e-7]\x7d],[],[[\"past\",\"Past\",\"INPUT\",\"\"," ++
    "[[\"-0001-01-31\",null],[\"+12345-06-01\",25e-1]]]],\"2030-01-01\",\"2030-03-01\",null]"

def terseRequest : Request where
  forecastId := "terse"
  nodes := [⟨"rate", .constant "Rate" (-0.0), some ⟨12, 1e-7⟩⟩]
  edges := []
  variableList := [⟨"past", "Past", .input, "",
    [⟨⟨-1, 1, 31, by decide⟩, none⟩, ⟨⟨12345, 6, 1, by decide⟩, some 2.5⟩]⟩]
  startDate := ⟨2030, 1, 1, by decide⟩
  endDate := ⟨2030, 3, 1, by decide⟩
  includeNodeResults := none

theorem documents_round_trip_terse :
    @NumberFormat.RoundTrips .nearest ∧ @ofText? .nearest terseText = some terseRequest ∧
      @ofText? .significand terseText = some terseRequest ∧
      @ofText? .nearest (terseRequest.toJson (@Json.float .nearest)).toText = some terseRequest ∧
      ∃ moment : Timestamp, moment.InForm ∧
        ∃ report, growthRequest.report growthPolicy moment = .ok report ∧
          @Report.ofText? .nearest (@Report.toText .nearest report) = some report := by
  have exact : @NumberFormat.RoundTrips .nearest := NumberFormat.nearest_roundTrips
  have found : @ofText? .nearest terseText = some terseRequest := by decide +kernel
  -- On this text the format of documents reads what the nearest one does.
  have same : @ofText? .significand terseText = some terseRequest := by decide +kernel
  let moment : Timestamp := ⟨terseRequest.startDate, 9, 30, 0⟩
  have form : moment.InForm := ⟨by decide, by decide, by decide, by decide⟩
  have completes : (growthRequest.report growthPolicy moment).toBool = true := by
    decide +kernel
  obtain ⟨report, reported⟩ := exists_of_toBool completes
  obtain ⟨requests, reports⟩ := @documents_round_trip .nearest exact
  exact ⟨exact, found, same, requests terseText terseRequest found, moment, form, report, reported,
    reports growthPolicy growthRequest moment report form reported⟩

end Request
end MonthlyForecast
