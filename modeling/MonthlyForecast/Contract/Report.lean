import MonthlyForecast.Contract.Fields
import MonthlyForecast.Json.Printer
import MonthlyForecast.Json.Reader
import MonthlyForecast.Report.Basic
import MonthlyForecast.Validation.Issue

/-! The JSON form of results: reports of a run and verdicts of validation. Encoders
take the way a double is written, which `Json.float` is for documents. -/
namespace MonthlyForecast

namespace MetricMonth

def ofJson? [Json.NumberFormat] (value : Json) : Option MetricMonth := do
  let fields ← Fields.ofJson? ["date", "forecast", "budget", "historical"] value
  some ⟨← fields.required "date" Json.toDate?, ← fields.nullable "forecast" Json.toFloat?,
    ← fields.nullable "budget" Json.toFloat?, ← fields.nullable "historical" Json.toFloat?⟩

def toJson (float : Float → Json) (value : MetricMonth) : Json :=
  .record [("date", .text value.date.toText), ("forecast", .option float value.forecast),
    ("budget", .option float value.budget), ("historical", .option float value.historical)]

end MetricMonth

namespace NodeMonth

def ofJson? [Json.NumberFormat] (value : Json) : Option NodeMonth := do
  let fields ← Fields.ofJson? ["date", "calculated", "forecast", "budget", "historical"] value
  some ⟨← fields.required "date" Json.toDate?, ← fields.nullable "calculated" Json.toFloat?,
    ← fields.nullable "forecast" Json.toFloat?, ← fields.nullable "budget" Json.toFloat?,
    ← fields.nullable "historical" Json.toFloat?⟩

def toJson (float : Float → Json) (value : NodeMonth) : Json :=
  .record [("date", .text value.date.toText), ("calculated", .option float value.calculated),
    ("forecast", .option float value.forecast), ("budget", .option float value.budget),
    ("historical", .option float value.historical)]

end NodeMonth

namespace MetricReport

def ofJson? [Json.NumberFormat] (value : Json) : Option MetricReport := do
  let fields ← Fields.ofJson? ["metricNodeId", "label", "values"] value
  some ⟨← fields.required "metricNodeId" Json.toText?, ← fields.required "label" Json.toText?,
    ← fields.required "values" (Json.toList? MetricMonth.ofJson?)⟩

def toJson (float : Float → Json) (report : MetricReport) : Json :=
  .record [("metricNodeId", .text report.metricNodeId), ("label", .text report.label),
    ("values", .list (MetricMonth.toJson float) report.values)]

end MetricReport

namespace NodeReport

def ofJson? [Json.NumberFormat] (value : Json) : Option NodeReport := do
  let fields ← Fields.ofJson? ["nodeId", "nodeType", "metricNodeId", "values"] value
  some ⟨← fields.required "nodeId" Json.toText?,
    ← fields.required "nodeType" (Json.toChoice? NodeType.all NodeType.name),
    ← fields.required "metricNodeId" Json.toText?,
    ← fields.required "values" (Json.toList? NodeMonth.ofJson?)⟩

def toJson (float : Float → Json) (report : NodeReport) : Json :=
  .record [("nodeId", .text report.nodeId), ("nodeType", .text report.nodeType.name),
    ("metricNodeId", .text report.metricNodeId),
    ("values", .list (NodeMonth.toJson float) report.values)]

end NodeReport

namespace Report

def ofJson? [Json.NumberFormat] (value : Json) : Option Report := do
  let fields ← Fields.ofJson? ["forecastId", "calculatedAt", "metrics", "allNodes"] value
  some ⟨← fields.required "forecastId" Json.toText?,
    ← fields.required "calculatedAt" Json.toTimestamp?,
    ← fields.required "metrics" (Json.toList? MetricReport.ofJson?),
    ← fields.withDefault "allNodes" (Json.toOption? (Json.toList? NodeReport.ofJson?)) none⟩

def ofText? [Json.NumberFormat] (text : String) : Option Report :=
  (Json.ofText? text).bind ofJson?

def toJson (float : Float → Json) (report : Report) : Json :=
  .record ([("forecastId", .text report.forecastId),
    ("calculatedAt", .text report.calculatedAt.toText),
    ("metrics", .list (MetricReport.toJson float) report.metrics)] ++
    report.allNodes.toList.map fun nodes => ("allNodes", .list (NodeReport.toJson float) nodes))

/-- The document of a report. -/
def toText [Json.NumberFormat] (report : Report) : String :=
  (report.toJson Json.float).toText

end Report

namespace Issue

def ofJson? (value : Json) : Option Issue := do
  let fields ← Fields.ofJson? ["nodeId", "errorType", "severity", "message"] value
  some ⟨← fields.nullable "nodeId" Json.toText?,
    ← fields.required "errorType" (Json.toChoice? IssueType.all IssueType.name),
    ← fields.required "severity" (Json.toChoice? Severity.all Severity.name),
    ← fields.required "message" Json.toText?⟩

def toJson (issue : Issue) : Json :=
  .record [("nodeId", .option .text issue.nodeId), ("errorType", .text issue.type.name),
    ("severity", .text issue.severity.name), ("message", .text issue.message)]

end Issue

namespace Verdict

def ofJson? (value : Json) : Option Verdict := do
  let fields ← Fields.ofJson? ["isValid", "errors", "warnings"] value
  some ⟨← fields.required "isValid" Json.toBoolean?,
    ← fields.required "errors" (Json.toList? Json.toText?),
    ← fields.required "warnings" (Json.toList? Json.toText?)⟩

def toJson (verdict : Verdict) : Json :=
  .record [("isValid", .boolean verdict.isValid), ("errors", .list .text verdict.errors),
    ("warnings", .list .text verdict.warnings)]

end Verdict
end MonthlyForecast
