import MonthlyForecast.Calculation
import MonthlyForecast.Contract.Graph
import MonthlyForecast.Json.Reader

/-! The JSON form of requests: variables with their series, the evaluation policy and
the request itself. -/
namespace MonthlyForecast

namespace SeriesPoint

def ofJson? [Json.NumberFormat] (value : Json) : Option SeriesPoint := do
  let fields ← Fields.ofJson? ["date", "value"] value
  some ⟨← fields.required "date" Json.toDate?, ← fields.nullable "value" Json.toFloat?⟩

def toJson (float : Float → Json) (point : SeriesPoint) : Json :=
  .record [("date", .text point.date.toText), ("value", .option float point.value)]

end SeriesPoint

namespace Variable

def ofJson? [Json.NumberFormat] (value : Json) : Option Variable := do
  let fields ← Fields.ofJson? ["id", "name", "type", "organizationId", "timeSeries"] value
  some
    { id := ← fields.required "id" Json.toText?
      name := ← fields.required "name" Json.toText?
      type := ← fields.withDefault "type"
        (Json.toChoice? VariableType.all VariableType.name) .unknown
      organizationId := ← fields.withDefault "organizationId" Json.toText? ""
      timeSeries := ← fields.withDefault "timeSeries" (Json.toList? SeriesPoint.ofJson?) [] }

def toJson (float : Float → Json) (entry : Variable) : Json :=
  .record [("id", .text entry.id), ("name", .text entry.name), ("type", .text entry.type.name),
    ("organizationId", .text entry.organizationId),
    ("timeSeries", .list (SeriesPoint.toJson float) entry.timeSeries)]

end Variable

namespace Policy

def ofJson? (value : Json) : Option Policy := do
  let fields ← Fields.ofJson? ["seed_bootstrap", "metric_fallback", "include_node_results"] value
  some
    { seedOpening := ← fields.withDefault "seed_bootstrap"
        (Json.toChoice? SeedOpening.all SeedOpening.name) standard.seedOpening
      fallbackSource := ← fields.withDefault "metric_fallback"
        (Json.toChoice? FallbackSource.all FallbackSource.name) standard.fallbackSource
      includeNodeResults := ← fields.withDefault "include_node_results" Json.toBoolean?
        standard.includeNodeResults }

def toJson (policy : Policy) : Json :=
  .record [("seed_bootstrap", .text policy.seedOpening.name),
    ("metric_fallback", .text policy.fallbackSource.name),
    ("include_node_results", .boolean policy.includeNodeResults)]

end Policy

namespace Request

/-- Reads a request; its nodes stand at depth three of the document. -/
def ofJson? [Json.NumberFormat] (value : Json) : Option Request := do
  let fields ← Fields.ofJson?
    ["forecastId", "nodes", "edges", "variables", "forecastStartDate", "forecastEndDate",
      "includeNodeResults"] value
  some
    { forecastId := ← fields.required "forecastId" Json.toText?
      nodes := ← fields.required "nodes" (Json.toList? (Node.ofJson? 3))
      edges := ← fields.required "edges" (Json.toList? Edge.ofJson?)
      variableList := ← fields.withDefault "variables" (Json.toList? Variable.ofJson?) []
      startDate := ← fields.required "forecastStartDate" Json.toDate?
      endDate := ← fields.required "forecastEndDate" Json.toDate?
      includeNodeResults :=
        ← fields.withDefault "includeNodeResults" (Json.toOption? Json.toBoolean?) none }

def ofText? [Json.NumberFormat] (text : String) : Option Request :=
  (Json.ofText? text).bind ofJson?

def toJson (float : Float → Json) (request : Request) : Json :=
  .record ([("forecastId", .text request.forecastId),
    ("nodes", .list (Node.toJson float) request.nodes),
    ("edges", .list Edge.toJson request.edges),
    ("variables", .list (Variable.toJson float) request.variableList),
    ("forecastStartDate", .text request.startDate.toText),
    ("forecastEndDate", .text request.endDate.toText)] ++
    request.includeNodeResults.toList.map fun included =>
      ("includeNodeResults", .boolean included))

end Request
end MonthlyForecast
