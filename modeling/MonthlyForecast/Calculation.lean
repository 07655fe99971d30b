import MonthlyForecast.Report.Basic
import MonthlyForecast.Report.Trace
import MonthlyForecast.Tree.Build
import MonthlyForecast.Validation.Rules

/-! A forecast calculation from request to report. The date range is checked first,
then the graph, then the trees are built and their references resolved; only then is
anything evaluated. Each step reports its own kind of fault. -/
namespace MonthlyForecast

/-- What one calculation needs. -/
structure Request where
  forecastId : String
  nodes : List Node
  edges : List Edge
  variableList : List Variable
  startDate : Date
  endDate : Date
  /-- Takes precedence over the policy if given. -/
  includeNodeResults : Option Bool
deriving DecidableEq

inductive Fault where
  | invalidGraph (errors : List String)
  | invalidRange (start stop : Date)
  | build (fault : BuildFault)
  | data (fault : DataFault)
  | evaluation (fault : EvaluationFault)
deriving DecidableEq

/-- How a fault is to be reported by the surrounding service. -/
inductive FaultCategory where
  /-- The request or its graph is malformed. -/
  | badRequest
  /-- The graph refers to data that is gone. -/
  | dataOutOfSync
  /-- An internal invariant failed. -/
  | internal
deriving DecidableEq

namespace FaultCategory

def name : FaultCategory → String
  | badRequest => "BadRequest"
  | dataOutOfSync => "DataOutOfSync"
  | internal => "Internal"

end FaultCategory

namespace Fault

def category : Fault → FaultCategory
  | invalidGraph _ | invalidRange _ _ | build _ => .badRequest
  | data _ => .dataOutOfSync
  | evaluation _ => .internal

def message : Fault → String
  | invalidGraph errors => "Graph validation failed: " ++ "; ".intercalate errors
  | invalidRange start stop =>
    "Forecast start " ++ start.toText ++ " is after end " ++ stop.toText
  | build fault => fault.message
  | data fault => fault.message
  | evaluation fault => "Node evaluation failed: " ++ fault.message

end Fault

/-- A request that passed all checks. -/
structure Plan where
  model : Model
  trees : List MetricTree
  months : List Date

namespace Request

/-- The first days of the first and the last month, in order. -/
def range (request : Request) : Except Fault (Date × Date) :=
  let start := request.startDate.startOfMonth
  let stop := request.endDate.startOfMonth
  if stop.monthIndex < start.monthIndex then .error (.invalidRange start stop)
  else .ok (start, stop)

/-- The graph, if it breaks no rule. -/
def validGraph (request : Request) : Except Fault Graph :=
  let verdict := Validation.verdict request.nodes request.edges
  if verdict.isValid then .ok (.ofLists request.nodes request.edges)
  else .error (.invalidGraph verdict.errors)

def plan (policy : Policy) (request : Request) : Except Fault Plan := do
  let (start, stop) ← request.range
  let graph ← request.validGraph
  let trees ← (MetricTree.schedule graph).mapError .build
  let model : Model := ⟨graph, .ofVariables request.variableList, policy⟩
  (model.resolveReferences trees).mapError .data
  pure ⟨model, trees, start.monthsThrough stop⟩

end Request

namespace Plan

def evaluate (plan : Plan) : Except Fault Ledger :=
  (plan.model.run plan.trees plan.months).mapError .evaluation

end Plan

namespace Request

/-- The report of a request, stamped with the given moment. -/
def report (policy : Policy) (request : Request) (moment : Timestamp) :
    Except Fault Report := do
  let plan ← request.plan policy
  let ledger ← plan.evaluate
  let includeNodes := request.includeNodeResults.getD policy.includeNodeResults
  pure (plan.model.report ledger plan.trees request.forecastId moment includeNodes)

/-- Independent reports, one for each request, in their order. -/
def reportAll (policy : Policy) (requests : List Request) (moment : Timestamp) :
    List (Except Fault Report) :=
  requests.map fun request => request.report policy moment

/-- The audit trace of a metric for the month of a date; none if the id names no
metric or the month lies outside the range. -/
def auditTrace (policy : Policy) (request : Request) (metricId : String) (date : Date) :
    Except Fault (Option String) := do
  let plan ← request.plan policy
  let tree := (plan.model.graph.index? metricId).bind fun metric =>
    plan.trees.find? (·.root == metric)
  let month := plan.months.findIdx? (· == date.startOfMonth)
  match tree, month with
  | some tree, some month => do
    let ledger ← plan.evaluate
    pure (some (tree.trace plan.model.graph ledger month))
  | _, _ => pure none

end Request
end MonthlyForecast
