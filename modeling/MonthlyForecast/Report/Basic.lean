import MonthlyForecast.Calendar.DateText
import MonthlyForecast.Evaluation.Model

/-! The report of a run. Every metric has an entry, in node order, with its forecast,
budget and historical value for each month. Node results add an entry for each node
of a tree: its calculated values beside the columns of a metric, its own if it is a
metric and otherwise those of the first metric whose tree holds it. -/
namespace MonthlyForecast

structure MetricMonth where
  date : Date
  forecast : Option Float
  budget : Option Float
  historical : Option Float
deriving DecidableEq

structure NodeMonth where
  date : Date
  calculated : Option Float
  forecast : Option Float
  budget : Option Float
  historical : Option Float
deriving DecidableEq

structure MetricReport where
  metricNodeId : String
  label : String
  values : List MetricMonth
deriving DecidableEq

structure NodeReport where
  nodeId : String
  nodeType : NodeType
  /-- The metric whose columns stand beside the node's values. -/
  metricNodeId : String
  values : List NodeMonth
deriving DecidableEq

structure Report where
  forecastId : String
  calculatedAt : Timestamp
  metrics : List MetricReport
  allNodes : Option (List NodeReport)
deriving DecidableEq

namespace Report

def metric? (report : Report) (id : String) : Option MetricReport :=
  report.metrics.find? (·.metricNodeId == id)

def node? (report : Report) (id : String) : Option NodeReport :=
  report.allNodes.bind fun nodes => nodes.find? (·.nodeId == id)

end Report

namespace Model

/-- The entry of a metric. -/
def metricReport (model : Model) (ledger : Ledger) (metric : NodeIndex) : MetricReport where
  metricNodeId := model.graph.idOf metric
  label := model.graph.label metric
  values := ledger.months.zipIdx.map fun (month, place) =>
    let attributes := model.graph.metric? metric
    { date := month
      forecast := ledger.value metric place
      budget := model.columnValue (attributes.bind (·.budgetVariableId)) month
      historical := model.columnValue (attributes.bind (·.historicalVariableId)) month }

/-- The entry of a node beside the columns of a metric's entry. -/
def nodeReport (model : Model) (ledger : Ledger) (node : NodeIndex) (owner : MetricReport) :
    NodeReport where
  nodeId := model.graph.idOf node
  nodeType := ((model.graph.kind? node).map (·.type)).getD .data
  metricNodeId := owner.metricNodeId
  values := (owner.values.zip (ledger.row node)).map fun (columns, calculated) =>
    { date := columns.date
      calculated := calculated
      forecast := columns.forecast
      budget := columns.budget
      historical := columns.historical }

/-- Each node of the trees once, with the metric whose columns it shows: itself if it
has a tree, else the root of the first tree that holds it. -/
def nodeOwners (trees : List MetricTree) : List (NodeIndex × NodeIndex) :=
  trees.foldl
    (fun owners tree => tree.slots.foldl
      (fun owners slot =>
        if owners.any (·.1 == slot.node) then owners
        else
          let owner := if trees.any (·.root == slot.node) then slot.node else tree.root
          owners ++ [(slot.node, owner)])
      owners)
    []

/-- The report of an evaluated ledger, with the trees taken in node order. -/
def report (model : Model) (ledger : Ledger) (trees : List MetricTree) (forecastId : String)
    (calculatedAt : Timestamp) (includeNodes : Bool) : Report :=
  let ordered := trees.mergeSort fun first second => first.root ≤ second.root
  { forecastId := forecastId
    calculatedAt := calculatedAt
    metrics := ordered.map fun tree => model.metricReport ledger tree.root
    allNodes :=
      if includeNodes then
        some ((nodeOwners ordered).map fun (node, owner) =>
          model.nodeReport ledger node (model.metricReport ledger owner))
      else none }

end Model
end MonthlyForecast
