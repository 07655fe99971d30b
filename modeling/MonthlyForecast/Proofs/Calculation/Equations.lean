import Mathlib.Data.Fintype.Sets
import MonthlyForecast.Proofs.Calculation.Completion

/-! The equations of a forecast, one for each node and month, over the node and edge lists.
They speak of ids and months alone; trees, their order and the ledger do not occur. What
holds of a node if it holds of its inputs holds throughout well-formed lists. -/
namespace MonthlyForecast
open Relation Validation

/-- A value for each id and each place in the range of months. -/
abbrev Values := String → Nat → Option Float

/-- The value of a seed of the metric in the first month. -/
def openingOf (policy : Policy) (series : SeriesTable) (metric : Metric) (first : Date) :
    Option Float :=
  match policy.seedOpening with
  | .missing => none
  | .priorHistorical => metric.historicalVariableId.bind fun id => series.value? id first (-1)

/-- The value of a metric that does not use its input. -/
def fallbackOf (policy : Policy) (series : SeriesTable) (metric : Metric) (month : Date) :
    Option Float :=
  match policy.fallbackSource with
  | .budget => metric.budgetVariableId.bind fun id => series.value? id month 0
  | .historical => metric.historicalVariableId.bind fun id => series.value? id month 0
  | .missing => none

namespace Request

def series (request : Request) : SeriesTable :=
  .ofVariables request.variableList

/-- The equation of a node in a month. -/
def Equation (request : Request) (policy : Policy) (values : Values) (node : Node) (place : Nat)
    (month : Date) : Prop :=
  match node.kind with
  | .data _ variableId offset =>
      values node.id place = request.series.value? variableId month offset.toInt
  | .constant _ number => values node.id place = if number.isFinite then some number else none
  | .operator operation ids =>
      values node.id place = operation.combine (ids.map fun id => values id place)
  | .seed source =>
      match place with
      | 0 => ∃ metric ∈ request.nodes, metric.id = source ∧
          ∃ attributes, metric.kind = .metric attributes ∧
            values node.id 0 = openingOf policy request.series attributes month
      | previous + 1 => values node.id (previous + 1) = values source previous
  | .metric attributes =>
      values node.id place =
        match attributes.useCalculated, inputIds request.edges node.id with
        | true, input :: _ => values input place
        | _, _ => fallbackOf policy request.series attributes month

/-- The values satisfy every equation of a node that leads to a metric. -/
def Solves (request : Request) (policy : Policy) (values : Values) : Prop :=
  ∀ node ∈ request.nodes, Connected request.nodes request.edges node.id →
    ∀ place month, request.months[place]? = some month →
      request.Equation policy values node place month

end Request

theorem Connected.of_joined {nodes : List Node} {edges : List Edge} {source target : String}
    (connected : Connected nodes edges target) (joined : Joined edges source target) :
    Connected nodes edges source := by
  obtain ⟨metric, member, isMetric, path⟩ := connected
  exact ⟨metric, member, isMetric, path.head joined⟩

namespace Validation.WellFormed

variable {nodes : List Node} {edges : List Edge}

/-- What holds of a node if it holds of its inputs holds of all nodes. -/
theorem induction (wellFormed : WellFormed nodes edges) (holds : Node → Prop)
    (step : ∀ node ∈ nodes, (∀ input ∈ nodes, Joined edges input.id node.id → holds input) →
      holds node) : ∀ node ∈ nodes, holds node := by
  have acyclic : Acyclic fun input node : {node // node ∈ nodes} =>
      Joined edges input.1.id node.1.id := by
    intro node cycle
    exact wellFormed.acyclic node.1.id (cycle.lift
      (fun node : {node // node ∈ nodes} => node.1.id) fun _ _ joined => joined)
  have all : ∀ node : {node // node ∈ nodes}, holds node.1 := by
    intro node
    induction node using acyclic.wellFounded.induction with
    | _ node ih =>
      apply step node.1 node.2
      intro input member joined
      exact ih ⟨input, member⟩ joined
  exact fun node member => all ⟨node, member⟩

end Validation.WellFormed
end MonthlyForecast
