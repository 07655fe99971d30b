import MonthlyForecast.Calendar.DateText
import MonthlyForecast.Evaluation.Ledger
import MonthlyForecast.Evaluation.Policy
import MonthlyForecast.Evaluation.Series
import MonthlyForecast.Tree.Basic

/-! Evaluation of metric trees, month by month. Months are the outer loop and the
trees follow in the order given, so that a seed finds the previous month of its
source complete. References are checked before a run. A run fails on a tree whose
slots are not in post-order, on an operator without inputs, and on a metric that is
read before it is evaluated; it never reads a slot that has not been evaluated. -/
namespace MonthlyForecast

/-- A reference to data that is not there. -/
inductive DataFault where
  | unknownVariable (variableId nodeId : String)
  | unknownMetric (metricId nodeId : String)
deriving DecidableEq

def DataFault.message : DataFault → String
  | unknownVariable variableId nodeId =>
    s!"Variable '{variableId}' referenced by node '{nodeId}' was not found"
  | unknownMetric metricId nodeId =>
    s!"Metric '{metricId}' referenced by seed node '{nodeId}' was not found"

/-- A run that cannot go on. -/
inductive EvaluationFault where
  /-- A metric was read before it was evaluated for that month. -/
  | readTooEarly (reader metric : String) (month : Date)
  | operatorWithoutInputs (node : String)
  | unknownSource (node source : String)
  | notPostOrder (metric node : String)
deriving DecidableEq

def EvaluationFault.message : EvaluationFault → String
  | readTooEarly reader metric month =>
    s!"Cycle detected: metric '{metric}' was read by node '{reader}' for " ++
      month.toText ++ " before it was computed"
  | operatorWithoutInputs node => s!"Node '{node}' cannot be evaluated: operator has no inputs"
  | unknownSource node source =>
    s!"Node '{node}' cannot be evaluated: unknown source metric '{source}'"
  | notPostOrder metric node =>
    s!"Structural mismatch: tree of metric '{metric}' is not in post-order at node '{node}'"

/-- What a run evaluates. -/
structure Model where
  graph : Graph
  series : SeriesTable
  policy : Policy

namespace Model

def resolveVariable (model : Model) (variableId nodeId : String) : Except DataFault Unit :=
  if model.series.contains variableId then .ok ()
  else .error (.unknownVariable variableId nodeId)

/-- The references of one node: its variables, budget before historical, and the
source of a seed, which must be a metric. -/
def resolveNode (model : Model) (node : NodeIndex) : Except DataFault Unit :=
  let id := model.graph.idOf node
  match model.graph.kind? node with
  | some (.data _ variableId _) => model.resolveVariable variableId id
  | some (.metric attributes) =>
    (attributes.budgetVariableId.toList ++ attributes.historicalVariableId.toList).forM
      fun variableId => model.resolveVariable variableId id
  | some (.seed sourceMetricId) =>
    match (model.graph.index? sourceMetricId).bind model.graph.metric? with
    | some _ => .ok ()
    | none => .error (.unknownMetric sourceMetricId id)
  | _ => .ok ()

/-- Resolves the references of all slots; the first one that fails is reported. -/
def resolveReferences (model : Model) (trees : List MetricTree) : Except DataFault Unit :=
  trees.forM fun tree => tree.slots.forM fun slot => model.resolveNode slot.node

/-- The value of an optional variable in a month. -/
def columnValue (model : Model) (variableId : Option String) (month : Date) : Option Float :=
  variableId.bind fun id => model.series.value? id month 0

/-- The value of a seed in the first month. -/
def openingValue (model : Model) (source : NodeIndex) (firstMonth : Date) : Option Float :=
  match model.policy.seedOpening with
  | .missing => none
  | .priorHistorical => do
    let attributes ← model.graph.metric? source
    let variableId ← attributes.historicalVariableId
    model.series.value? variableId firstMonth (-1)

/-- The forecast of a metric: the value of its first input, or the fallback. -/
def rootValue (model : Model) (attributes : Metric) (inputs : List (Option Float))
    (month : Date) : Option Float :=
  match attributes.useCalculated, inputs with
  | true, input :: _ => input
  | _, _ =>
    match model.policy.fallbackSource with
    | .budget => model.columnValue attributes.budgetVariableId month
    | .historical => model.columnValue attributes.historicalVariableId month
    | .missing => none

/-- A metric's value in the ledger, which must be ready. -/
def readyValue (model : Model) (reader metric : NodeIndex) (place : Nat) (month : Date)
    (ledger : Ledger) : Except EvaluationFault (Option Float) :=
  match ledger.get metric place with
  | .ready value => .ok value
  | .pending => .error (.readTooEarly (model.graph.idOf reader) (model.graph.idOf metric) month)

/-- The value of a seed: its source's value in the previous month. -/
def previousValue (model : Model) (seed : NodeIndex) (sourceMetricId : String) (place : Nat)
    (ledger : Ledger) : Except EvaluationFault (Option Float) :=
  match model.graph.index? sourceMetricId with
  | none => .error (.unknownSource (model.graph.idOf seed) sourceMetricId)
  | some source =>
    match place with
    | 0 => .ok (ledger.months.head?.bind (model.openingValue source))
    | previous + 1 =>
      match ledger.months[previous]? with
      | some month => model.readyValue seed source previous month ledger
      | none => .ok none

/-- The value of one slot in a month, from the values of its inputs. -/
def slotValue (model : Model) (root node : NodeIndex) (isRoot : Bool)
    (inputs : List (Option Float)) (place : Nat) (month : Date) (ledger : Ledger) :
    Except EvaluationFault (Option Float) :=
  match model.graph.kind? node with
  | some (.data _ variableId offset) => .ok (model.series.value? variableId month offset.toInt)
  | some (.constant _ value) => .ok (finite? value)
  | some (.operator operation _) =>
    if inputs.isEmpty then .error (.operatorWithoutInputs (model.graph.idOf node))
    else .ok (operation.combine inputs)
  | some (.seed sourceMetricId) => model.previousValue node sourceMetricId place ledger
  | some (.metric attributes) =>
    if isRoot then .ok (model.rootValue attributes inputs month)
    else model.readyValue root node place month ledger
  | none => .ok none

/-- Evaluates slots in order. `values` holds the values of the slots before them. -/
def runSlots (model : Model) (root : NodeIndex) (place : Nat) (month : Date) :
    List TreeSlot → Array (Option Float) → Ledger → Except EvaluationFault Ledger
  | [], _, ledger => .ok ledger
  | slot :: rest, values, ledger =>
    match slot.inputs.mapM (values[·]?) with
    | none => .error (.notPostOrder (model.graph.idOf root) (model.graph.idOf slot.node))
    | some inputs => do
      let value ← model.slotValue root slot.node rest.isEmpty inputs place month ledger
      runSlots model root place month rest (values.push value)
        (ledger.insert slot.node place value)

def runTree (model : Model) (place : Nat) (month : Date) (tree : MetricTree)
    (ledger : Ledger) : Except EvaluationFault Ledger :=
  model.runSlots tree.root place month tree.slots #[] ledger

/-- Evaluates all trees for one month. -/
def runMonth (model : Model) (trees : List MetricTree) (ledger : Ledger)
    (place : Nat) (month : Date) : Except EvaluationFault Ledger :=
  trees.foldlM (fun ledger tree => model.runTree place month tree ledger) ledger

/-- Evaluates all trees for all months. -/
def run (model : Model) (trees : List MetricTree) (months : List Date) :
    Except EvaluationFault Ledger :=
  months.zipIdx.foldlM
    (fun ledger (month, place) => model.runMonth trees ledger place month)
    (Ledger.empty model.graph.size months)

end Model
end MonthlyForecast
