import MonthlyForecast.Graph.Precedence
import MonthlyForecast.Tree.Basic

/-! Building evaluation trees from a graph. The tree of a metric holds what the
metric's input is computed from: an operator's inputs in its declared order, down to
leaves and other metrics, which are not opened. The trees of all metrics are ordered
so that a tree comes after those it reads. -/
namespace MonthlyForecast

inductive BuildFault where
  /-- An operator names an input that is not linked to it. -/
  | unlinkedInput (operator input : String)
  /-- Metrics that read each other. -/
  | metricCycle (metrics : List String)
  /-- A node that is an input of itself. -/
  | nodeCycle (metric node : String)
  | notMetric (node : String)
deriving DecidableEq

def BuildFault.message : BuildFault → String
  | unlinkedInput operator input =>
    s!"Operator node '{operator}' is missing input '{input}' listed in its inputOrder"
  | metricCycle metrics =>
    "Metrics depend on each other in a cycle through seed or metric references: " ++
      ", ".intercalate metrics
  | nodeCycle metric node =>
    s!"Cycle detected while building the tree of metric '{metric}' at node '{node}'"
  | notMetric node => s!"Node '{node}' is not a metric"

namespace MetricTree

/-- An operator's input: a node with that id that is linked to the operator. -/
def operand (graph : Graph) (operator : NodeIndex) (input : String) :
    Except BuildFault NodeIndex :=
  match graph.index? input with
  | some node =>
    if node ∈ graph.parents operator then .ok node
    else .error (.unlinkedInput (graph.idOf operator) input)
  | none => .error (.unlinkedInput (graph.idOf operator) input)

/-- The inputs of a node within the tree of `root`. Only the root opens a metric. -/
def inputsWithin (graph : Graph) (root node : NodeIndex) : Except BuildFault (List NodeIndex) :=
  match graph.kind? node with
  | some (.operator _ inputOrder) => inputOrder.mapM (operand graph node)
  | some (.metric _) => .ok (if node = root then graph.parents node else [])
  | _ => .ok []

/-- Places a node behind its inputs, unless it is placed already; gives the slots and
the node's place. The open nodes are distinct, so the depth never exceeds the number
of nodes of the graph. -/
def place (graph : Graph) (root : NodeIndex) :
    Nat → List NodeIndex → NodeIndex → List TreeSlot → Except BuildFault (List TreeSlot × Nat)
  | 0, _, node, _ => .error (.nodeCycle (graph.idOf root) (graph.idOf node))
  | depth + 1, openNodes, node, slots =>
    match slots.findIdx? (·.node == node) with
    | some found => .ok (slots, found)
    | none =>
      if node ∈ openNodes then .error (.nodeCycle (graph.idOf root) (graph.idOf node))
      else do
        let inputs ← inputsWithin graph root node
        let (slots, places) ← inputs.foldlM
          (fun (slots, places) input => do
            let (slots, found) ← place graph root depth (node :: openNodes) input slots
            pure (slots, places ++ [found]))
          (slots, [])
        pure (slots ++ [⟨node, places⟩], slots.length)

/-- The tree of one metric. -/
def build (graph : Graph) (metric : NodeIndex) : Except BuildFault MetricTree :=
  if graph.isMetric metric then do
    let (slots, _) ← place graph metric (graph.size + 1) [] metric []
    pure ⟨metric, slots⟩
  else .error (.notMetric (graph.idOf metric))

/-- What the trees read, as dependencies of their metrics. -/
def dependencies (graph : Graph) (trees : List MetricTree) : List Dependency :=
  trees.flatMap fun tree => (tree.reads graph).map fun source => ⟨source, tree.root⟩

/-- The trees of all metrics, each after those it reads. -/
def schedule (graph : Graph) : Except BuildFault (List MetricTree) := do
  let trees ← graph.metrics.mapM (build graph)
  match (Precedence.mk graph.metrics (dependencies graph trees)).order with
  | .error group => .error (.metricCycle (group.map graph.idOf))
  | .ok order => pure (order.filterMap fun metric => trees.find? (·.root == metric))

end MetricTree
end MonthlyForecast
