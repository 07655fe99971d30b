import MonthlyForecast.Graph.Cycles
import MonthlyForecast.Graph.Reach
import MonthlyForecast.Text.Quoted
import MonthlyForecast.Validation.Issue

/-! The rules that a graph must keep to be evaluated. Ids are checked on the lists as
given; all other rules are checked on the graph without repeated nodes and dangling
edges, so that one mistake does not hide another. -/
namespace MonthlyForecast.Validation

/-- Node ids are unique. A repeated id is reported at its second occurrence. -/
def repeatedIds (nodes : List Node) : List Issue :=
  let ids := nodes.map (·.id)
  ids.zipIdx.filterMap fun (id, place) =>
    if (ids.take place).count id = 1 then
      some (.error (some id) .duplicateNode s!"Duplicate node id '{id}'")
    else none

/-- Both ends of every edge are nodes. -/
def danglingEdges (nodes : List Node) (edges : List Edge) : List Issue :=
  edges.flatMap fun edge =>
    [("source", edge.sourceId), ("target", edge.targetId)].filterMap fun (side, id) =>
      if nodes.any (·.id == id) then none
      else some (.error (some edge.id) .danglingEdge
        s!"Edge '{edge.id}' references missing {side} node '{id}'")

/-- There is a metric to evaluate. -/
def missingMetric (graph : Graph) : List Issue :=
  if graph.metrics.isEmpty then
    [.error none .missingMetric "Graph has no METRIC node to evaluate"]
  else []

/-- Links do not form cycles. A seed's reference is no link. -/
def cyclicLinks (graph : Graph) : List Issue :=
  graph.cycles.map fun cycle =>
    let keys := cycle.map graph.idOf
    .error keys.head? .cycle ("Cycle detected: " ++ " -> ".intercalate keys)

/-- Different texts in ascending order. -/
def sortedTexts (texts : List String) : List String :=
  texts.eraseDups.mergeSort fun first second => decide (first ≤ second)

/-- An operator's declared inputs are exactly those linked to it, each once. -/
def operatorInputs (id : String) (operation : Operation) (declared linked : List String) :
    List Issue :=
  let missing := sortedTexts (declared.filter (· ∉ linked))
  let unexpected := sortedTexts (linked.filter (· ∉ declared))
  let symbol := operation.symbol
  (if declared.Nodup then []
    else [Issue.error (some id) .operatorInputMismatch
      s!"Operator node '{id}' lists an input more than once in its inputOrder"]) ++
  (if linked.Nodup then []
    else [Issue.error (some id) .operatorInputMismatch
      s!"Operator node '{id}' has more than one edge from the same input"]) ++
  (if missing.isEmpty && unexpected.isEmpty then []
    else [Issue.error (some id) .operatorInputMismatch
      (s!"Operator node '{id}' inputOrder does not match its incoming edges (not wired: " ++
        Text.quotedList missing ++ ", not listed: " ++ Text.quotedList unexpected ++ ")")]) ++
  (match linked.length with
    | 0 => [Issue.error (some id) .inputArity s!"Operator node '{id}' ({symbol}) has no inputs"]
    | 1 => [Issue.warning (some id) .inputArity
        s!"Operator node '{id}' ({symbol}) has a single input and passes it through"]
    | _ => [])

/-- A metric has at most one input; without one it relies on its variables. -/
def metricInputs (id label : String) (count : Nat) : List Issue :=
  match count with
  | 0 => [.warning (some id) .inputArity
      s!"Metric '{label}' ({id}) has no inputs; its forecast falls back to budget/historical data"]
  | 1 => []
  | _ => [.error (some id) .inputArity
      s!"Metric '{label}' ({id}) has {count} inputs; at most one is allowed"]

/-- Leaves have no inputs. -/
def leafInputs (id : String) (type : NodeType) (count : Nat) : List Issue :=
  if count = 0 then []
  else [.error (some id) .inputArity
    (type.name ++ s!" node '{id}' cannot have inputs but has {count}")]

/-- The links into a node are those that its kind allows. -/
def nodeInputs (graph : Graph) (node : NodeIndex) : List Issue :=
  let id := graph.idOf node
  let parents := graph.parents node
  match graph.kind? node with
  | none => []
  | some (.operator operation declared) =>
    operatorInputs id operation declared (parents.map graph.idOf)
  | some (.metric attributes) => metricInputs id attributes.label parents.length
  | some kind => leafInputs id kind.type parents.length

/-- The source of a seed is a metric of the graph. -/
def seedSource (graph : Graph) (node : NodeIndex) : List Issue :=
  let id := graph.idOf node
  match graph.kind? node with
  | some (.seed source) =>
    match (graph.index? source).bind graph.kind? with
    | some (.metric _) => []
    | some kind => [.error (some id) .orphanedSeed
        (s!"Seed node '{id}' references '{source}', which is a " ++ kind.type.name ++
          " node, not a METRIC")]
    | none => [.error (some id) .orphanedSeed
        s!"Seed node '{id}' references metric '{source}', which does not exist"]
  | _ => []

/-- Nodes that lead to no metric are ignored, which is worth a warning if there is a
metric at all. -/
def disconnectedNodes (graph : Graph) : List Issue :=
  if graph.metrics.isEmpty then []
  else
    let connected := graph.leadingTo graph.metrics
    (graph.indices.filter (· ∉ connected)).map fun node =>
      let id := graph.idOf node
      let type := ((graph.kind? node).map (·.type.name)).getD ""
      .warning (some id) .disconnected
        s!"{type} node '{id}' is not connected to any metric and will be ignored"

/-- All findings: ids, edges, metrics, cycles, then node by node, then connection. -/
def issues (nodes : List Node) (edges : List Edge) : List Issue :=
  let graph := Graph.ofLists nodes edges
  repeatedIds nodes ++ danglingEdges nodes edges ++ missingMetric graph ++ cyclicLinks graph ++
    graph.indices.flatMap (fun node => nodeInputs graph node ++ seedSource graph node) ++
    disconnectedNodes graph

def verdict (nodes : List Node) (edges : List Edge) : Verdict :=
  .ofIssues (issues nodes edges)

end MonthlyForecast.Validation
