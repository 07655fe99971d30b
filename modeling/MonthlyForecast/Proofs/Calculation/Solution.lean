import MonthlyForecast.Proofs.Calculation.Agreement
import MonthlyForecast.Proofs.Report.Columns

/-! The ledger of a completed run solves the equations of its request. A node's value is
the same in every tree that holds it, so the ledger gives one value for each node and
month. -/
namespace MonthlyForecast
open Validation MetricTree

namespace Request

/-- The values of a ledger, by id. -/
def ledgerValues (request : Request) (ledger : Ledger) : Values := fun id place =>
  ((Graph.ofLists request.nodes request.edges).index? id).bind fun node => ledger.value node place

variable {request : Request} {policy : Policy} {ledger : Ledger} {trees : List MetricTree}
  {node : Node} {id : String} {i j place : Nat} {month : Date} {value : Option Float}

theorem ledgerValues_of_ready
    (found : (Graph.ofLists request.nodes request.edges).index? id = some i)
    (ready : ledger.get i place = .ready value) : request.ledgerValues ledger id place = value := by
  simp only [ledgerValues, found, Option.bind_some, Ledger.value, ready, Cell.value]

/-- The values of named nodes are those of the nodes that the names find. -/
theorem map_ledgerValues {ids : List String} {inputs : List NodeIndex}
    {values : List (Option Float)}
    (found : List.Forall₂ (fun id input =>
      (Graph.ofLists request.nodes request.edges).index? id = some input) ids inputs)
    (ready : Model.ReadyAt ledger place inputs values) :
    ids.map (fun id => request.ledgerValues ledger id place) = values := by
  induction found generalizing values with
  | nil =>
    cases ready
    rfl
  | cons one _ ih =>
    cases ready with
    | cons own rest => rw [List.map_cons, ledgerValues_of_ready one own, ih rest]

theorem openingValue_eq {model : Model} {source : NodeIndex} {attributes : Metric}
    (kind : model.graph.kind? source = some (.metric attributes)) (first : Date) :
    model.openingValue source first = openingOf model.policy model.series attributes first := by
  unfold Model.openingValue openingOf
  cases model.policy.seedOpening with
  | missing => rfl
  | priorHistorical =>
    simp only [Graph.metric?, kind, Option.bind_some, NodeKind.metric?]
    rfl

/-- The source of a seed is a metric of the request, with its own opening value. -/
theorem exists_opening (wellFormed : WellFormed request.nodes request.edges) {source : String}
    (seed : (Graph.ofLists request.nodes request.edges).kind? i = some (.seed source))
    (found : (Graph.ofLists request.nodes request.edges).index? source = some j) (first : Date) :
    ∃ metric ∈ request.nodes, metric.id = source ∧
      ∃ attributes, metric.kind = .metric attributes ∧
        (request.model policy).openingValue j first =
          openingOf policy request.series attributes first := by
  obtain ⟨_, found', isMetric⟩ := wellFormed.checked.sources seed
  cases found.symm.trans found'
  obtain ⟨attributes, kind⟩ := Graph.isMetric_iff_kind?.mp isMetric
  obtain ⟨metric, member, same, stands⟩ := wellFormed.exists_node found
  have shape : metric.kind = .metric attributes :=
    Option.some.inj ((Graph.kind?_of_place stands).symm.trans kind)
  have modelKind : (request.model policy).graph.kind? j = some (.metric attributes) := kind
  exact ⟨metric, member, same, attributes, shape, openingValue_eq modelKind first⟩

/-- A metric's forecast is the value of its first input, or its fallback. -/
theorem rootValue_eq (wellFormed : WellFormed request.nodes request.edges)
    (found : (Graph.ofLists request.nodes request.edges).index? id = some i)
    {values : List (Option Float)}
    (ready : Model.ReadyAt ledger place ((Graph.ofLists request.nodes request.edges).parents i)
      values) (attributes : Metric) (month : Date) :
    (request.model policy).rootValue attributes values month =
      match attributes.useCalculated, inputIds request.edges id with
      | true, input :: _ => request.ledgerValues ledger input place
      | _, _ => fallbackOf policy request.series attributes month := by
  have resolved := Graph.ofLists_resolved request.nodes request.edges
  have named : ∀ parent ∈ (Graph.ofLists request.nodes request.edges).parents i,
      (Graph.ofLists request.nodes request.edges).index?
        ((Graph.ofLists request.nodes request.edges).idOf parent) = some parent := by
    intro parent among
    exact resolved.index?_idOf (resolved.links_inside (Graph.mem_parents_iff.mp among)).1
  rw [← wellFormed.map_idOf_parents found]
  generalize (Graph.ofLists request.nodes request.edges).parents i = parents at named ready
  unfold Model.rootValue
  cases attributes.useCalculated with
  | false => rfl
  | true =>
    cases ready with
    | nil => rfl
    | cons one _ => exact (ledgerValues_of_ready (named _ List.mem_cons_self) one).symm

/-- What determines a cell is the equation of its node. -/
theorem equation_of_determined (wellFormed : WellFormed request.nodes request.edges)
    (stands : (Graph.ofLists request.nodes request.edges).nodes[i]? = some node)
    (months_eq : ledger.months = request.months) (dated : request.months[place]? = some month)
    (ready : ledger.get i place = .ready value)
    (determined : (request.model policy).Determined ledger i place month value) :
    request.Equation policy (request.ledgerValues ledger) node place month := by
  have found := WellFormed.index?_of_place stands
  have own := ledgerValues_of_ready found ready
  have kind : (request.model policy).graph.kind? i = some node.kind := Graph.kind?_of_place stands
  unfold Model.Determined at determined
  unfold Equation
  rw [kind] at determined
  cases shape : node.kind with
  | data | constant =>
    rw [shape] at determined
    exact own.trans determined
  | operator operation ids =>
    simp only [shape] at determined ⊢
    obtain ⟨inputs, values, declared, readyInputs, rfl⟩ := determined
    have named := (operands_eq_ok declared).imp fun _ _ linked => linked.1
    rw [own, map_ledgerValues named readyInputs]
  | seed source =>
    simp only [shape] at determined ⊢
    obtain ⟨index, sourceAt, determined⟩ := determined
    cases place with
    | zero =>
      rw [shape] at kind
      obtain ⟨metric, member, same, attributes, isMetric, opening⟩ :=
        exists_opening wellFormed kind sourceAt month
      refine ⟨metric, member, same, attributes, isMetric, ?_⟩
      rw [own, determined, months_eq, List.head?_eq_getElem?, dated, Option.bind_some, opening]
    | succ previous => exact own.trans (ledgerValues_of_ready sourceAt determined).symm
  | metric attributes =>
    simp only [shape] at determined ⊢
    obtain ⟨values, readyInputs, rfl⟩ := determined
    rw [own]
    exact rootValue_eq wellFormed found readyInputs attributes month

theorem solves_ledgerValues (wellFormed : WellFormed request.nodes request.edges)
    (scheduled : Scheduled (request.model policy).graph trees)
    (progress : (request.model policy).Progress request.months
      (fun node place => Model.InTrees trees node ∧ place < request.months.length) ledger) :
    request.Solves policy (request.ledgerValues ledger) := by
  intro node member connected place month dated
  obtain ⟨i, stands⟩ := wellFormed.mem_iff_place.mp member
  have leads := (wellFormed.connected_iff (WellFormed.index?_of_place stands)).mp connected
  have held := (wellFormed.checked.inTrees_iff scheduled).mpr leads
  have inside := (List.getElem?_eq_some_iff.mp dated).1
  obtain ⟨value, ready⟩ := (progress.ready_iff i place).mpr ⟨held, inside⟩
  exact equation_of_determined wellFormed stands progress.months_eq dated ready
    (progress.determined ready dated)

/-- The values of an id beside the months of the range. -/
def column (request : Request) (values : Values) (id : String) : List (Date × Option Float) :=
  request.months.zipIdx.map fun (month, place) => (month, values id place)

/-- A report with node results shows the values: for each metric as its forecast, and for
each node that leads to a metric as its calculated value. -/
structure Shows (request : Request) (report : Report) (values : Values) : Prop where
  metric_iff : ∀ id, (∃ entry ∈ report.metrics, entry.metricNodeId = id) ↔
    ∃ metric ∈ request.nodes, metric.id = id ∧ IsMetric metric
  forecasts : ∀ entry ∈ report.metrics, entry.forecasts = request.column values entry.metricNodeId
  node_iff : ∀ id,
    (∃ entries, report.allNodes = some entries ∧ ∃ entry ∈ entries, entry.nodeId = id) ↔
      Connected request.nodes request.edges id
  calculated : ∀ entries, report.allNodes = some entries →
    ∀ entry ∈ entries, entry.calculated = request.column values entry.nodeId

theorem column_ledgerValues (months_eq : ledger.months = request.months)
    (inside : i < (Graph.ofLists request.nodes request.edges).size) :
    ledger.column i =
      request.column (request.ledgerValues ledger)
        ((Graph.ofLists request.nodes request.edges).idOf i) := by
  have found := (Graph.ofLists_resolved request.nodes request.edges).index?_idOf inside
  simp only [Ledger.column, column, ledgerValues, months_eq, found, Option.bind_some]

theorem shows_report (wellFormed : WellFormed request.nodes request.edges)
    (scheduled : Scheduled (request.model policy).graph trees)
    (months_eq : ledger.months = request.months) (forecastId : String) (moment : Timestamp) :
    request.Shows ((request.model policy).report ledger trees forecastId moment true)
      (request.ledgerValues ledger) where
  metric_iff := by
    intro id
    rw [wellFormed.exists_metric_iff]
    constructor
    · rintro ⟨entry, member, rfl⟩
      obtain ⟨tree, among, same, _⟩ := Model.exists_metric_of_entry member
      have isMetric := (scheduled.built tree among).1
      refine ⟨tree.root, ?_, isMetric⟩
      rw [same]
      exact wellFormed.checked.resolved.index?_idOf (Graph.isMetric_lt isMetric)
    · rintro ⟨i, found, isMetric⟩
      obtain ⟨tree, among, rfl⟩ := scheduled.complete i isMetric
      obtain ⟨entry, member, same⟩ := Model.exists_metric_entry among
      exact ⟨entry, member, same.trans (Graph.idOf_index? found)⟩
  forecasts := by
    intro entry member
    obtain ⟨tree, among, same, row⟩ := Model.exists_metric_of_entry member
    rw [row, same]
    exact column_ledgerValues months_eq (Graph.isMetric_lt (scheduled.built tree among).1)
  node_iff := by
    intro id
    have held_iff : ∀ {i id}, (Graph.ofLists request.nodes request.edges).index? id = some i →
        (Model.InTrees trees i ↔ Connected request.nodes request.edges id) :=
      fun found =>
        (wellFormed.checked.inTrees_iff scheduled).trans (wellFormed.connected_iff found).symm
    constructor
    · rintro ⟨entries, given, entry, member, rfl⟩
      obtain ⟨i, held, same, _⟩ := Model.exists_node_of_entry given member
      rw [same]
      have inside := Model.inTrees_lt scheduled.toForest held
      exact (held_iff (wellFormed.checked.resolved.index?_idOf inside)).mp held
    · intro connected
      obtain ⟨node, member, rfl⟩ := wellFormed.exists_node_of_connected connected
      obtain ⟨i, stands⟩ := wellFormed.mem_iff_place.mp member
      have found := WellFormed.index?_of_place stands
      obtain ⟨entries, given, entry, among, same⟩ :=
        Model.exists_node_entry ((held_iff found).mpr connected)
      exact ⟨entries, given, entry, among, same.trans (Graph.idOf_index? found)⟩
  calculated := by
    intro entries given entry member
    obtain ⟨i, held, same, row⟩ := Model.exists_node_of_entry given member
    rw [row, same]
    exact column_ledgerValues months_eq (Model.inTrees_lt scheduled.toForest held)

/-- A report with node results shows the one solution of the request's equations. -/
theorem report_solves (policy : Policy) (request : Request) (moment : Timestamp) (report : Report)
    (reported : request.report policy moment = .ok report)
    (included : request.nodesIncluded policy = true) :
    ∃ values, request.Solves policy values ∧
      (∀ others, request.Solves policy others → ∀ id, Connected request.nodes request.edges id →
        ∀ place < request.months.length, others id place = values id place) ∧
      request.Shows report values := by
  have ends := report_ends policy request moment
  rw [reported] at ends
  cases ends with
  | reported _ wellFormed _ _ scheduled progress =>
    have solves := solves_ledgerValues wellFormed scheduled progress
    refine ⟨_, solves, ?_, ?_⟩
    · intro others otherSolves id connected place inside
      obtain ⟨node, member, rfl⟩ := wellFormed.exists_node_of_connected connected
      exact otherSolves.unique wellFormed solves place inside node member connected
    · rw [included]
      exact shows_report wellFormed scheduled progress.months_eq request.forecastId moment

/-! A total that grows by a rate from what it was before the first month, and a second metric
that reads the total. -/

def growthRequest : Request where
  forecastId := "growth"
  nodes := [⟨"total", .metric ⟨"Total", some "plan", some "actuals", true⟩, none⟩,
    ⟨"sum", .operator .add ["last", "rate"], none⟩, ⟨"last", .seed "total", none⟩,
    ⟨"rate", .constant "Rate" 1, none⟩, ⟨"product", .operator .multiply ["rate", "total"], none⟩,
    ⟨"share", .metric ⟨"Share", none, none, true⟩, none⟩]
  edges := [⟨"a", "last", "sum"⟩, ⟨"b", "rate", "sum"⟩, ⟨"c", "sum", "total"⟩,
    ⟨"d", "rate", "product"⟩, ⟨"e", "total", "product"⟩, ⟨"f", "product", "share"⟩]
  variableList := [⟨"plan", "Plan", .budget, "", [⟨⟨2025, 2, 28, by decide⟩, some 3⟩]⟩,
    ⟨"actuals", "Actuals", .actual, "", [⟨⟨2024, 12, 31, by decide⟩, some 1.5⟩]⟩]
  startDate := ⟨2025, 1, 15, by decide⟩
  endDate := ⟨2025, 2, 1, by decide⟩
  includeNodeResults := some true

def growthPolicy : Policy :=
  { Policy.standard with seedOpening := .priorHistorical }

def growthMoment : Timestamp :=
  ⟨⟨2025, 3, 1, by decide⟩, 0, 0, 0⟩

theorem report_solves_growth :
    (growthRequest.plan growthPolicy >>= Plan.evaluate).toOption.map (·.row 0) =
        some [some 2.5, some 3.5] ∧
      ∃ report, growthRequest.report growthPolicy growthMoment = .ok report ∧
        growthRequest.nodesIncluded growthPolicy = true ∧
        ∃ values, growthRequest.Solves growthPolicy values ∧
          (∀ others, growthRequest.Solves growthPolicy others →
            ∀ id, Connected growthRequest.nodes growthRequest.edges id →
              ∀ place < growthRequest.months.length, others id place = values id place) ∧
          growthRequest.Shows report values := by
  have grown : (growthRequest.plan growthPolicy >>= Plan.evaluate).toOption.map (·.row 0) =
      some [some 2.5, some 3.5] := by
    decide +kernel
  have completes : (growthRequest.report growthPolicy growthMoment).toBool = true := by
    decide +kernel
  have included : growthRequest.nodesIncluded growthPolicy = true := by decide
  cases reported : growthRequest.report growthPolicy growthMoment with
  | error fault =>
    rw [reported] at completes
    contradiction
  | ok report =>
    exact ⟨grown, report, rfl, included,
      report_solves growthPolicy growthRequest growthMoment report reported included⟩

end Request
end MonthlyForecast
