import MonthlyForecast.Proofs.Calculation.Solution

/-! What stands where in a report. The entries of metrics follow the node list, every entry
has a row for each month of the range, and a node's values stand beside the columns of one
metric. The order in which the trees were evaluated leaves no trace. -/
namespace MonthlyForecast
open Validation MetricTree

def MetricReport.dates (entry : MetricReport) : List Date :=
  entry.values.map (·.date)

def NodeReport.dates (entry : NodeReport) : List Date :=
  entry.values.map (·.date)

/-- The entry of a metric: its own variables in each month, and one of them as its forecast
if the metric does not use an input. -/
structure MetricShown (policy : Policy) (request : Request) (metric : Node) (attributes : Metric)
    (entry : MetricReport) : Prop where
  id_eq : entry.metricNodeId = metric.id
  label_eq : entry.label = attributes.label
  budget : ∀ row ∈ entry.values, row.budget =
    attributes.budgetVariableId.bind fun id => request.series.value? id row.date 0
  historical : ∀ row ∈ entry.values, row.historical =
    attributes.historicalVariableId.bind fun id => request.series.value? id row.date 0
  fallback : attributes.useCalculated = false ∨ inputIds request.edges metric.id = [] →
    ∀ row ∈ entry.values,
      (policy.fallbackSource = .budget → row.forecast = row.budget) ∧
        (policy.fallbackSource = .historical → row.forecast = row.historical)

/-- The first metric of the list whose tree holds the node. -/
def FirstHolding (nodes : List Node) (edges : List Edge) (id : String) (metric : Node) : Prop :=
  ∃ before after, nodes = before ++ metric :: after ∧ IsMetric metric ∧
    InTree nodes edges metric.id id ∧
    ∀ earlier ∈ before, IsMetric earlier → ¬ InTree nodes edges earlier.id id

/-- The entry of a node: its values beside the columns of itself if it is a metric, and
otherwise of the first metric whose tree holds it. -/
structure NodeShown (request : Request) (metrics : List MetricReport) (entry : NodeReport) :
    Prop where
  type_eq : ∃ node ∈ request.nodes, node.id = entry.nodeId ∧ entry.nodeType = node.kind.type
  columns : ∃ owner ∈ metrics, entry.metricNodeId = owner.metricNodeId ∧
    entry.columns = owner.values
  own : (∃ metric ∈ request.nodes, metric.id = entry.nodeId ∧ IsMetric metric) →
    entry.metricNodeId = entry.nodeId ∧ ∀ row ∈ entry.values, row.calculated = row.forecast
  first : (¬ ∃ metric ∈ request.nodes, metric.id = entry.nodeId ∧ IsMetric metric) →
    ∃ metric, FirstHolding request.nodes request.edges entry.nodeId metric ∧
      entry.metricNodeId = metric.id

/-- The entries of a report, in their order, and their months. -/
structure Aligned (policy : Policy) (request : Request) (report : Report) : Prop where
  metrics : List.Forall₂
    (fun metric entry => ∃ attributes, metric.kind = .metric attributes ∧
      MetricShown policy request metric attributes entry)
    (request.nodes.filter (·.kind.type == .metric)) report.metrics
  dates : ∃ dates, Date.MonthsOf request.startDate request.endDate dates ∧
    (∀ entry ∈ report.metrics, entry.dates = dates) ∧
    ∀ entries, report.allNodes = some entries → ∀ entry ∈ entries, entry.dates = dates
  included : report.allNodes.isSome = request.nodesIncluded policy
  nodes_once : ∀ entries, report.allNodes = some entries → (entries.map (·.nodeId)).Nodup ∧
    ∀ id, id ∈ entries.map (·.nodeId) ↔
      ∃ metric ∈ request.nodes, IsMetric metric ∧ InTree request.nodes request.edges metric.id id
  nodes : ∀ entries, report.allNodes = some entries →
    ∀ entry ∈ entries, NodeShown request report.metrics entry

namespace Model

variable {model : Model} {ledger : Ledger} {node metric : NodeIndex}

theorem dates_metricReport (model : Model) (ledger : Ledger) (metric : NodeIndex) :
    (model.metricReport ledger metric).dates = ledger.months := by
  simp only [MetricReport.dates, metricReport, List.map_map]
  exact List.zipIdx_map_fst _ _

theorem dates_nodeReport (model : Model) (ledger : Ledger) (node metric : NodeIndex) :
    (model.nodeReport ledger node (model.metricReport ledger metric)).dates = ledger.months := by
  rw [← model.dates_metricReport ledger metric, MetricReport.dates,
    ← model.columns_nodeReport ledger node metric, NodeReport.columns, List.map_map]
  rfl

/-- Beside its own columns a metric's value in each month is its forecast. -/
theorem calculated_eq_forecast (model : Model) (ledger : Ledger) (metric : NodeIndex) :
    ∀ row ∈ (model.nodeReport ledger metric (model.metricReport ledger metric)).values,
      row.calculated = row.forecast := by
  have alike : (model.nodeReport ledger metric (model.metricReport ledger metric)).calculated =
      (model.nodeReport ledger metric (model.metricReport ledger metric)).columns.map
        fun row => (row.date, row.forecast) := by
    rw [calculated_nodeReport, columns_nodeReport, ← forecasts_metricReport]
    rfl
  rw [NodeReport.calculated, NodeReport.columns, List.map_map] at alike
  intro row member
  exact congrArg Prod.snd (List.map_inj_left.mp alike row member)

end Model

namespace Request

variable {request : Request} {policy : Policy} {ledger : Ledger} {trees : List MetricTree}
  {metric : Node} {attributes : Metric} {id : String} {i : Nat}

/-- The forecast of a metric that does not use an input. -/
theorem value_of_unused (wellFormed : WellFormed request.nodes request.edges)
    (solves : request.Solves policy (request.ledgerValues ledger))
    (stands : (Graph.ofLists request.nodes request.edges).nodes[i]? = some metric)
    (kind : metric.kind = .metric attributes)
    (unused : attributes.useCalculated = false ∨ inputIds request.edges metric.id = [])
    {place : Nat} {month : Date} (dated : request.months[place]? = some month) :
    ledger.value i place = fallbackOf policy request.series attributes month := by
  have member := wellFormed.mem_iff_place.mpr ⟨i, stands⟩
  have isMetric := exists_attributes_iff.mp ⟨attributes, kind⟩
  have equation := solves metric member (isMetric.connected member) place month dated
  simp only [Equation, kind, ledgerValues, WellFormed.index?_of_place stands,
    Option.bind_some] at equation
  rw [equation]
  rcases unused with unused | unused
  · rw [unused]
  · rw [unused]
    cases attributes.useCalculated <;> rfl

theorem metricShown (wellFormed : WellFormed request.nodes request.edges)
    (solves : request.Solves policy (request.ledgerValues ledger))
    (months_eq : ledger.months = request.months)
    (stands : (Graph.ofLists request.nodes request.edges).nodes[i]? = some metric)
    (kind : metric.kind = .metric attributes) :
    MetricShown policy request metric attributes
      ((request.model policy).metricReport ledger i) := by
  have shape : (request.model policy).graph.kind? i = some (.metric attributes) :=
    kind ▸ Graph.kind?_of_place stands
  have own : (request.model policy).graph.metric? i = some attributes := by
    rw [Graph.metric?, shape]
    rfl
  have rows : ∀ row ∈ ((request.model policy).metricReport ledger i).values,
      (∃ place, request.months[place]? = some row.date ∧ row.forecast = ledger.value i place) ∧
        row.budget = (request.model policy).columnValue attributes.budgetVariableId row.date ∧
        row.historical =
          (request.model policy).columnValue attributes.historicalVariableId row.date := by
    intro row member
    obtain ⟨⟨month, place⟩, stands, rfl⟩ := List.mem_map.mp member
    rw [months_eq, List.mem_zipIdx_iff_getElem?] at stands
    simp only [own, Option.bind_some]
    exact ⟨⟨place, stands, rfl⟩, trivial, trivial⟩
  refine ⟨Graph.idOf_of_place stands, ?_, fun row member => (rows row member).2.1,
    fun row member => (rows row member).2.2, ?_⟩
  · simp only [Model.metricReport, Graph.label, shape, Option.map_some, Option.getD_some,
      NodeKind.label]
  · intro unused row member
    obtain ⟨⟨place, dated, forecast⟩, budget, historical⟩ := rows row member
    rw [forecast, budget, historical, value_of_unused wellFormed solves stands kind unused dated]
    constructor
    · intro source
      simp only [fallbackOf, source]
      rfl
    · intro source
      simp only [fallbackOf, source]
      rfl

/-- The tree that comes first in node order is that of the first metric. -/
theorem firstHolding (wellFormed : WellFormed request.nodes request.edges)
    (forest : Forest (request.model policy).graph trees) {tree : MetricTree}
    (found : (Graph.ofLists request.nodes request.edges).index? id = some i)
    (stands : (Graph.ofLists request.nodes request.edges).nodes[tree.root]? = some metric)
    (member : tree ∈ trees) (held : Holds tree.slots i)
    (least : ∀ other ∈ trees, Holds other.slots i → tree.root ≤ other.root) :
    FirstHolding request.nodes request.edges id metric := by
  have held_iff : ∀ {other : MetricTree} {metric : Node}, other ∈ trees →
      (Graph.ofLists request.nodes request.edges).nodes[other.root]? = some metric →
        (Holds other.slots i ↔ InTree request.nodes request.edges metric.id id) :=
    fun member stands => wellFormed.holds_iff_inTree (forest.built _ member).2
      (WellFormed.index?_of_place stands) found
  have isMetric := (isMetric_iff stands).mp (forest.built tree member).1
  have listed : (Graph.ofLists request.nodes request.edges).nodes = request.nodes.toArray := by
    rw [Graph.ofLists_nodes, Graph.distinctNodes_eq_self wellFormed.ids_distinct]
  obtain ⟨inside, here⟩ : ∃ inside : tree.root < request.nodes.length,
      request.nodes[tree.root] = metric := by
    simpa [listed, List.getElem?_eq_some_iff] using stands
  refine ⟨request.nodes.take tree.root, request.nodes.drop (tree.root + 1), ?_, isMetric,
    (held_iff member stands).mp held, ?_⟩
  · rw [← here, ← List.drop_eq_getElem_cons inside, List.take_append_drop]
  · intro earlier among earlierMetric earlierHeld
    obtain ⟨j, before, rfl⟩ := List.mem_take_iff_getElem.mp among
    have place : (Graph.ofLists request.nodes request.edges).nodes[j]? =
        some request.nodes[j] := by
      simp [listed]
    obtain ⟨other, otherMember, rfl⟩ := forest.complete j ((isMetric_iff place).mpr earlierMetric)
    have notBefore := least other otherMember ((held_iff otherMember place).mpr earlierHeld)
    exact absurd (Nat.lt_of_lt_of_le before (Nat.min_le_left _ _)) (Nat.not_lt_of_le notBefore)

theorem nodeShown (wellFormed : WellFormed request.nodes request.edges)
    (forest : Forest (request.model policy).graph trees) {node owner : NodeIndex}
    (listed : (node, owner) ∈ Model.nodeOwners (Model.inNodeOrder trees)) (ledger : Ledger) :
    NodeShown request
      ((request.model policy).graph.metrics.map ((request.model policy).metricReport ledger))
      ((request.model policy).nodeReport ledger node
        ((request.model policy).metricReport ledger owner)) := by
  obtain ⟨tree, found, same⟩ := ((Model.entered_nodeOwners _).mem_iff _).mp listed
  obtain ⟨member, held, least⟩ := Model.holder?_inNodeOrder found
  rw [Model.ownerIn_eq (forest.perm (Model.inNodeOrder_perm trees))] at same
  simp only at same
  have rootMetric := (forest.built tree member).1
  have inside := Model.inTrees_lt forest ⟨tree, member, held⟩
  obtain ⟨entry, stands⟩ := Graph.exists_place inside
  have index := wellFormed.checked.resolved.index?_idOf inside
  have metric_iff := wellFormed.exists_metric_iff_of_index? index
  have ownerMetric := Model.isMetric_owner forest listed
  refine ⟨⟨entry, wellFormed.mem_iff_place.mpr ⟨node, stands⟩,
      (Graph.idOf_of_place stands).symm, ?_⟩,
    ⟨_, List.mem_map_of_mem (Graph.mem_metrics_iff.mpr ownerMetric), rfl,
      Model.columns_nodeReport ..⟩, ?_, ?_⟩
  · have kind : (request.model policy).graph.kind? node = some entry.kind :=
      Graph.kind?_of_place stands
    simp only [Model.nodeReport, kind, Option.map_some, Option.getD_some]
  · intro metric
    obtain rfl := same.trans (if_pos (metric_iff.mp metric))
    exact ⟨rfl, (request.model policy).calculated_eq_forecast ledger owner⟩
  · intro other
    obtain rfl := same.trans (if_neg fun isMetric => other (metric_iff.mpr isMetric))
    obtain ⟨metric, place⟩ := Graph.exists_place (Graph.isMetric_lt rootMetric)
    exact ⟨metric, firstHolding wellFormed forest index place member held least,
      Graph.idOf_of_place place⟩

theorem ids_nodup (forest : Forest (request.model policy).graph trees) (ledger : Ledger) :
    (((request.model policy).nodeEntries ledger trees).map (·.nodeId)).Nodup := by
  have resolved := Graph.ofLists_resolved request.nodes request.edges
  have inside : ∀ node ∈ (Model.nodeOwners (Model.inNodeOrder trees)).map (·.1),
      node < (request.model policy).graph.size :=
    fun node owned => Model.inTrees_lt forest (Model.owned_inNodeOrder_iff.mp owned)
  rw [Model.ids_nodeEntries]
  exact resolved.nodup_map_idOf (Model.entered_nodeOwners _).distinct inside

/-- The nodes with an entry are those of the metrics' trees. -/
theorem mem_ids_iff (wellFormed : WellFormed request.nodes request.edges)
    (forest : Forest (request.model policy).graph trees) (ledger : Ledger) :
    id ∈ ((request.model policy).nodeEntries ledger trees).map (·.nodeId) ↔
      ∃ metric ∈ request.nodes, IsMetric metric ∧
        InTree request.nodes request.edges metric.id id := by
  rw [Model.mem_entryIds_iff (Graph.ofLists_resolved request.nodes request.edges) forest]
  constructor
  · rintro ⟨node, found, held⟩
    exact (wellFormed.inTrees_iff_inTree forest found).mp held
  · rintro ⟨metric, member, isMetric, held⟩
    obtain ⟨j, place⟩ := wellFormed.mem_iff_place.mp member
    obtain ⟨i, found, _⟩ :=
      wellFormed.exists_uses_of_inTree (WellFormed.index?_of_place place) held
    exact ⟨i, found, (wellFormed.inTrees_iff_inTree forest found).mpr
      ⟨metric, member, isMetric, held⟩⟩

theorem monthsOf_months (ordered : ¬ request.endDate.MonthBefore request.startDate) :
    Date.MonthsOf request.startDate request.endDate request.months := by
  have all : Date.MonthsOf request.startDate.startOfMonth request.endDate.startOfMonth
      request.months := Date.monthsOf_monthsThrough ordered
  exact ⟨all.sorted, all.mem_iff, all.length_eq⟩

theorem aligned_report (ordered : ¬ request.endDate.MonthBefore request.startDate)
    (wellFormed : WellFormed request.nodes request.edges)
    (scheduled : Scheduled (request.model policy).graph trees)
    (progress : (request.model policy).Progress request.months
      (fun node place => Model.InTrees trees node ∧ place < request.months.length) ledger)
    (forecastId : String) (moment : Timestamp) :
    Aligned policy request ((request.model policy).report ledger trees forecastId moment
      (request.nodesIncluded policy)) where
  metrics := by
    rw [Model.metrics_report scheduled.toForest, List.forall₂_map_right_iff]
    apply wellFormed.metrics_in_order.imp
    rintro metric i ⟨isMetric, stands⟩
    obtain ⟨attributes, kind⟩ := exists_attributes_iff.mpr isMetric
    have solves := solves_ledgerValues wellFormed scheduled progress
    exact ⟨attributes, kind, metricShown wellFormed solves progress.months_eq stands kind⟩
  dates := by
    refine ⟨request.months, monthsOf_months ordered, ?_, ?_⟩
    · rw [Model.metrics_report scheduled.toForest]
      intro entry member
      obtain ⟨metric, _, rfl⟩ := List.mem_map.mp member
      rw [Model.dates_metricReport, progress.months_eq]
    · intro entries given entry member
      obtain rfl := Model.eq_nodeEntries given
      obtain ⟨owned, _, rfl⟩ := List.mem_map.mp member
      rw [Model.dates_nodeReport, progress.months_eq]
  included := by
    rw [Model.allNodes_report]
    cases request.nodesIncluded policy <;> rfl
  nodes_once := by
    intro entries given
    obtain rfl := Model.eq_nodeEntries given
    exact ⟨ids_nodup scheduled.toForest ledger,
      fun _ => mem_ids_iff wellFormed scheduled.toForest ledger⟩
  nodes := by
    rw [Model.metrics_report scheduled.toForest]
    intro entries given entry member
    obtain rfl := Model.eq_nodeEntries given
    obtain ⟨⟨node, owner⟩, listed, rfl⟩ := List.mem_map.mp member
    exact nodeShown wellFormed scheduled.toForest listed ledger

/-- A report shows every metric and every node of a tree once, beside the right columns. -/
theorem report_aligned (policy : Policy) (request : Request) (moment : Timestamp)
    (report : Report) (reported : request.report policy moment = .ok report) :
    Aligned policy request report := by
  have ends := report_ends policy request moment
  rw [reported] at ends
  cases ends with
  | reported ordered wellFormed _ _ scheduled progress =>
    exact aligned_report ordered wellFormed scheduled progress request.forecastId moment

theorem report_aligned_growth :
    ∃ report, growthRequest.report growthPolicy growthMoment = .ok report ∧
      Aligned growthPolicy growthRequest report := by
  have completes : (growthRequest.report growthPolicy growthMoment).toBool = true := by
    decide +kernel
  cases reported : growthRequest.report growthPolicy growthMoment with
  | error fault =>
    rw [reported] at completes
    contradiction
  | ok report =>
    exact ⟨report, rfl, report_aligned growthPolicy growthRequest growthMoment report reported⟩

end Request
end MonthlyForecast
