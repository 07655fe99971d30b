import MonthlyForecast.Proofs.Report.Entries

/-! Reports of two requests with one graph. Where the months of the ranges correspond place by
place and related values are supplied for them, the reports have the same entries in the same
order, with related values in corresponding months. Dates and values are related by parameters:
a report may show the same months with more values known, or the same values in other months. -/
namespace MonthlyForecast
open Validation MetricTree

section Corresponds

variable (dated : Date → Date → Prop) (related : Option Float → Option Float → Prop)

structure MetricMonth.Corresponds (row other : MetricMonth) : Prop where
  date : dated row.date other.date
  forecast : related row.forecast other.forecast
  budget : related row.budget other.budget
  historical : related row.historical other.historical

structure NodeMonth.Corresponds (row other : NodeMonth) : Prop where
  date : dated row.date other.date
  calculated : related row.calculated other.calculated
  forecast : related row.forecast other.forecast
  budget : related row.budget other.budget
  historical : related row.historical other.historical

structure MetricReport.Corresponds (entry other : MetricReport) : Prop where
  id_eq : other.metricNodeId = entry.metricNodeId
  label_eq : other.label = entry.label
  values : List.Forall₂ (MetricMonth.Corresponds dated related) entry.values other.values

structure NodeReport.Corresponds (entry other : NodeReport) : Prop where
  id_eq : other.nodeId = entry.nodeId
  type_eq : other.nodeType = entry.nodeType
  owner_eq : other.metricNodeId = entry.metricNodeId
  values : List.Forall₂ (NodeMonth.Corresponds dated related) entry.values other.values

/-- The reports have the same entries in the same order, with related values in corresponding
months. -/
structure Report.Corresponds (report other : Report) : Prop where
  forecastId_eq : other.forecastId = report.forecastId
  calculatedAt_eq : other.calculatedAt = report.calculatedAt
  metrics : List.Forall₂ (MetricReport.Corresponds dated related) report.metrics other.metrics
  nodes : Option.Rel (List.Forall₂ (NodeReport.Corresponds dated related)) report.allNodes
    other.allNodes

end Corresponds

namespace Request

variable {dated : Date → Date → Prop} {related : Option Float → Option Float → Prop}
  {policy otherPolicy : Policy} {first second : Request} {trees : List MetricTree}
  {ledger otherLedger : Ledger} {node owner metric : Node} {month otherMonth : Date} {place : Nat}

/-- Two requests with one graph, corresponding months and related values for them. -/
structure Parallel (dated : Date → Date → Prop) (related : Option Float → Option Float → Prop)
    (policy otherPolicy : Policy) (first second : Request) : Prop where
  kept : KeptByOperators related
  nodes_eq : second.nodes = first.nodes
  edges_eq : second.edges = first.edges
  months : List.Forall₂ dated first.months second.months
  supplied : ∀ {month otherMonth}, dated month otherMonth → ∀ kind,
    Supplied related policy otherPolicy first.series second.series kind month otherMonth

theorem rows_forall₂ {α : Type} {corresponds : α → α → Prop} {row other : Date → Nat → α}
    (months : List.Forall₂ dated first.months second.months)
    (each : ∀ place month otherMonth, first.months[place]? = some month →
      dated month otherMonth → corresponds (row month place) (other otherMonth place)) :
    List.Forall₂ corresponds (first.rows row) (second.rows other) := by
  rw [List.forall₂_iff_get] at months ⊢
  obtain ⟨count, months⟩ := months
  refine ⟨by simp [rows, count], ?_⟩
  intro place inside otherInside
  have here : place < first.months.length := by simpa [rows] using inside
  simp only [rows, List.get_eq_getElem, List.getElem_map, List.getElem_zipIdx, Nat.zero_add]
  exact each place _ _ (List.getElem?_eq_getElem here) (months place here (count ▸ here))

namespace Parallel

variable (parallel : Parallel dated related policy otherPolicy first second)
include parallel

theorem connected {id : String} (connected : Connected first.nodes first.edges id) :
    Connected second.nodes second.edges id := by
  rwa [parallel.nodes_eq, parallel.edges_eq]

theorem counterpart (node : Node) : Counterpart first second node node :=
  ⟨rfl, rfl, fun _ _ _ => by rw [parallel.edges_eq]⟩

theorem values {otherTrees : List MetricTree} (one : Evaluated policy first trees ledger)
    (other : Evaluated otherPolicy second otherTrees otherLedger)
    (before : place < first.months.length) : ∀ node ∈ first.nodes,
      Connected first.nodes first.edges node.id →
        related (first.ledgerValues ledger node.id place)
          (second.ledgerValues otherLedger node.id place) := by
  apply one.solves.relate other.solves parallel.kept one.wellFormed other.wellFormed.ids_distinct
    one.wellFormed.connected_of_reads (fun held => held) parallel.connected
  intro earlier atMost
  have here := List.getElem?_eq_getElem (Nat.lt_of_le_of_lt atMost before)
  obtain ⟨otherMonth, there, pair⟩ := exists_getElem?_of_forall₂ parallel.months here
  refine ⟨_, otherMonth, here, there, ?_⟩
  intro node member _
  exact ⟨node, parallel.nodes_eq ▸ member, parallel.counterpart node,
    parallel.supplied pair node.kind⟩

theorem metricMonth_corresponds {values others : Values} (pair : dated month otherMonth)
    (forecast : related (values metric.id place) (others metric.id place)) :
    (first.metricMonth values metric month place).Corresponds dated related
      (second.metricMonth others metric otherMonth place) := by
  have value := (parallel.supplied pair metric.kind).value
  exact ⟨pair, forecast, related_column parallel.kept value (fun _ => NodeKind.names_budget) 0,
    related_column parallel.kept value (fun _ => NodeKind.names_historical) 0⟩

theorem metricEntry_corresponds {values others : Values}
    (forecast : ∀ place < first.months.length,
      related (values metric.id place) (others metric.id place)) :
    (first.metricEntry values metric).Corresponds dated related
      (second.metricEntry others metric) := by
  refine ⟨rfl, rfl, rows_forall₂ parallel.months ?_⟩
  intro place month otherMonth here pair
  exact parallel.metricMonth_corresponds pair
    (forecast place (List.getElem?_eq_some_iff.mp here).1)

theorem nodeEntry_corresponds {values others : Values}
    (calculated : ∀ place < first.months.length,
      related (values node.id place) (others node.id place))
    (forecast : ∀ place < first.months.length,
      related (values owner.id place) (others owner.id place)) :
    (first.nodeEntry values node owner).Corresponds dated related
      (second.nodeEntry others node owner) := by
  refine ⟨rfl, rfl, rfl, rows_forall₂ parallel.months ?_⟩
  intro place month otherMonth here pair
  have inside := (List.getElem?_eq_some_iff.mp here).1
  have columns := parallel.metricMonth_corresponds pair (forecast place inside)
  exact ⟨pair, calculated place inside, columns.forecast, columns.budget, columns.historical⟩

/-- The metrics of the two reports correspond. -/
theorem metrics_correspond {otherTrees : List MetricTree}
    (one : Evaluated policy first trees ledger)
    (other : Evaluated otherPolicy second otherTrees otherLedger)
    (forecastId otherId : String) (moment otherMoment : Timestamp) (included otherIncluded : Bool) :
    List.Forall₂ (MetricReport.Corresponds dated related)
      ((first.model policy).report ledger trees forecastId moment included).metrics
      ((second.model otherPolicy).report otherLedger otherTrees otherId otherMoment
        otherIncluded).metrics := by
  rw [one.metrics_report_eq, other.metrics_report_eq, parallel.nodes_eq,
    List.forall₂_map_left_iff, List.forall₂_map_right_iff]
  apply List.forall₂_same.mpr
  intro metric member
  obtain ⟨among, type⟩ := List.mem_filter.mp member
  have isMetric : IsMetric metric := beq_iff_eq.mp type
  exact parallel.metricEntry_corresponds fun place before =>
    parallel.values one other before metric among (isMetric.connected among)

/-- The entries of the nodes correspond if both ledgers are of the same trees. -/
theorem nodeEntries_correspond (one : Evaluated policy first trees ledger)
    (other : Evaluated otherPolicy second trees otherLedger) :
    List.Forall₂ (NodeReport.Corresponds dated related)
      ((first.model policy).nodeEntries ledger trees)
      ((second.model otherPolicy).nodeEntries otherLedger trees) := by
  have graphs : Graph.ofLists second.nodes second.edges = .ofLists first.nodes first.edges := by
    rw [parallel.nodes_eq, parallel.edges_eq]
  have mem_iff_place : ∀ {node}, node ∈ first.nodes ↔ _ := one.wellFormed.mem_iff_place
  rw [Model.nodeEntries, Model.nodeEntries, List.forall₂_map_left_iff,
    List.forall₂_map_right_iff]
  apply List.forall₂_same.mpr
  -- The trees alone decide which nodes are listed and beside which metrics.
  rintro ⟨i, j⟩ listed
  obtain ⟨node, owner, stands, ownerStands, connected, isMetric⟩ := one.exists_owned listed
  have ownerMember := mem_iff_place.mpr ⟨j, ownerStands⟩
  rw [nodeReport_eq one.months_eq stands ownerStands,
    nodeReport_eq other.months_eq (graphs ▸ stands) (graphs ▸ ownerStands)]
  apply parallel.nodeEntry_corresponds
  · exact fun place before => parallel.values one other before node
      (mem_iff_place.mpr ⟨i, stands⟩) connected
  · exact fun place before => parallel.values one other before owner ownerMember
      (isMetric.connected ownerMember)

/-- The reports of the two requests correspond. -/
theorem reports_correspond {moment otherMoment : Timestamp} {report other : Report}
    (reported : first.report policy moment = .ok report)
    (otherReported : second.report otherPolicy otherMoment = .ok other) :
    List.Forall₂ (MetricReport.Corresponds dated related) report.metrics other.metrics ∧
      ∀ entries, report.allNodes = some entries → second.nodesIncluded otherPolicy = true →
        ∃ others, other.allNodes = some others ∧
          List.Forall₂ (NodeReport.Corresponds dated related) entries others := by
  obtain ⟨trees, ledger, wellFormed, found, ran, rfl⟩ := report_eq_ok reported
  obtain ⟨otherTrees, otherLedger, otherWellFormed, otherFound, otherRan, rfl⟩ :=
    report_eq_ok otherReported
  have graphs : (second.model otherPolicy).graph = (first.model policy).graph := by
    simp only [model, parallel.nodes_eq, parallel.edges_eq]
  cases found.symm.trans (graphs ▸ otherFound)
  have one := evaluated_of_run wellFormed found ran
  have other := evaluated_of_run otherWellFormed otherFound otherRan
  refine ⟨parallel.metrics_correspond one other .., ?_⟩
  intro entries given included
  obtain rfl := Model.eq_nodeEntries given
  rw [Model.allNodes_report, included]
  exact ⟨_, rfl, parallel.nodeEntries_correspond one other⟩

/-- Reports that are named alike and show nodes alike correspond as a whole. -/
theorem report_corresponds {moment : Timestamp} {report other : Report}
    (forecastId_eq : second.forecastId = first.forecastId)
    (included_eq : second.nodesIncluded otherPolicy = first.nodesIncluded policy)
    (reported : first.report policy moment = .ok report)
    (otherReported : second.report otherPolicy moment = .ok other) :
    report.Corresponds dated related other := by
  obtain ⟨metrics, nodes⟩ := parallel.reports_correspond reported otherReported
  obtain ⟨trees, ledger, _, _, _, rfl⟩ := report_eq_ok reported
  obtain ⟨otherTrees, otherLedger, _, _, _, rfl⟩ := report_eq_ok otherReported
  refine ⟨forecastId_eq, rfl, metrics, ?_⟩
  rw [Model.allNodes_report, Model.allNodes_report, included_eq] at nodes ⊢
  cases included : first.nodesIncluded policy with
  | false => exact .none
  | true =>
    rw [included] at nodes
    obtain ⟨others, given, correspond⟩ := nodes _ rfl rfl
    cases given
    exact .some correspond

end Parallel
end Request
end MonthlyForecast
