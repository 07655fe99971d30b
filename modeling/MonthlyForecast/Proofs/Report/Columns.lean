import MonthlyForecast.Proofs.Report.Owners

/-! The columns of a report. A forecast column and a calculated column repeat a row of the
ledger month by month; there is a forecast column for each metric, in node order, and a
calculated column for exactly the nodes that the trees hold. -/
namespace MonthlyForecast
open MetricTree

/-- A node's values in a ledger beside their months. -/
def Ledger.column (ledger : Ledger) (node : NodeIndex) : List (Date × Option Float) :=
  ledger.months.zipIdx.map fun (month, place) => (month, ledger.value node place)

/-- The forecasts of an entry beside their months. -/
def MetricReport.forecasts (entry : MetricReport) : List (Date × Option Float) :=
  entry.values.map fun row => (row.date, row.forecast)

/-- The calculated values of an entry beside their months. -/
def NodeReport.calculated (entry : NodeReport) : List (Date × Option Float) :=
  entry.values.map fun row => (row.date, row.calculated)

/-- The columns of a metric in a node's entry. -/
def NodeReport.columns (entry : NodeReport) : List MetricMonth :=
  entry.values.map fun row => ⟨row.date, row.forecast, row.budget, row.historical⟩

namespace Model

variable {model : Model} {ledger : Ledger} {trees : List MetricTree} {node metric : NodeIndex}
  {forecastId : String} {moment : Timestamp} {included : Bool}

theorem forecasts_metricReport (model : Model) (ledger : Ledger) (metric : NodeIndex) :
    (model.metricReport ledger metric).forecasts = ledger.column metric := by
  simp only [MetricReport.forecasts, metricReport, Ledger.column, List.map_map]
  rfl

theorem calculated_nodeReport (model : Model) (ledger : Ledger) (node metric : NodeIndex) :
    (model.nodeReport ledger node (model.metricReport ledger metric)).calculated =
      ledger.column node := by
  apply List.ext_getElem
  · simp [NodeReport.calculated, nodeReport, metricReport, Ledger.row, Ledger.column]
  · intro place inside inside'
    simp [NodeReport.calculated, nodeReport, metricReport, Ledger.row, Ledger.column]

theorem columns_nodeReport (model : Model) (ledger : Ledger) (node metric : NodeIndex) :
    (model.nodeReport ledger node (model.metricReport ledger metric)).columns =
      (model.metricReport ledger metric).values := by
  have alike : (model.metricReport ledger metric).values.length ≤ (ledger.row node).length := by
    simp [metricReport, Ledger.row]
  simp only [NodeReport.columns, nodeReport, List.map_map]
  exact List.map_fst_zip alike

/-- The trees as a report takes them, in the order of their roots. -/
def inNodeOrder (trees : List MetricTree) : List MetricTree :=
  trees.mergeSort fun first second => first.root ≤ second.root

theorem inNodeOrder_perm (trees : List MetricTree) : (inNodeOrder trees).Perm trees :=
  List.mergeSort_perm trees _

theorem inNodeOrder_sorted (trees : List MetricTree) :
    (inNodeOrder trees).Pairwise fun first second => first.root ≤ second.root := by
  have sorted : (inNodeOrder trees).Pairwise
      fun first second => decide (first.root ≤ second.root) := by
    apply List.pairwise_mergeSort
    · intro first second third
      simpa using Nat.le_trans
    · intro first second
      simpa using Nat.le_total first.root second.root
  exact sorted.imp of_decide_eq_true

/-- The roots of the trees in node order are the metrics. -/
theorem map_root_inNodeOrder (forest : Forest model.graph trees) :
    (inNodeOrder trees).map (·.root) = model.graph.metrics := by
  apply List.Perm.eq_of_pairwise (fun _ _ _ _ => Nat.le_antisymm)
  · exact List.pairwise_map.mpr (inNodeOrder_sorted trees)
  · exact model.graph.metrics_sorted.imp Nat.le_of_lt
  · exact ((inNodeOrder_perm trees).map _).trans forest.roots_perm

/-- In node order, the first tree that holds a node has the least root of all that do. -/
theorem holder?_inNodeOrder {tree : MetricTree}
    (found : holder? (inNodeOrder trees) node = some tree) :
    tree ∈ trees ∧ Holds tree.slots node ∧
      ∀ other ∈ trees, Holds other.slots node → tree.root ≤ other.root := by
  obtain ⟨held, before, after, whole, none⟩ := holder?_eq_some_iff.mp found
  have sorted := whole ▸ inNodeOrder_sorted trees
  have mem_iff : ∀ other, other ∈ trees ↔ other ∈ before ∨ other = tree ∨ other ∈ after := by
    intro other
    rw [← (inNodeOrder_perm trees).mem_iff, whole, List.mem_append, List.mem_cons]
  refine ⟨(mem_iff tree).mpr (Or.inr (Or.inl rfl)), held, ?_⟩
  intro other member otherHeld
  rcases (mem_iff other).mp member with earlier | rfl | later
  · exact absurd otherHeld (none other earlier)
  · exact Nat.le_refl _
  · exact (List.pairwise_cons.mp (List.pairwise_append.mp sorted).2.1).1 other later

/-- The owner of a node is a metric. -/
theorem isMetric_owner (forest : Forest model.graph trees) {owner : NodeIndex}
    (listed : (node, owner) ∈ nodeOwners (inNodeOrder trees)) : model.graph.isMetric owner := by
  obtain ⟨tree, found, same⟩ := ((entered_nodeOwners _).mem_iff _).mp listed
  have rootMetric := (forest.built tree (holder?_inNodeOrder found).1).1
  rw [ownerIn_eq (forest.perm (inNodeOrder_perm trees))] at same
  simp only at same
  rw [same]
  split
  · assumption
  · exact rootMetric

/-- There is one entry for each metric, in node order. -/
theorem metrics_report (forest : Forest model.graph trees) :
    (model.report ledger trees forecastId moment included).metrics =
      model.graph.metrics.map (model.metricReport ledger) := by
  rw [← map_root_inNodeOrder forest, List.map_map]
  rfl

/-- The entries of the nodes of the trees. -/
def nodeEntries (model : Model) (ledger : Ledger) (trees : List MetricTree) : List NodeReport :=
  (nodeOwners (inNodeOrder trees)).map fun entry =>
    model.nodeReport ledger entry.1 (model.metricReport ledger entry.2)

theorem allNodes_report :
    (model.report ledger trees forecastId moment included).allNodes =
      if included then some (model.nodeEntries ledger trees) else none := rfl

theorem eq_nodeEntries {entries : List NodeReport}
    (given : (model.report ledger trees forecastId moment included).allNodes = some entries) :
    entries = model.nodeEntries ledger trees := by
  rw [allNodes_report] at given
  split at given
  · exact (Option.some.inj given).symm
  · contradiction

theorem owned_inNodeOrder_iff :
    node ∈ (nodeOwners (inNodeOrder trees)).map (·.1) ↔ InTrees trees node :=
  owned_iff.trans (inTrees_perm (inNodeOrder_perm trees))

/-- Every forecast column is the row of the metric that its entry names. -/
theorem exists_metric_of_entry {entry : MetricReport}
    (member : entry ∈ (model.report ledger trees forecastId moment included).metrics) :
    ∃ tree ∈ trees, entry.metricNodeId = model.graph.idOf tree.root ∧
      entry.forecasts = ledger.column tree.root := by
  obtain ⟨tree, among, rfl⟩ := List.mem_map.mp member
  exact ⟨tree, List.mem_mergeSort.mp among, rfl, model.forecasts_metricReport ledger tree.root⟩

theorem exists_metric_entry {tree : MetricTree} (member : tree ∈ trees) :
    ∃ entry ∈ (model.report ledger trees forecastId moment included).metrics,
      entry.metricNodeId = model.graph.idOf tree.root :=
  ⟨_, List.mem_map.mpr ⟨tree, List.mem_mergeSort.mpr member, rfl⟩, rfl⟩

/-- Every calculated column is the row of the node that its entry names. -/
theorem exists_node_of_entry {entries : List NodeReport} {entry : NodeReport}
    (given : (model.report ledger trees forecastId moment included).allNodes = some entries)
    (member : entry ∈ entries) :
    ∃ node, InTrees trees node ∧ entry.nodeId = model.graph.idOf node ∧
      entry.calculated = ledger.column node := by
  obtain rfl := eq_nodeEntries given
  obtain ⟨⟨node, owner⟩, listed, rfl⟩ := List.mem_map.mp member
  have held := owned_inNodeOrder_iff.mp (List.mem_map_of_mem listed)
  exact ⟨node, held, rfl, model.calculated_nodeReport ledger node owner⟩

theorem ids_nodeEntries (model : Model) (ledger : Ledger) (trees : List MetricTree) :
    (model.nodeEntries ledger trees).map (·.nodeId) =
      ((nodeOwners (inNodeOrder trees)).map (·.1)).map model.graph.idOf := by
  simp only [nodeEntries, List.map_map]
  rfl

/-- The nodes with an entry are those of the trees. -/
theorem mem_entryIds_iff {id : String} (resolved : model.graph.Resolved)
    (forest : Forest model.graph trees) (ledger : Ledger) :
    id ∈ (model.nodeEntries ledger trees).map (·.nodeId) ↔
      ∃ node, model.graph.index? id = some node ∧ InTrees trees node := by
  rw [ids_nodeEntries, List.mem_map]
  constructor
  · rintro ⟨node, owned, rfl⟩
    have held := owned_inNodeOrder_iff.mp owned
    exact ⟨node, resolved.index?_idOf (inTrees_lt forest held), held⟩
  · rintro ⟨node, found, held⟩
    exact ⟨node, owned_inNodeOrder_iff.mpr held, Graph.idOf_index? found⟩

theorem exists_node_entry (held : InTrees trees node) :
    ∃ entries, (model.report ledger trees forecastId moment true).allNodes = some entries ∧
      ∃ entry ∈ entries, entry.nodeId = model.graph.idOf node := by
  obtain ⟨entry, listed, same⟩ := List.mem_map.mp (owned_inNodeOrder_iff.mpr held)
  exact ⟨_, rfl, _, List.mem_map_of_mem listed, congrArg model.graph.idOf same⟩

end Model
end MonthlyForecast
