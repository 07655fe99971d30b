import MonthlyForecast.Proofs.Calculation.Solution

/-! The entries of a report as nodes and values give them. An entry is told by its node and,
for a node's entry, the metric beside it, by the values and by the months of the range; the
numbers of nodes and the order of evaluation leave no trace in it. Entries can so be compared
between requests. -/
namespace MonthlyForecast
open Validation MetricTree

/-- The entry has one row for the date, and this is it. -/
def MetricReport.RowOf (entry : MetricReport) (date : Date) (row : MetricMonth) : Prop :=
  ∀ shown, shown ∈ entry.values ∧ shown.date = date ↔ shown = row

namespace Request

/-- A row for each month of the range. -/
def rows {α : Type} (request : Request) (row : Date → Nat → α) : List α :=
  request.months.zipIdx.map fun (month, place) => row month place

/-- The columns of a metric in a month. -/
def metricMonth (request : Request) (values : Values) (metric : Node) (month : Date)
    (place : Nat) : MetricMonth where
  date := month
  forecast := values metric.id place
  budget := (metric.kind.metric?.bind (·.budgetVariableId)).bind fun id =>
    request.series.value? id month 0
  historical := (metric.kind.metric?.bind (·.historicalVariableId)).bind fun id =>
    request.series.value? id month 0

/-- A node's value in a month beside the columns of a metric. -/
def nodeMonth (request : Request) (values : Values) (node owner : Node) (month : Date)
    (place : Nat) : NodeMonth :=
  let columns := request.metricMonth values owner month place
  ⟨month, values node.id place, columns.forecast, columns.budget, columns.historical⟩

def metricEntry (request : Request) (values : Values) (metric : Node) : MetricReport :=
  ⟨metric.id, metric.kind.label, request.rows (request.metricMonth values metric)⟩

def nodeEntry (request : Request) (values : Values) (node owner : Node) : NodeReport :=
  ⟨node.id, node.kind.type, owner.id, request.rows (request.nodeMonth values node owner)⟩

variable {request first second : Request} {policy : Policy} {ledger : Ledger}
  {trees : List MetricTree} {values others : Values} {node twin owner ownerTwin metric : Node}
  {i j : Nat} {month date : Date} {place : Nat}

theorem metricReport_eq (months_eq : ledger.months = request.months)
    (stands : (Graph.ofLists request.nodes request.edges).nodes[i]? = some metric) :
    (request.model policy).metricReport ledger i =
      request.metricEntry (request.ledgerValues ledger) metric := by
  have kind : (request.model policy).graph.kind? i = some metric.kind := Graph.kind?_of_place stands
  have id : (request.model policy).graph.idOf i = metric.id := Graph.idOf_of_place stands
  have found := WellFormed.index?_of_place stands
  simp only [Model.metricReport, metricEntry, rows, months_eq, id, Graph.label, Graph.metric?, kind,
    Option.map_some, Option.getD_some, Option.bind_some]
  congr 1
  apply List.map_congr_left
  rintro ⟨month, place⟩ _
  simp only [metricMonth, ledgerValues, found, Option.bind_some]
  rfl

theorem nodeReport_eq (months_eq : ledger.months = request.months)
    (stands : (Graph.ofLists request.nodes request.edges).nodes[i]? = some node)
    (ownerStands : (Graph.ofLists request.nodes request.edges).nodes[j]? = some owner) :
    (request.model policy).nodeReport ledger i ((request.model policy).metricReport ledger j) =
      request.nodeEntry (request.ledgerValues ledger) node owner := by
  have kind : (request.model policy).graph.kind? i = some node.kind := Graph.kind?_of_place stands
  have id : (request.model policy).graph.idOf i = node.id := Graph.idOf_of_place stands
  have found := WellFormed.index?_of_place stands
  rw [metricReport_eq months_eq ownerStands]
  simp only [Model.nodeReport, nodeEntry, id, kind, Option.map_some, Option.getD_some]
  congr 1
  apply List.ext_getElem
  · simp [metricEntry, rows, Ledger.row, months_eq]
  · intro place inside inside'
    simp [metricEntry, rows, Ledger.row, nodeMonth, metricMonth, ledgerValues, found]

theorem months_nodup (request : Request) : request.months.Nodup := by
  apply (Date.monthsThrough_sorted _ _).imp
  rintro month _ before rfl
  exact lt_irrefl _ (Date.monthIndex_lt_iff.mpr before)

theorem exists_place_of_row {row : MetricMonth}
    (shown : row ∈ (request.metricEntry values metric).values) :
    ∃ place, request.months[place]? = some row.date ∧ row.forecast = values metric.id place := by
  obtain ⟨⟨month, place⟩, stands, rfl⟩ := List.mem_map.mp shown
  exact ⟨place, List.mem_zipIdx_iff_getElem?.mp stands, rfl⟩

theorem metricEntry_rowOf (dated : request.months[place]? = some date) :
    (request.metricEntry values metric).RowOf date
      (request.metricMonth values metric date place) := by
  intro shown
  simp only [metricEntry, rows, List.mem_map, Prod.exists, List.mem_zipIdx_iff_getElem?]
  constructor
  · rintro ⟨⟨month, other, stands, rfl⟩, rfl⟩
    have inside := (List.getElem?_eq_some_iff.mp dated).1
    obtain rfl := (List.getElem?_inj inside request.months_nodup).mp (dated.trans stands.symm)
    rfl
  · rintro rfl
    exact ⟨⟨date, place, dated, rfl⟩, rfl⟩

/-- A report is that of an evaluated request. -/
theorem exists_evaluated {moment : Timestamp} {report : Report}
    (reported : request.report policy moment = .ok report) :
    ∃ trees ledger, Evaluated policy request trees ledger ∧
      report = (request.model policy).report ledger trees request.forecastId moment
        (request.nodesIncluded policy) := by
  obtain ⟨trees, ledger, wellFormed, found, ran, rfl⟩ := report_eq_ok reported
  exact ⟨trees, ledger, evaluated_of_run wellFormed found ran, rfl⟩

namespace Evaluated

variable (evaluated : Evaluated policy request trees ledger)
include evaluated

theorem months_eq : ledger.months = request.months :=
  evaluated.progress.months_eq

theorem solves : request.Solves policy (request.ledgerValues ledger) :=
  solves_ledgerValues evaluated.wellFormed evaluated.scheduled evaluated.progress

/-- A report has the entries of the metrics of the list. -/
theorem metrics_report_eq (forecastId : String) (moment : Timestamp) (included : Bool) :
    ((request.model policy).report ledger trees forecastId moment included).metrics =
      (request.nodes.filter (·.kind.type == .metric)).map
        (request.metricEntry (request.ledgerValues ledger)) := by
  rw [Model.metrics_report evaluated.scheduled.toForest, ← List.forall₂_eq_eq_eq,
    List.forall₂_map_right_iff, List.forall₂_map_left_iff]
  apply evaluated.wellFormed.metrics_in_order.flip.imp
  rintro i metric ⟨_, stands⟩
  exact metricReport_eq evaluated.months_eq stands

theorem metric_ids_nodup :
    (((request.nodes.filter (·.kind.type == .metric)).map
      (request.metricEntry (request.ledgerValues ledger))).map (·.metricNodeId)).Nodup := by
  rw [List.map_map]
  exact (List.filter_sublist.map Node.id).nodup evaluated.wellFormed.ids_distinct

/-- A metric is found in a report by its id. -/
theorem metric?_report_eq (member : metric ∈ request.nodes) (isMetric : IsMetric metric)
    (forecastId : String) (moment : Timestamp) (included : Bool) :
    ((request.model policy).report ledger trees forecastId moment included).metric? metric.id =
      some (request.metricEntry (request.ledgerValues ledger) metric) := by
  rw [Report.metric?, evaluated.metrics_report_eq,
    find?_key_eq_some_iff evaluated.metric_ids_nodup]
  exact ⟨List.mem_map_of_mem (List.mem_filter.mpr ⟨member, beq_iff_eq.mpr isMetric⟩), rfl⟩

theorem inTrees_iff (stands : (Graph.ofLists request.nodes request.edges).nodes[i]? = some node) :
    Model.InTrees trees i ↔ Connected request.nodes request.edges node.id :=
  (evaluated.wellFormed.checked.inTrees_iff evaluated.scheduled).trans
    (evaluated.wellFormed.connected_iff (WellFormed.index?_of_place stands)).symm

/-- A node with an entry and the metric beside it. -/
theorem exists_owned (listed : (i, j) ∈ Model.nodeOwners (Model.inNodeOrder trees)) :
    ∃ node owner, (Graph.ofLists request.nodes request.edges).nodes[i]? = some node ∧
      (Graph.ofLists request.nodes request.edges).nodes[j]? = some owner ∧
      Connected request.nodes request.edges node.id ∧ IsMetric owner := by
  have forest := evaluated.scheduled.toForest
  have held := Model.owned_inNodeOrder_iff.mp (List.mem_map_of_mem listed)
  have isMetric := Model.isMetric_owner forest listed
  obtain ⟨node, stands⟩ := Graph.exists_place (Model.inTrees_lt forest held)
  obtain ⟨owner, ownerStands⟩ := Graph.exists_place (Graph.isMetric_lt isMetric)
  exact ⟨node, owner, stands, ownerStands, (evaluated.inTrees_iff stands).mp held,
    (isMetric_iff ownerStands).mp isMetric⟩

omit evaluated in
/-- Evaluated requests agree on the nodes that they share. -/
theorem values_eq {otherTrees : List MetricTree} {otherLedger : Ledger} {inside : String → Prop}
    (one : Evaluated policy first trees ledger)
    (other : Evaluated policy second otherTrees otherLedger) (shares : Shares first second inside)
    (dated : SameMonths first second place) : ∀ node ∈ first.nodes, inside node.id →
      first.ledgerValues ledger node.id place = second.ledgerValues otherLedger node.id place :=
  one.solves.agree other.solves one.wellFormed other.wellFormed.ids_distinct shares dated

end Evaluated

/-! Entries of two requests. -/

theorem rows_isPrefix {α : Type} {row other : Date → Nat → α}
    (longer : first.months <+: second.months) (same : ∀ place month,
      first.months[place]? = some month → row month place = other month place) :
    first.rows row <+: second.rows other := by
  obtain ⟨rest, whole⟩ := longer
  rw [rows, rows, ← whole, List.zipIdx_append, List.map_append]
  have alike : first.months.zipIdx.map (fun (month, place) => row month place) =
      first.months.zipIdx.map fun (month, place) => other month place := by
    apply List.map_congr_left
    rintro ⟨month, place⟩ member
    exact same place month (List.mem_zipIdx_iff_getElem?.mp member)
  exact alike ▸ List.prefix_append _ _

theorem rows_eq {α : Type} {row other : Date → Nat → α}
    (months_eq : first.months = second.months) (same : ∀ place month,
      first.months[place]? = some month → row month place = other month place) :
    first.rows row = second.rows other := by
  apply (rows_isPrefix (months_eq ▸ List.prefix_refl _) same).eq_of_length
  simp only [rows, List.length_map, months_eq]

theorem column_eq {id : String} (months_eq : first.months = second.months)
    (same : ∀ place < first.months.length, values id place = others id place) :
    first.column values id = second.column others id := by
  change first.rows (fun month place => (month, values id place)) =
    second.rows fun month place => (month, others id place)
  apply rows_eq months_eq
  intro place month dated
  rw [same place (List.getElem?_eq_some_iff.mp dated).1]

theorem Twins.metricMonth_eq (twins : Twins first second node twin)
    (same : values node.id place = others node.id place) :
    first.metricMonth values node month place = second.metricMonth others twin month place := by
  simp only [metricMonth, twins.id_eq, twins.kind_eq, same,
    twins.column_eq fun _ => NodeKind.names_budget,
    twins.column_eq fun _ => NodeKind.names_historical]

theorem Twins.nodeMonth_eq (twins : Twins first second node twin)
    (owners : Twins first second owner ownerTwin)
    (same : values node.id place = others node.id place)
    (ownerSame : values owner.id place = others owner.id place) :
    first.nodeMonth values node owner month place =
      second.nodeMonth others twin ownerTwin month place := by
  simp only [nodeMonth, owners.metricMonth_eq ownerSame, twins.id_eq, same]

theorem Twins.metricEntry_eq (twins : Twins first second node twin)
    (months_eq : first.months = second.months)
    (same : ∀ place < first.months.length, values node.id place = others node.id place) :
    first.metricEntry values node = second.metricEntry others twin := by
  have columns : first.rows (first.metricMonth values node) =
      second.rows (second.metricMonth others twin) := by
    apply rows_eq months_eq
    intro place month dated
    exact twins.metricMonth_eq (same place (List.getElem?_eq_some_iff.mp dated).1)
  simp only [metricEntry, columns, twins.id_eq, twins.kind_eq]

theorem Twins.nodeEntry_eq (twins : Twins first second node twin)
    (owners : Twins first second owner ownerTwin) (months_eq : first.months = second.months)
    (same : ∀ place < first.months.length, values node.id place = others node.id place)
    (ownerSame : ∀ place < first.months.length, values owner.id place = others owner.id place) :
    first.nodeEntry values node owner = second.nodeEntry others twin ownerTwin := by
  have columns : first.rows (first.nodeMonth values node owner) =
      second.rows (second.nodeMonth others twin ownerTwin) := by
    apply rows_eq months_eq
    intro place month dated
    have inside := (List.getElem?_eq_some_iff.mp dated).1
    exact twins.nodeMonth_eq owners (same place inside) (ownerSame place inside)
  simp only [nodeEntry, columns, twins.id_eq, twins.kind_eq, owners.id_eq]

end Request
end MonthlyForecast
