import MonthlyForecast.Proofs.Report.Alignment
import MonthlyForecast.Proofs.Report.Entries

/-! The order of the node list. What validation and the classification of endings ask of
the nodes is asked of the list's members, and the equations speak of ids; so no order
changes how a calculation ends or a value. The order decides which of several faults of one
kind is named, in which order entries stand, and beside which metric a shared node is shown. -/
namespace MonthlyForecast
open Relation Validation MetricTree

section Members

variable {nodes others : List Node} {edges : List Edge} {id reader source metric : String}

theorem Connected.mono (within : others ⊆ nodes) (connected : Connected others edges id) :
    Connected nodes edges id := by
  obtain ⟨metric, member, leads⟩ := connected
  exact ⟨metric, within member, leads⟩

theorem connected_perm_iff (arranged : others.Perm nodes) :
    Connected others edges id ↔ Connected nodes edges id :=
  ⟨.mono arranged.subset, .mono arranged.symm.subset⟩

theorem InTree.mono (within : others ⊆ nodes) (held : InTree others edges metric id) :
    InTree nodes edges metric id := by
  induction held with
  | root => exact .root
  | input member _ opened joined ih => exact .input (within member) ih opened joined

theorem Reads.mono (within : others ⊆ nodes) (reads : Reads others edges reader source) :
    Reads nodes edges reader source := by
  obtain ⟨⟨metric, among, isMetric⟩, node, member, held, reads⟩ := reads
  exact ⟨⟨metric, within among, isMetric⟩, node, within member, held.mono within, reads⟩

theorem ReadCycle.mono (within : others ⊆ nodes) (cyclic : ReadCycle others edges) :
    ReadCycle nodes edges := by
  obtain ⟨first, second, different, there, back⟩ := cyclic
  have lifted : ∀ {reader source}, TransGen (Reads others edges) reader source →
      TransGen (Reads nodes edges) reader source :=
    fun path => path.lift id fun _ _ reads => reads.mono within
  exact ⟨first, second, different, lifted there, lifted back⟩

theorem readCycle_perm_iff (arranged : others.Perm nodes) :
    ReadCycle others edges ↔ ReadCycle nodes edges :=
  ⟨.mono arranged.subset, .mono arranged.symm.subset⟩

theorem Validation.WellFormed.of_perm (wellFormed : WellFormed nodes edges)
    (arranged : others.Perm nodes) : WellFormed others edges where
  ids_distinct := (arranged.map _).nodup_iff.mpr wellFormed.ids_distinct
  ends_named := by
    intro edge member
    rw [(arranged.map _).mem_iff, (arranged.map _).mem_iff]
    exact wellFormed.ends_named edge member
  has_metric := by
    obtain ⟨metric, member, isMetric⟩ := wellFormed.has_metric
    exact ⟨metric, arranged.mem_iff.mpr member, isMetric⟩
  acyclic := wellFormed.acyclic
  inputs_match := fun node member => wellFormed.inputs_match node (arranged.mem_iff.mp member)
  input_counts := fun node member => wellFormed.input_counts node (arranged.mem_iff.mp member)
  seed_sources := fun node member =>
    (wellFormed.seed_sources node (arranged.mem_iff.mp member)).mono
      fun _ among _ => arranged.mem_iff.mpr among

end Members

/-- Faults of one kind, whatever they name. -/
inductive Fault.SameKind : Fault → Fault → Prop where
  | invalidRange {start stop otherStart otherStop : Date} :
      SameKind (.invalidRange start stop) (.invalidRange otherStart otherStop)
  | invalidGraph {errors others : List String} :
      SameKind (.invalidGraph errors) (.invalidGraph others)
  | build {fault other : BuildFault} : SameKind (.build fault) (.build other)
  | data {fault other : DataFault} : SameKind (.data fault) (.data other)

/-- A node's entry without the columns of a metric beside it. -/
def NodeReport.own (entry : NodeReport) : String × NodeType × List (Date × Option Float) :=
  (entry.nodeId, entry.nodeType, entry.calculated)

/-- The reports show the same values; entries may stand in another order and nodes beside
other metrics. -/
structure Report.SameValues (report other : Report) : Prop where
  forecastId_eq : other.forecastId = report.forecastId
  calculatedAt_eq : other.calculatedAt = report.calculatedAt
  metrics_perm : other.metrics.Perm report.metrics
  metric?_eq : ∀ id, other.metric? id = report.metric? id
  included_eq : other.allNodes.isSome = report.allNodes.isSome
  nodes_perm : ∀ entries otherEntries, report.allNodes = some entries →
    other.allNodes = some otherEntries →
      (otherEntries.map NodeReport.own).Perm (entries.map NodeReport.own)
  node?_eq : ∀ id, (other.node? id).map NodeReport.own = (report.node? id).map NodeReport.own

/-- The calculations end alike, up to the order of entries and what a fault names. -/
inductive EndsAlike : Except Fault Report → Except Fault Report → Prop where
  | failed {fault other : Fault} (kind : fault.SameKind other) :
      EndsAlike (.error fault) (.error other)
  | reported {report other : Report} (values : report.SameValues other) :
      EndsAlike (.ok report) (.ok other)

namespace Request

variable {request : Request} {policy : Policy} {nodes : List Node} {ledger others : Ledger}
  {trees otherTrees : List MetricTree} {id : String}

/-- The request with other nodes. -/
def withNodes (request : Request) (nodes : List Node) : Request :=
  { request with nodes := nodes }

@[simp] theorem withNodes_nodes (request : Request) (nodes : List Node) :
    (request.withNodes nodes).nodes = nodes := rfl

@[simp] theorem withNodes_edges (request : Request) (nodes : List Node) :
    (request.withNodes nodes).edges = request.edges := rfl

theorem twins_withNodes (request : Request) (nodes : List Node) :
    ∀ node, Twins request (request.withNodes nodes) node node :=
  twins_of_eq rfl rfl

theorem variableMissing_perm_iff (arranged : nodes.Perm request.nodes) :
    VariableMissing (request.withNodes nodes) ↔ VariableMissing request := by
  apply exists_congr
  intro node
  apply and_congr arranged.mem_iff
  exact and_congr_left fun _ => connected_perm_iff arranged

theorem own_nodeEntry (request : Request) (values : Values) (node owner : Node) :
    (request.nodeEntry values node owner).own =
      (node.id, node.kind.type, request.column values node.id) := by
  simp only [NodeReport.own, NodeReport.calculated, nodeEntry, rows, column, List.map_map]
  rfl

/-- The own parts of node entries are those of the nodes that lead to a metric. -/
theorem Evaluated.mem_own_iff (evaluated : Evaluated policy request trees ledger)
    {own : String × NodeType × List (Date × Option Float)} :
    own ∈ ((request.model policy).nodeEntries ledger trees).map NodeReport.own ↔
      ∃ node ∈ request.nodes, Connected request.nodes request.edges node.id ∧
        (node.id, node.kind.type, request.column (request.ledgerValues ledger) node.id) = own := by
  have mem_iff_place : ∀ {node}, node ∈ request.nodes ↔ _ := evaluated.wellFormed.mem_iff_place
  simp only [Model.nodeEntries, List.map_map, List.mem_map]
  constructor
  · rintro ⟨⟨i, j⟩, listed, rfl⟩
    obtain ⟨node, owner, stands, ownerStands, connected, _⟩ := evaluated.exists_owned listed
    refine ⟨node, mem_iff_place.mpr ⟨i, stands⟩, connected, ?_⟩
    rw [Function.comp_apply, nodeReport_eq evaluated.months_eq stands ownerStands, own_nodeEntry]
  · rintro ⟨node, member, connected, rfl⟩
    obtain ⟨i, stands⟩ := mem_iff_place.mp member
    have held := (evaluated.inTrees_iff stands).mpr connected
    obtain ⟨⟨_, j⟩, listed, rfl⟩ := List.mem_map.mp (Model.owned_inNodeOrder_iff.mpr held)
    obtain ⟨_, owner, _, ownerStands, _⟩ := evaluated.exists_owned listed
    refine ⟨_, listed, ?_⟩
    rw [Function.comp_apply, nodeReport_eq evaluated.months_eq stands ownerStands, own_nodeEntry]

theorem Evaluated.own_ids_nodup (evaluated : Evaluated policy request trees ledger) :
    ((((request.model policy).nodeEntries ledger trees).map NodeReport.own).map (·.1)).Nodup := by
  rw [List.map_map]
  exact ids_nodup evaluated.scheduled.toForest ledger

section Rearranged

variable (evaluated : Evaluated policy request trees ledger) (arranged : nodes.Perm request.nodes)
  (other : Evaluated policy (request.withNodes nodes) otherTrees others)
include evaluated arranged other

theorem values_perm {place : Nat} (before : place < request.months.length) :
    ∀ node ∈ request.nodes, Connected request.nodes request.edges node.id →
      request.ledgerValues ledger node.id place =
        (request.withNodes nodes).ledgerValues others node.id place := by
  have shares : Shares request (request.withNodes nodes)
      (Connected request.nodes request.edges) :=
    ⟨fun node member _ => ⟨node, arranged.mem_iff.mpr member, twins_withNodes request nodes node⟩,
      evaluated.wellFormed.connected_of_reads, fun held => held, (connected_perm_iff arranged).mpr⟩
  exact evaluated.values_eq other shares (sameMonths_of_eq rfl before)

theorem metricEntries_perm :
    ((nodes.filter (·.kind.type == .metric)).map ((request.withNodes nodes).metricEntry
        ((request.withNodes nodes).ledgerValues others))).Perm
      ((request.nodes.filter (·.kind.type == .metric)).map
        (request.metricEntry (request.ledgerValues ledger))) := by
  apply ((arranged.filter _).map _).trans
  apply List.Perm.of_eq
  apply List.map_congr_left
  intro metric member
  obtain ⟨among, type⟩ := List.mem_filter.mp member
  have isMetric : IsMetric metric := beq_iff_eq.mp type
  exact ((twins_withNodes request nodes metric).metricEntry_eq rfl fun place before =>
    values_perm evaluated arranged other before metric among (isMetric.connected among)).symm

theorem nodeEntries_perm :
    ((((request.withNodes nodes).model policy).nodeEntries others otherTrees).map
        NodeReport.own).Perm
      (((request.model policy).nodeEntries ledger trees).map NodeReport.own) := by
  apply (List.perm_ext_iff_of_nodup other.own_ids_nodup.of_map
    evaluated.own_ids_nodup.of_map).mpr
  intro own
  simp only [other.mem_own_iff, evaluated.mem_own_iff, withNodes_nodes, withNodes_edges,
    arranged.mem_iff, connected_perm_iff arranged]
  apply exists_congr
  intro node
  apply and_congr_right
  intro member
  apply and_congr_right
  intro connected
  have columns : request.column (request.ledgerValues ledger) node.id =
      (request.withNodes nodes).column ((request.withNodes nodes).ledgerValues others) node.id :=
    column_eq rfl fun place before =>
      values_perm evaluated arranged other before node member connected
  rw [columns]

theorem sameValues_report (moment : Timestamp) :
    ((request.model policy).report ledger trees request.forecastId moment
      (request.nodesIncluded policy)).SameValues
        (((request.withNodes nodes).model policy).report others otherTrees request.forecastId
          moment (request.nodesIncluded policy)) := by
  have metrics := metricEntries_perm evaluated arranged other
  have own := nodeEntries_perm evaluated arranged other
  refine ⟨rfl, rfl, ?_, ?_, ?_, ?_, ?_⟩
  · rw [other.metrics_report_eq, evaluated.metrics_report_eq]
    exact metrics
  · intro id
    rw [Report.metric?, Report.metric?, other.metrics_report_eq, evaluated.metrics_report_eq]
    exact find?_key_perm metrics other.metric_ids_nodup id
  · rw [Model.allNodes_report, Model.allNodes_report]
    cases request.nodesIncluded policy <;> rfl
  · intro entries otherEntries given otherGiven
    rw [Model.eq_nodeEntries given, Model.eq_nodeEntries otherGiven]
    exact own
  · intro id
    rw [Report.node?, Report.node?, Model.allNodes_report, Model.allNodes_report]
    cases request.nodesIncluded policy with
    | false => rfl
    | true =>
      have found := find?_key_perm own other.own_ids_nodup id
      rwa [List.find?_map, List.find?_map] at found

end Rearranged

/-- The order of the nodes decides neither how a calculation ends nor any value. -/
theorem report_nodesPermuted (policy : Policy) (request : Request) (moment : Timestamp)
    (nodes : List Node) (arranged : nodes.Perm request.nodes) :
    EndsAlike (request.report policy moment)
      ({ request with nodes := nodes }.report policy moment) := by
  have formed_iff : WellFormed nodes request.edges ↔ WellFormed request.nodes request.edges :=
    ⟨fun wellFormed => wellFormed.of_perm arranged.symm,
      fun wellFormed => wellFormed.of_perm arranged⟩
  have cyclic_iff : ReadCycle nodes request.edges ↔ ReadCycle request.nodes request.edges :=
    readCycle_perm_iff arranged
  have missing_iff := variableMissing_perm_iff arranged
  have ends := report_ends policy request moment
  have otherEnds := report_ends policy (request.withNodes nodes) moment
  change EndsAlike _ ((request.withNodes nodes).report policy moment)
  generalize request.report policy moment = result at ends ⊢
  generalize (request.withNodes nodes).report policy moment = other at otherEnds ⊢
  cases ends with
  | reversed reversed =>
    cases otherEnds with
    | reversed => exact .failed .invalidRange
    | _ => contradiction
  | malformed ordered malformed =>
    rw [← formed_iff] at malformed
    cases otherEnds with
    | malformed => exact .failed .invalidGraph
    | _ => contradiction
  | cyclic ordered wellFormed cyclic =>
    rw [← formed_iff] at wellFormed
    rw [← cyclic_iff] at cyclic
    cases otherEnds with
    | cyclic => exact .failed .build
    | _ => contradiction
  | missing ordered wellFormed acyclic missing =>
    rw [← formed_iff] at wellFormed
    rw [← cyclic_iff] at acyclic
    rw [← missing_iff] at missing
    cases otherEnds with
    | missing => exact .failed .data
    | _ => contradiction
  | reported ordered wellFormed acyclic known scheduled progress =>
    rw [← cyclic_iff] at acyclic
    rw [← missing_iff] at known
    cases otherEnds with
    | reported _ otherWellFormed _ _ otherScheduled otherProgress =>
      exact .reported (sameValues_report ⟨wellFormed, scheduled, progress⟩ arranged
        ⟨otherWellFormed, otherScheduled, otherProgress⟩ moment)
    | malformed _ malformed => exact absurd (formed_iff.mpr wellFormed) malformed
    | _ => contradiction

/-- The nodes of the request that grows, with its metrics first and in another order. -/
def growthNodes : List Node :=
  [⟨"share", .metric ⟨"Share", none, none, true⟩, none⟩,
    ⟨"total", .metric ⟨"Total", some "plan", some "actuals", true⟩, none⟩,
    ⟨"rate", .constant "Rate" 1, none⟩, ⟨"last", .seed "total", none⟩,
    ⟨"product", .operator .multiply ["rate", "total"], none⟩,
    ⟨"sum", .operator .add ["last", "rate"], none⟩]

theorem report_nodesPermuted_growth :
    growthNodes.Perm growthRequest.nodes ∧
      EndsAlike (growthRequest.report growthPolicy growthMoment)
        ({ growthRequest with nodes := growthNodes }.report growthPolicy growthMoment) := by
  have arranged : growthNodes.Perm growthRequest.nodes := by decide +kernel
  exact ⟨arranged,
    report_nodesPermuted growthPolicy growthRequest growthMoment growthNodes arranged⟩

end Request
end MonthlyForecast
