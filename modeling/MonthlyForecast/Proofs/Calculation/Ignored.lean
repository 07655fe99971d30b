import MonthlyForecast.Proofs.Calculation.ConnectedGraph
import MonthlyForecast.Proofs.Report.Entries

/-! Disconnected nodes are ignored. The graph without them lies within the given one, so
trees, their order, faults and owners are the same under other numbers; and connected nodes
stand alike in both requests, so their values are. -/
namespace MonthlyForecast
open Validation MetricTree

namespace Model

variable {f : Nat ↪o Nat}

theorem inNodeOrder_renumber (trees : List MetricTree) :
    inNodeOrder (trees.map (MetricTree.renumber f)) =
      (inNodeOrder trees).map (MetricTree.renumber f) := by
  unfold inNodeOrder
  symm
  apply List.map_mergeSort
  intro first _ second _
  simp only [MetricTree.renumber, f.le_iff_le]

theorem nodeOwners_renumber (trees : List MetricTree) :
    nodeOwners (trees.map (MetricTree.renumber f)) = (nodeOwners trees).map (Prod.map f f) := by
  have rooted : ∀ node, (trees.map (MetricTree.renumber f)).any (·.root == f node) =
      trees.any (·.root == node) := by
    intro node
    simp only [List.any_map, Function.comp_def, MetricTree.renumber, beq_renumber]
  have owned : ∀ (owners : List (NodeIndex × NodeIndex)) node,
      (owners.map (Prod.map f f)).any (·.1 == f node) = owners.any (·.1 == node) := by
    intro owners node
    simp only [List.any_map, Function.comp_def, Prod.map_fst, beq_renumber]
  unfold nodeOwners
  refine foldl_map_hom (List.map (Prod.map f f)) ?_ trees []
  intro owners tree
  refine foldl_map_hom (List.map (Prod.map f f)) ?_ tree.slots owners
  intro owners slot
  simp only [MetricTree.renumber, TreeSlot.renumber, rooted, owned]
  split
  · rfl
  · split <;> simp

end Model

attribute [ext] Report

namespace Request

/-- The request without the nodes that are warned of as disconnected, and the edges at
them. -/
def connectedPart (request : Request) : Request :=
  { request with
    nodes := connectedNodes request.nodes request.edges
    edges := connectedEdges request.nodes request.edges }

variable {request : Request} {policy : Policy} {trees : List MetricTree} {node : Node}
  {ledger partLedger : Ledger} {f : Nat ↪o Nat}

theorem twins_connectedPart (wellFormed : WellFormed request.nodes request.edges)
    (connected : Connected request.nodes request.edges node.id) :
    Twins request request.connectedPart node node :=
  ⟨rfl, rfl, fun _ _ _ => wellFormed.inputIds_connectedEdges connected, fun _ _ _ _ => rfl⟩

theorem shares_connectedPart (wellFormed : WellFormed request.nodes request.edges) :
    Shares request request.connectedPart (Connected request.nodes request.edges) where
  alike := fun node member connected =>
    ⟨node, wellFormed.mem_connectedNodes_iff.mpr ⟨member, connected⟩,
      twins_connectedPart wellFormed connected⟩
  closed := wellFormed.connected_of_reads
  connected := fun held => held
  connected_too := wellFormed.connected_connectedNodes

/-- All metrics are left. -/
theorem metrics_connectedNodes (wellFormed : WellFormed request.nodes request.edges) :
    (connectedNodes request.nodes request.edges).filter (·.kind.type == .metric) =
      request.nodes.filter (·.kind.type == .metric) := by
  rw [connectedNodes, List.filter_filter]
  apply List.filter_congr
  intro node member
  by_cases isMetric : node.kind.type = .metric
  · have kept := wellFormed.metric_mem_connectedNodes member isMetric
    simpa [isMetric] using (List.mem_filter.mp kept).2
  · simp [isMetric]

section Evaluated

variable (evaluated : Evaluated policy request (trees.map (MetricTree.renumber f)) ledger)
  (part : Evaluated policy request.connectedPart trees partLedger)
include evaluated part

theorem values_connectedPart {place : Nat} (before : place < request.months.length) :
    ∀ node ∈ request.nodes, Connected request.nodes request.edges node.id →
      request.ledgerValues ledger node.id place =
        request.connectedPart.ledgerValues partLedger node.id place :=
  evaluated.values_eq part (shares_connectedPart evaluated.wellFormed)
    (sameMonths_of_eq rfl before)

theorem metrics_connectedPart (forecastId : String) (moment : Timestamp) (included : Bool) :
    ((request.connectedPart.model policy).report partLedger trees forecastId moment
        included).metrics =
      ((request.model policy).report ledger (trees.map (MetricTree.renumber f)) forecastId moment
        included).metrics := by
  have kept : request.connectedPart.nodes.filter (·.kind.type == .metric) =
      request.nodes.filter (·.kind.type == .metric) := metrics_connectedNodes evaluated.wellFormed
  rw [part.metrics_report_eq, evaluated.metrics_report_eq, kept]
  apply List.map_congr_left
  intro metric member
  obtain ⟨among, type⟩ := List.mem_filter.mp member
  have isMetric : IsMetric metric := beq_iff_eq.mp type
  have connected : Connected request.nodes request.edges metric.id := isMetric.connected among
  exact ((twins_connectedPart evaluated.wellFormed connected).metricEntry_eq rfl
    fun place before => values_connectedPart evaluated part before metric among connected).symm

theorem nodeEntries_connectedPart
    (embedded : Graph.Embedded (request.connectedPart.model policy).graph
      (request.model policy).graph f) :
    (request.connectedPart.model policy).nodeEntries partLedger trees =
      (request.model policy).nodeEntries ledger (trees.map (MetricTree.renumber f)) := by
  rw [Model.nodeEntries, Model.nodeEntries, Model.inNodeOrder_renumber, Model.nodeOwners_renumber,
    List.map_map]
  apply List.map_congr_left
  rintro ⟨i, j⟩ listed
  obtain ⟨node, owner, stands, ownerStands, _, isMetric⟩ := part.exists_owned listed
  have kept : ∀ {i node}, (Graph.ofLists request.connectedPart.nodes
      request.connectedPart.edges).nodes[i]? = some node →
        node ∈ request.nodes ∧ Connected request.nodes request.edges node.id :=
    fun stands => evaluated.wellFormed.mem_connectedNodes_iff.mp
      (part.wellFormed.mem_iff_place.mpr ⟨_, stands⟩)
  obtain ⟨member, connected⟩ := kept stands
  obtain ⟨ownerMember, ownerConnected⟩ := kept ownerStands
  have wellFormed := evaluated.wellFormed
  have given : (request.model policy).nodeReport ledger (f i)
      ((request.model policy).metricReport ledger (f j)) =
        request.nodeEntry (request.ledgerValues ledger) node owner :=
    nodeReport_eq evaluated.months_eq ((embedded.nodes_at i).trans stands)
      ((embedded.nodes_at j).trans ownerStands)
  have alike := (twins_connectedPart wellFormed connected).nodeEntry_eq
    (twins_connectedPart wellFormed ownerConnected) rfl
    (fun place before => values_connectedPart evaluated part before node member connected)
    (fun place before =>
      values_connectedPart evaluated part before owner ownerMember ownerConnected)
  rw [nodeReport_eq part.months_eq stands ownerStands]
  exact (given.trans alike).symm

theorem report_eq_connectedPart
    (embedded : Graph.Embedded (request.connectedPart.model policy).graph
      (request.model policy).graph f) (moment : Timestamp) :
    (request.connectedPart.model policy).report partLedger trees request.forecastId moment
        (request.nodesIncluded policy) =
      (request.model policy).report ledger (trees.map (MetricTree.renumber f)) request.forecastId
        moment (request.nodesIncluded policy) := by
  apply Report.ext
  · rfl
  · rfl
  · exact metrics_connectedPart evaluated part ..
  · rw [Model.allNodes_report, Model.allNodes_report,
      nodeEntries_connectedPart evaluated part embedded]

end Evaluated

/-- Without its disconnected nodes a valid graph is valid and a calculation ends in the same
way. -/
theorem report_connectedPart (policy : Policy) (request : Request) (moment : Timestamp)
    (valid : (verdict request.nodes request.edges).isValid) :
    (verdict request.connectedPart.nodes request.connectedPart.edges).isValid ∧
      request.connectedPart.report policy moment = request.report policy moment := by
  have wellFormed := isValid_iff_wellFormed.mp valid
  have partWellFormed : WellFormed request.connectedPart.nodes request.connectedPart.edges :=
    wellFormed.connectedPart
  refine ⟨isValid_iff_wellFormed.mpr partWellFormed, ?_⟩
  by_cases ordered : request.endDate.MonthBefore request.startDate
  · have reversed : request.connectedPart.endDate.MonthBefore request.connectedPart.startDate :=
      ordered
    rw [report_of_reversed policy moment ordered, report_of_reversed policy moment reversed]
    rfl
  have partOrdered : ¬ request.connectedPart.endDate.MonthBefore request.connectedPart.startDate :=
    ordered
  obtain ⟨f, embedded⟩ := wellFormed.exists_embedded
  have embedded : (request.connectedPart.model policy).graph.Embedded
      (request.model policy).graph f := embedded
  obtain ⟨built, builds⟩ := partWellFormed.checked.exists_builds
  have schedules := schedule_renumber embedded builds
  have references := Model.resolveReferences_renumber embedded rfl
  rcases report_lockstep policy moment partOrdered partWellFormed ordered wellFormed _
    schedules references with ⟨fault, failed, otherFailed⟩ |
      ⟨trees, ledger, others, evaluated, otherEvaluated, reported, otherReported⟩
  · rw [failed, otherFailed]
  · rw [reported, otherReported]
    exact congrArg Except.ok (report_eq_connectedPart otherEvaluated evaluated embedded moment)

/-- A total of two constants, beside an operator that leads nowhere, on a variable that is not
given. -/
def scatteredRequest : Request where
  forecastId := "scattered"
  nodes := [⟨"idle", .data "Idle" "unknown" 0, none⟩,
    ⟨"total", .metric ⟨"Total", none, none, true⟩, none⟩,
    ⟨"spare", .operator .add ["idle"], none⟩, ⟨"first", .constant "First" 1, none⟩,
    ⟨"sum", .operator .add ["first", "second"], none⟩, ⟨"second", .constant "Second" 2, none⟩]
  edges := [⟨"a", "idle", "spare"⟩, ⟨"b", "first", "sum"⟩, ⟨"c", "second", "sum"⟩,
    ⟨"d", "sum", "total"⟩]
  variableList := []
  startDate := ⟨2025, 1, 1, by decide⟩
  endDate := ⟨2025, 3, 31, by decide⟩
  includeNodeResults := some true

theorem report_connectedPart_scattered :
    (verdict scatteredRequest.nodes scatteredRequest.edges).isValid ∧
      (verdict scatteredRequest.connectedPart.nodes scatteredRequest.connectedPart.edges).isValid ∧
      scatteredRequest.connectedPart.report .standard growthMoment =
        scatteredRequest.report .standard growthMoment := by
  have valid : (verdict scatteredRequest.nodes scatteredRequest.edges).isValid := by
    decide +kernel
  exact ⟨valid, report_connectedPart .standard scatteredRequest growthMoment valid⟩

end Request
end MonthlyForecast
