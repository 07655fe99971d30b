import MonthlyForecast.Proofs.Calculation.Agreement
import MonthlyForecast.Proofs.Graph.LeadingTo
import MonthlyForecast.Proofs.Validation.Disconnection

/-! The nodes that validation warns of. A warning of disconnection is given for exactly the
nodes that lead to no metric. A connected node reads connected nodes only, so without the
other nodes, and the edges at them, the lists are well-formed as before and say the same of
every node that is left. -/
namespace MonthlyForecast
open Relation Validation

/-- The ids of the nodes that are warned of as disconnected. -/
def disconnectedIds (nodes : List Node) (edges : List Edge) : List String :=
  ((issues nodes edges).filter Issue.disconnection).filterMap (·.nodeId)

/-- The nodes without those that are warned of. -/
def connectedNodes (nodes : List Node) (edges : List Edge) : List Node :=
  nodes.filter fun node => node.id ∉ disconnectedIds nodes edges

/-- The edges that touch no node that is warned of. -/
def connectedEdges (nodes : List Node) (edges : List Edge) : List Edge :=
  edges.filter fun edge =>
    edge.sourceId ∉ disconnectedIds nodes edges ∧ edge.targetId ∉ disconnectedIds nodes edges

/-- The graph without the nodes that are warned of. -/
abbrev connectedGraph (nodes : List Node) (edges : List Edge) : Graph :=
  .ofLists (connectedNodes nodes edges) (connectedEdges nodes edges)

namespace Validation

variable {nodes : List Node} {edges : List Edge} {i : Nat}

/-- The nodes found by the search from the metrics. -/
theorem mem_leadingTo_metrics_iff (nodes : List Node) (edges : List Edge) :
    i ∈ (Graph.ofLists nodes edges).leadingTo (Graph.ofLists nodes edges).metrics ↔
      ∃ metric, (Graph.ofLists nodes edges).isMetric metric ∧
        ReflTransGen (Graph.ofLists nodes edges).Linked i metric := by
  simp only [Graph.mem_leadingTo_iff, Graph.mem_metrics_iff]

theorem mem_disconnectedIds_iff (wellFormed : WellFormed nodes edges) {id : String} :
    id ∈ disconnectedIds nodes edges ↔ id ∈ nodes.map (·.id) ∧ ¬ Connected nodes edges id := by
  have metric : (Graph.ofLists nodes edges).metrics.isEmpty = false := by
    obtain ⟨metric, member, isMetric⟩ := wellFormed.has_metric
    obtain ⟨i, stands⟩ := wellFormed.mem_iff_place.mp member
    have among := Graph.mem_metrics_iff.mpr ((isMetric_iff stands).mpr isMetric)
    exact List.isEmpty_eq_false_iff_exists_mem.mpr ⟨i, among⟩
  simp only [disconnectedIds, filter_disconnection_issues, disconnectedNodes, metric,
    Bool.false_eq_true, if_false, List.filterMap_map, List.mem_filterMap, List.mem_filter,
    decide_eq_true_eq, mem_leadingTo_metrics_iff]
  constructor
  · rintro ⟨i, ⟨inside, apart⟩, named⟩
    cases Option.some.inj named
    have inside := List.mem_range.mp inside
    have found := wellFormed.checked.resolved.index?_idOf inside
    exact ⟨Graph.idOf_mem_ids inside, fun connected =>
      apart ((wellFormed.connected_iff found).mp connected)⟩
  · rintro ⟨named, apart⟩
    obtain ⟨i, found⟩ := Graph.exists_index? edges named
    exact ⟨i, ⟨List.mem_range.mpr (Graph.index?_lt found), fun leads =>
      apart ((wellFormed.connected_iff found).mpr leads)⟩, congrArg some (Graph.idOf_index? found)⟩

namespace WellFormed

variable {node : Node} {edge : Edge} {id source target : String}

/-- A node is warned of unless it is connected. -/
theorem warned_iff (wellFormed : WellFormed nodes edges) (member : node ∈ nodes) :
    node.id ∈ disconnectedIds nodes edges ↔ ¬ Connected nodes edges node.id := by
  have named : node.id ∈ nodes.map (·.id) := List.mem_map_of_mem member
  rw [mem_disconnectedIds_iff wellFormed, and_iff_right named]

theorem mem_connectedNodes_iff (wellFormed : WellFormed nodes edges) :
    node ∈ connectedNodes nodes edges ↔ node ∈ nodes ∧ Connected nodes edges node.id := by
  simp only [connectedNodes, List.mem_filter, decide_eq_true_eq]
  apply and_congr_right
  intro member
  rw [wellFormed.warned_iff member, not_not]

theorem metric_mem_connectedNodes (wellFormed : WellFormed nodes edges) (member : node ∈ nodes)
    (isMetric : IsMetric node) : node ∈ connectedNodes nodes edges :=
  wellFormed.mem_connectedNodes_iff.mpr ⟨member, isMetric.connected member⟩

theorem mem_connectedEdges_iff (wellFormed : WellFormed nodes edges) :
    edge ∈ connectedEdges nodes edges ↔ edge ∈ edges ∧ Connected nodes edges edge.targetId := by
  simp only [connectedEdges, List.mem_filter, decide_eq_true_eq, mem_disconnectedIds_iff wellFormed]
  apply and_congr_right
  intro member
  obtain ⟨sourceNamed, targetNamed⟩ := wellFormed.ends_named edge member
  simp only [sourceNamed, targetNamed, true_and, not_not, and_iff_right_iff_imp]
  exact fun connected => connected.of_joined ⟨edge, member, rfl, rfl⟩

theorem inputIds_connectedEdges (wellFormed : WellFormed nodes edges)
    (connected : Connected nodes edges id) :
    inputIds (connectedEdges nodes edges) id = inputIds edges id := by
  rw [inputIds, inputIds, connectedEdges, List.filter_filter]
  congr 1
  apply List.filter_congr
  intro edge member
  by_cases into : edge.targetId = id
  · have kept : edge ∈ connectedEdges nodes edges :=
      wellFormed.mem_connectedEdges_iff.mpr ⟨member, into ▸ connected⟩
    simpa [into] using (List.mem_filter.mp kept).2
  · simp [into]

theorem joined_connectedEdges_iff (wellFormed : WellFormed nodes edges)
    (connected : Connected nodes edges target) :
    Joined (connectedEdges nodes edges) source target ↔ Joined edges source target := by
  rw [← mem_inputIds_iff, wellFormed.inputIds_connectedEdges connected, mem_inputIds_iff]

/-- A connected node leads to the same metric by the edges that are left. -/
theorem connected_connectedNodes (wellFormed : WellFormed nodes edges)
    (connected : Connected nodes edges id) :
    Connected (connectedNodes nodes edges) (connectedEdges nodes edges) id := by
  obtain ⟨metric, member, isMetric, path⟩ := connected
  refine ⟨metric, wellFormed.metric_mem_connectedNodes member isMetric, isMetric, ?_⟩
  induction path using ReflTransGen.head_induction_on with
  | refl => exact .refl
  | head joined rest ih =>
    have next : Connected nodes edges _ := ⟨metric, member, isMetric, rest⟩
    exact ih.head ((wellFormed.joined_connectedEdges_iff next).mpr joined)

/-- Without disconnected nodes the lists are well-formed again. -/
theorem connectedPart (wellFormed : WellFormed nodes edges) :
    WellFormed (connectedNodes nodes edges) (connectedEdges nodes edges) where
  ids_distinct := (List.filter_sublist.map _).nodup wellFormed.ids_distinct
  ends_named := by
    intro edge member
    obtain ⟨among, connected⟩ := wellFormed.mem_connectedEdges_iff.mp member
    have sourceConnected : Connected nodes edges edge.sourceId :=
      connected.of_joined ⟨edge, among, rfl, rfl⟩
    have named : ∀ {id}, Connected nodes edges id →
        id ∈ (connectedNodes nodes edges).map (·.id) := by
      intro id connected
      obtain ⟨node, member, rfl⟩ := wellFormed.exists_node_of_connected connected
      exact List.mem_map_of_mem (wellFormed.mem_connectedNodes_iff.mpr ⟨member, connected⟩)
    exact ⟨named sourceConnected, named connected⟩
  has_metric := by
    obtain ⟨metric, member, isMetric⟩ := wellFormed.has_metric
    exact ⟨metric, wellFormed.metric_mem_connectedNodes member isMetric, isMetric⟩
  acyclic := by
    intro start cycle
    apply wellFormed.acyclic start
    apply cycle.lift fun id => id
    rintro source target ⟨edge, member, ends⟩
    exact ⟨edge, List.mem_of_mem_filter member, ends⟩
  inputs_match := by
    intro node member
    obtain ⟨among, connected⟩ := wellFormed.mem_connectedNodes_iff.mp member
    have matching := wellFormed.inputs_match node among
    unfold InputsMatch at matching ⊢
    rwa [wellFormed.inputIds_connectedEdges connected]
  input_counts := by
    intro node member
    obtain ⟨among, connected⟩ := wellFormed.mem_connectedNodes_iff.mp member
    have counted := wellFormed.input_counts node among
    unfold InputCountAllowed at counted ⊢
    rwa [wellFormed.inputIds_connectedEdges connected]
  seed_sources := by
    intro node member
    obtain ⟨among, _⟩ := wellFormed.mem_connectedNodes_iff.mp member
    exact (wellFormed.seed_sources node among).mono fun _ => wellFormed.metric_mem_connectedNodes

end WellFormed
end Validation
end MonthlyForecast
