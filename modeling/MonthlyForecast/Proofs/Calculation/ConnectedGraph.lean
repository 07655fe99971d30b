import Mathlib.Data.List.NodupEquivFin
import MonthlyForecast.Proofs.Calculation.Connection
import MonthlyForecast.Proofs.Tree.Renumbering

/-! The graph without disconnected nodes lies within the given one. The places of the nodes
that are left are a renumbering that keeps the order, and each of these nodes has the same
parents under it, since what a connected node reads is connected. -/
namespace MonthlyForecast
open Validation

namespace Graph

variable {graph : Graph} {i : NodeIndex} {firsts seconds : List NodeIndex}

/-- Nodes are told by their ids. -/
theorem Resolved.eq_of_map_idOf (resolved : graph.Resolved)
    (inside : ∀ i ∈ firsts, i < graph.size) (insideToo : ∀ i ∈ seconds, i < graph.size)
    (same : firsts.map graph.idOf = seconds.map graph.idOf) : firsts = seconds := by
  have back : ∀ places : List NodeIndex, (∀ i ∈ places, i < graph.size) →
      (places.map graph.idOf).map graph.index? = places.map some := by
    intro places inside
    rw [List.map_map]
    exact List.map_congr_left fun i member => resolved.index?_idOf (inside i member)
  apply List.map_injective_iff.mpr (Option.some_injective NodeIndex)
  rw [← back firsts inside, ← back seconds insideToo, same]

theorem Resolved.parents_eq_nil (resolved : graph.Resolved) (outside : ¬ i < graph.size) :
    graph.parents i = [] := by
  apply List.eq_nil_iff_forall_not_mem.mpr
  intro parent member
  exact outside (resolved.links_inside (mem_parents_iff.mp member)).2

end Graph

/-- A node reads what its kind names. -/
theorem readsValue_of_refers {nodes : List Node} {node : Node} {id : String} (edges : List Edge)
    (member : node ∈ nodes) (refers : node.kind.Refers id) :
    ReadsValue nodes edges node.id id := by
  refine ⟨node, member, rfl, ?_⟩
  unfold NodeKind.Refers at refers
  unfold Node.Takes
  cases kind : node.kind with
  | operator operation ids =>
    rw [kind] at refers
    exact Or.inl refers
  | seed source =>
    rw [kind] at refers
    exact Or.inr (congrArg NodeKind.seed refers)
  | data | constant | metric => simp [kind] at refers

namespace Validation.WellFormed

variable {nodes : List Node} {edges : List Edge} {f : Nat ↪o Nat} {id : String}

section Embedding

variable (wellFormed : WellFormed nodes edges)
  (nodes_at : ∀ i : Nat, (Graph.ofLists nodes edges).nodes[f i]? =
    (connectedGraph nodes edges).nodes[i]?)
include wellFormed nodes_at

theorem index?_of_connected (connected : Connected nodes edges id) :
    (Graph.ofLists nodes edges).index? id =
      ((connectedGraph nodes edges).index? id).map f := by
  obtain ⟨node, member, rfl⟩ := wellFormed.exists_node_of_connected connected
  have kept := wellFormed.mem_connectedNodes_iff.mpr ⟨member, connected⟩
  obtain ⟨i, stands⟩ := wellFormed.connectedPart.mem_iff_place.mp kept
  rw [index?_of_place stands, Option.map_some]
  exact index?_of_place ((nodes_at i).trans stands)

theorem parents_connectedPart (i : NodeIndex) :
    (Graph.ofLists nodes edges).parents (f i) =
      ((connectedGraph nodes edges).parents i).map f := by
  have resolved := Graph.ofLists_resolved nodes edges
  have partResolved :=
    Graph.ofLists_resolved (connectedNodes nodes edges) (connectedEdges nodes edges)
  have idOf_at : ∀ i, (Graph.ofLists nodes edges).idOf (f i) =
      (connectedGraph nodes edges).idOf i := by
    intro i
    rw [Graph.idOf, Graph.idOf, nodes_at]
  by_cases inside : i < (connectedGraph nodes edges).size
  · obtain ⟨node, stands⟩ := Graph.exists_place inside
    obtain ⟨_, connected⟩ := wellFormed.mem_connectedNodes_iff.mp
      (wellFormed.connectedPart.mem_iff_place.mpr ⟨i, stands⟩)
    have standsToo := (nodes_at i).trans stands
    apply resolved.eq_of_map_idOf
    · exact fun parent member => (resolved.links_inside (Graph.mem_parents_iff.mp member)).1
    · intro parent member
      obtain ⟨kept, among, rfl⟩ := List.mem_map.mp member
      have keptInside := (partResolved.links_inside (Graph.mem_parents_iff.mp among)).1
      obtain ⟨other, otherStands⟩ := Graph.exists_place keptInside
      exact Graph.lt_of_place ((nodes_at kept).trans otherStands)
    · rw [wellFormed.map_idOf_parents (index?_of_place standsToo),
        ← wellFormed.inputIds_connectedEdges connected,
        ← wellFormed.connectedPart.map_idOf_parents (index?_of_place stands), List.map_map]
      exact List.map_congr_left fun parent _ => (idOf_at parent).symm
  · have outside : ¬ f i < (Graph.ofLists nodes edges).size := by
      intro there
      obtain ⟨node, stands⟩ := Graph.exists_place there
      exact inside (Graph.lt_of_place ((nodes_at i).symm.trans stands))
    rw [partResolved.parents_eq_nil inside, resolved.parents_eq_nil outside]
    rfl

theorem metrics_connectedPart :
    (Graph.ofLists nodes edges).metrics =
      (connectedGraph nodes edges).metrics.map f := by
  have partSorted := Graph.metrics_sorted (connectedGraph nodes edges)
  apply List.Perm.eq_of_pairwise (fun _ _ _ _ => Nat.le_antisymm)
  · exact (Graph.metrics_sorted _).imp Nat.le_of_lt
  · exact List.pairwise_map.mpr (partSorted.imp fun before => f.monotone (Nat.le_of_lt before))
  · apply (List.perm_ext_iff_of_nodup (Graph.metrics_nodup _)
      ((Graph.metrics_nodup _).map f.injective)).mpr
    intro j
    rw [Graph.mem_metrics_iff, List.mem_map]
    constructor
    · intro isMetric
      obtain ⟨metric, stands⟩ := Graph.exists_place (Graph.isMetric_lt isMetric)
      have isMetric := (isMetric_iff stands).mp isMetric
      have kept := wellFormed.metric_mem_connectedNodes
        (wellFormed.mem_iff_place.mpr ⟨j, stands⟩) isMetric
      obtain ⟨i, standsToo⟩ := wellFormed.connectedPart.mem_iff_place.mp kept
      refine ⟨i, Graph.mem_metrics_iff.mpr ((isMetric_iff standsToo).mpr isMetric), ?_⟩
      have here := index?_of_place stands
      rw [index?_of_place ((nodes_at i).trans standsToo)] at here
      exact Option.some.inj here
    · rintro ⟨i, isMetric, rfl⟩
      have isMetric := Graph.mem_metrics_iff.mp isMetric
      obtain ⟨metric, stands⟩ := Graph.exists_place (Graph.isMetric_lt isMetric)
      exact (isMetric_iff ((nodes_at i).trans stands)).mpr ((isMetric_iff stands).mp isMetric)

end Embedding

/-- The graph without disconnected nodes lies within the given one. -/
theorem exists_embedded (wellFormed : WellFormed nodes edges) :
    ∃ f, (connectedGraph nodes edges).Embedded (Graph.ofLists nodes edges) f := by
  have within : (connectedNodes nodes edges).Sublist nodes := List.filter_sublist
  obtain ⟨f, at_places⟩ := List.sublist_iff_exists_orderEmbedding_getElem?_eq.mp within
  have nodes_at : ∀ i : Nat, (Graph.ofLists nodes edges).nodes[f i]? =
      (connectedGraph nodes edges).nodes[i]? := by
    intro i
    simp only [Graph.ofLists_nodes, Graph.distinctNodes_eq_self wellFormed.ids_distinct,
      Graph.distinctNodes_eq_self wellFormed.connectedPart.ids_distinct, List.getElem?_toArray,
      at_places]
  refine ⟨f, nodes_at, wellFormed.metrics_connectedPart nodes_at,
    wellFormed.parents_connectedPart nodes_at, ?_⟩
  intro i kind id shape refers
  obtain ⟨node, stands, rfl⟩ := Graph.exists_place_of_kind? shape
  obtain ⟨member, connected⟩ := wellFormed.mem_connectedNodes_iff.mp
    (wellFormed.connectedPart.mem_iff_place.mpr ⟨i, stands⟩)
  apply wellFormed.index?_of_connected nodes_at
  exact wellFormed.connected_of_reads connected (readsValue_of_refers edges member refers)

end Validation.WellFormed

end MonthlyForecast
