import MonthlyForecast.Proofs.Calculation.Ignored
import MonthlyForecast.Proofs.Report.Alignment

/-! The nodes that count. The warnings of validation, the trees and the entries of a report
come from three walks over the graph: backwards from all metrics at once, down from each
metric to the next ones, and along the slots of the trees. All three tell the same nodes
apart. -/
namespace MonthlyForecast
open Validation MetricTree

/-- A slot of one of the trees stands for the node. -/
def TreesHold (graph : Graph) (trees : List MetricTree) (node : Node) : Prop :=
  ∃ tree ∈ trees, ∃ slot ∈ tree.slots, graph.nodes[slot.node]? = some node

namespace Request

variable {request : Request} {policy : Policy} {ledger : Ledger} {trees : List MetricTree}
  {node : Node} {i : Nat}

theorem treesHold_iff
    (stands : (Graph.ofLists request.nodes request.edges).nodes[i]? = some node) :
    TreesHold (.ofLists request.nodes request.edges) trees node ↔ Model.InTrees trees i := by
  have found := WellFormed.index?_of_place stands
  constructor
  · rintro ⟨tree, member, slot, among, place⟩
    have same := (WellFormed.index?_of_place place).symm.trans found
    exact ⟨tree, member, slot, among, Option.some.inj same⟩
  · rintro ⟨tree, member, slot, among, rfl⟩
    exact ⟨tree, member, slot, among, stands⟩

namespace Evaluated

variable (evaluated : Evaluated policy request trees ledger)
include evaluated

/-- The nodes with an entry are those that lead to a metric. -/
theorem has_entry_iff (member : node ∈ request.nodes) :
    node.id ∈ ((request.model policy).nodeEntries ledger trees).map (·.nodeId) ↔
      Connected request.nodes request.edges node.id := by
  obtain ⟨i, stands⟩ := evaluated.wellFormed.mem_iff_place.mp member
  have own : (request.model policy).graph.index? node.id = some i :=
    WellFormed.index?_of_place stands
  rw [Model.mem_entryIds_iff (Graph.ofLists_resolved request.nodes request.edges)
    evaluated.scheduled.toForest, ← evaluated.inTrees_iff stands]
  constructor
  · rintro ⟨j, found, held⟩
    cases own.symm.trans found
    exact held
  · intro held
    exact ⟨i, own, held⟩

theorem count_entries (member : node ∈ request.nodes) :
    (((request.model policy).nodeEntries ledger trees).map (·.nodeId)).count node.id =
      if node.id ∈ disconnectedIds request.nodes request.edges then 0 else 1 := by
  have listed_iff := evaluated.has_entry_iff member
  have warned_iff := evaluated.wellFormed.warned_iff member
  split
  · rename_i warned
    exact List.count_eq_zero_of_not_mem (mt listed_iff.mp (warned_iff.mp warned))
  · rename_i passed
    have connected := not_not.mp (mt warned_iff.mpr passed)
    exact List.count_eq_one_of_mem (ids_nodup evaluated.scheduled.toForest ledger)
      (listed_iff.mpr connected)

end Evaluated

/-- Of the nodes of a valid graph exactly those that validation does not warn of stand in the
trees, and exactly those have an entry in a report with node results, one each. -/
theorem coverage_agrees (request : Request) (trees : List MetricTree)
    (valid : (verdict request.nodes request.edges).isValid)
    (scheduled : schedule (.ofLists request.nodes request.edges) = .ok trees)
    (node : Node) (member : node ∈ request.nodes) :
    let warned := node.id ∈ disconnectedIds request.nodes request.edges
    (TreesHold (.ofLists request.nodes request.edges) trees node ↔ ¬ warned) ∧
      ∀ policy moment report, request.report policy moment = .ok report →
        request.nodesIncluded policy = true →
          ∃ entries, report.allNodes = some entries ∧
            (entries.map (·.nodeId)).count node.id = if warned then 0 else 1 := by
  have wellFormed := isValid_iff_wellFormed.mp valid
  constructor
  · have planned := ((schedule_outcome wellFormed.checked.resolved).of_ok scheduled).1
    obtain ⟨i, stands⟩ := wellFormed.mem_iff_place.mp member
    have connected_iff := wellFormed.connected_iff (WellFormed.index?_of_place stands)
    rw [treesHold_iff stands, wellFormed.checked.inTrees_iff planned, ← connected_iff,
      wellFormed.warned_iff member, not_not]
  · intro policy moment report reported included
    obtain ⟨trees, ledger, evaluated, rfl⟩ := exists_evaluated reported
    rw [included]
    exact ⟨_, Model.allNodes_report, evaluated.count_entries member⟩

/-- Of the scattered request the sum counts and the spare operator does not. -/
theorem coverage_agrees_scattered :
    let graph := Graph.ofLists scatteredRequest.nodes scatteredRequest.edges
    let sum : Node := ⟨"sum", .operator .add ["first", "second"], none⟩
    let spare : Node := ⟨"spare", .operator .add ["idle"], none⟩
    (verdict scatteredRequest.nodes scatteredRequest.edges).isValid ∧
      sum ∈ scatteredRequest.nodes ∧ spare ∈ scatteredRequest.nodes ∧
      ∃ trees report entries, schedule graph = .ok trees ∧
        scatteredRequest.report .standard growthMoment = .ok report ∧
        report.allNodes = some entries ∧
        (TreesHold graph trees sum ∧ (entries.map (·.nodeId)).count "sum" = 1) ∧
        ¬ TreesHold graph trees spare ∧ (entries.map (·.nodeId)).count "spare" = 0 := by
  intro graph sum spare
  have valid : (verdict scatteredRequest.nodes scatteredRequest.edges).isValid := by
    decide +kernel
  have sumMember : sum ∈ scatteredRequest.nodes := by decide
  have spareMember : spare ∈ scatteredRequest.nodes := by decide
  have included : scatteredRequest.nodesIncluded .standard = true := by decide
  have passed : sum.id ∉ disconnectedIds scatteredRequest.nodes scatteredRequest.edges := by
    decide +kernel
  have warned : spare.id ∈ disconnectedIds scatteredRequest.nodes scatteredRequest.edges := by
    decide +kernel
  have plans : (schedule graph).toBool = true := by decide +kernel
  have completes : (scatteredRequest.report .standard growthMoment).toBool = true := by
    decide +kernel
  obtain ⟨trees, scheduled⟩ := exists_of_toBool plans
  obtain ⟨report, reported⟩ := exists_of_toBool completes
  obtain ⟨sumHeld, sumShown⟩ :=
    coverage_agrees scatteredRequest trees valid scheduled sum sumMember
  obtain ⟨spareHeld, spareShown⟩ :=
    coverage_agrees scatteredRequest trees valid scheduled spare spareMember
  obtain ⟨entries, given, once⟩ := sumShown .standard growthMoment report reported included
  obtain ⟨others, otherGiven, never⟩ := spareShown .standard growthMoment report reported included
  cases given.symm.trans otherGiven
  rw [if_neg passed] at once
  rw [if_pos warned] at never
  exact ⟨valid, sumMember, spareMember, trees, report, entries, scheduled, reported, given,
    ⟨sumHeld.mpr passed, once⟩, fun held => spareHeld.mp held warned, never⟩

end Request
end MonthlyForecast
