import MonthlyForecast.Proofs.Evaluation.Run

/-! Graphs as validation leaves them. Every tree can be built, the trees together hold
the nodes that lead to a metric, and no slot is an operator without inputs, so that nothing
but the order of the trees can stop a run. -/
namespace MonthlyForecast
open Relation MetricTree

/-- What validation guarantees of a graph, as far as trees and their evaluation use it. -/
structure Graph.Checked (graph : Graph) : Prop where
  resolved : graph.Resolved
  acyclic : Acyclic graph.Linked
  operands : ∀ {node operation ids}, graph.kind? node = some (.operator operation ids) →
    ids ≠ [] ∧ ∃ inputs, ids.mapM (operand graph node) = .ok inputs ∧
      ∀ input, input ∈ inputs ↔ graph.Linked input node
  leaves : ∀ {node kind}, graph.kind? node = some kind → kind.isLeaf → graph.parents node = []
  sources : ∀ {node id}, graph.kind? node = some (.seed id) →
    ∃ source, graph.index? id = some source ∧ graph.isMetric source

namespace Graph.Checked

variable {graph : Graph} {root node input metric : NodeIndex} {trees : List MetricTree}

/-- What holds of a node if it holds of its inputs holds of all nodes. -/
theorem induction (checked : graph.Checked) (holds : NodeIndex → Prop)
    (step : ∀ node, (∀ input, graph.Linked input node → holds input) → holds node)
    (node : NodeIndex) : holds node := by
  have acyclic : Acyclic fun input node : Fin graph.size => graph.Linked input.1 node.1 := by
    intro node cycle
    exact checked.acyclic node.1 (cycle.lift (fun node : Fin graph.size => node.1)
      fun _ _ linked => linked)
  have all : ∀ node : Fin graph.size, holds node.1 := by
    intro node
    induction node using acyclic.wellFounded.induction with
    | _ node ih =>
      apply step node.1
      intro input linked
      exact ih ⟨input, (checked.resolved.links_inside linked).1⟩ linked
  by_cases inside : node < graph.size
  · exact all ⟨node, inside⟩
  · exact step node fun input linked => absurd (checked.resolved.links_inside linked).2 inside

/-- A node takes the nodes linked to it, and another metric than the root none. -/
theorem exists_inputs (checked : graph.Checked) (root node : NodeIndex) :
    ∃ inputs, inputsWithin graph root node = .ok inputs ∧
      ∀ input, input ∈ inputs ↔
        graph.Linked input node ∧ (node = root ∨ ¬ graph.isMetric node) := by
  have leaf : graph.parents node = [] → ∀ input, ¬ graph.Linked input node := by
    intro none input linked
    have := mem_parents_iff.mpr linked
    simp [none] at this
  unfold inputsWithin
  cases kind : graph.kind? node with
  | none =>
    refine ⟨[], rfl, ?_⟩
    intro input
    simp only [List.not_mem_nil, false_iff, not_and]
    intro linked
    have inside := (checked.resolved.links_inside linked).2
    obtain ⟨entry, place⟩ := exists_place inside
    rw [kind?_of_place place] at kind
    contradiction
  | some shape =>
    cases shape with
    | data | constant | seed =>
      have none := leaf (checked.leaves kind rfl)
      exact ⟨[], rfl, fun input => by simp [none input]⟩
    | operator operation ids =>
      obtain ⟨_, inputs, declared, linked⟩ := checked.operands kind
      have other : ¬ graph.isMetric node := by
        rw [isMetric_iff_kind?, kind]
        simp
      exact ⟨inputs, declared, fun input => by simp [linked, other]⟩
    | metric attributes =>
      have isMetric : graph.isMetric node := isMetric_iff_kind?.mpr ⟨attributes, kind⟩
      refine ⟨_, rfl, fun input => ?_⟩
      by_cases atRoot : node = root
      · simp [atRoot, mem_parents_iff]
      · simp [atRoot, isMetric]

theorem uses_iff (checked : graph.Checked) :
    Uses graph root node input ↔
      graph.Linked input node ∧ (node = root ∨ ¬ graph.isMetric node) := by
  obtain ⟨inputs, declared, same⟩ := checked.exists_inputs root node
  rw [← same]
  constructor
  · rintro ⟨inputs', declared', member⟩
    cases declared.symm.trans declared'
    exact member
  · exact fun member => ⟨inputs, declared, member⟩

theorem linked_of_uses (path : ReflTransGen (Uses graph root) node input) :
    ReflTransGen graph.Linked input node := by
  induction path with
  | refl => exact .refl
  | tail _ uses ih => exact ih.head uses.linked

/-- No tree fails to be built. -/
theorem not_unbuildable (checked : graph.Checked) (fault : BuildFault) :
    ¬ Unbuildable graph root fault := by
  rintro ⟨node, _, ⟨cycle, _⟩ | failed⟩
  · exact checked.acyclic node (cycle.swap.lift id fun _ _ uses => Uses.linked uses)
  · obtain ⟨inputs, declared, _⟩ := checked.exists_inputs root node
    cases declared.symm.trans failed

theorem exists_build (checked : graph.Checked) (isMetric : graph.isMetric metric) :
    ∃ tree, build graph metric = .ok tree ∧ tree.root = metric ∧ Built graph tree :=
  (build_outcome checked.resolved isMetric).exists_ok fun fault => checked.not_unbuildable fault

theorem exists_builds (checked : graph.Checked) :
    ∃ trees, graph.metrics.mapM (build graph) = .ok trees := by
  have each : ∀ metric ∈ graph.metrics, Outcome (fun tree => build graph metric = .ok tree)
      (fun _ => False) (build graph metric) := by
    intro metric member
    obtain ⟨tree, built, _⟩ := checked.exists_build (mem_metrics_iff.mp member)
    rw [built]
    exact rfl
  obtain ⟨trees, built, _⟩ := (Outcome.mapM each).exists_ok fun _ never => never
  exact ⟨trees, built⟩

/-- What the tree of a metric reads, from the links alone. -/
theorem needs_iff (checked : graph.Checked) {source dependent : NodeIndex} :
    Needs graph source dependent ↔ graph.isMetric dependent ∧ source ≠ dependent ∧
      ∃ node, ReflTransGen (Uses graph dependent) dependent node ∧
        ((∃ id, graph.kind? node = some (.seed id) ∧ graph.index? id = some source) ∨
          graph.isMetric node ∧ node = source) := by
  constructor
  · rintro ⟨⟨tree, found, reads⟩, other⟩
    obtain ⟨rfl, built⟩ := build_eq_ok checked.resolved found
    obtain ⟨slot, among, reads⟩ := (mem_reads_iff built).mp reads
    refine ⟨build_isMetric found, other, slot.node, built.used slot among, ?_⟩
    exact reads.imp_right fun inner => ⟨inner.1, inner.2.1⟩
  · rintro ⟨isMetric, other, node, path, reads⟩
    obtain ⟨tree, found, rfl, built⟩ := checked.exists_build isMetric
    obtain ⟨slot, among, rfl⟩ := built.holds_iff.mpr path
    refine ⟨⟨tree, found, (mem_reads_iff built).mpr ⟨slot, among, ?_⟩⟩, other⟩
    exact reads.imp_right fun inner => ⟨inner.1, inner.2, other⟩

theorem needs_inside (checked : graph.Checked) {source dependent : Nat}
    (needs : Needs graph source dependent) : source < graph.size ∧ dependent < graph.size := by
  obtain ⟨isMetric, _, node, _, ⟨_, _, found⟩ | ⟨inner, rfl⟩⟩ := checked.needs_iff.mp needs
  · exact ⟨index?_lt found, isMetric_lt isMetric⟩
  · exact ⟨isMetric_lt inner, isMetric_lt isMetric⟩

/-- The trees hold the nodes that lead to a metric. -/
theorem inTrees_iff (checked : graph.Checked) (scheduled : Scheduled graph trees) :
    Model.InTrees trees node ↔
      ∃ metric, graph.isMetric metric ∧ ReflTransGen graph.Linked node metric := by
  constructor
  · rintro ⟨tree, member, held⟩
    obtain ⟨isMetric, built⟩ := scheduled.built tree member
    exact ⟨tree.root, isMetric, linked_of_uses (built.holds_iff.mp held)⟩
  · rintro ⟨metric, isMetric, path⟩
    -- Along the path each node is in the tree of the first metric that it meets.
    induction path using ReflTransGen.head_induction_on with
    | refl =>
      obtain ⟨tree, member, rfl⟩ := scheduled.complete metric isMetric
      exact ⟨tree, member, (scheduled.built tree member).2.holds_iff.mpr .refl⟩
    | @head node next linked _ ih =>
      by_cases opened : graph.isMetric next
      · obtain ⟨tree, member, rfl⟩ := scheduled.complete next opened
        have uses := checked.uses_iff.mpr ⟨linked, Or.inl rfl⟩
        exact ⟨tree, member, (scheduled.built tree member).2.holds_iff.mpr (.single uses)⟩
      · obtain ⟨tree, member, held⟩ := ih
        have built := (scheduled.built tree member).2
        have uses : Uses graph tree.root next node := checked.uses_iff.mpr ⟨linked, Or.inr opened⟩
        exact ⟨tree, member, built.holds_iff.mpr ((built.holds_iff.mp held).tail uses)⟩

theorem sourcesFound (checked : graph.Checked) (trees : List MetricTree) :
    Model.SourcesFound graph trees :=
  fun _ _ _ _ _ kind => checked.sources kind

/-- An operator has inputs in every tree. -/
theorem noneEmpty (checked : graph.Checked) (forest : Forest graph trees) :
    Model.NoneEmpty graph trees := by
  rintro tree member slot among ⟨operator, empty⟩
  obtain ⟨shape, kind, type⟩ := Option.map_eq_some_iff.mp operator
  obtain ⟨before, after, whole⟩ := List.append_of_mem among
  obtain ⟨_, _, inputs, declared, linked⟩ := (whole ▸ (forest.built tree member).2.placed).split
  cases shape with
  | data | constant | metric | seed => contradiction
  | operator operation ids =>
    obtain ⟨someId, inputs', declared', _⟩ := checked.operands kind
    simp only [inputsWithin, kind, declared'] at declared
    cases declared
    have count := (operands_eq_ok declared').length_eq
    rw [← linked.length_eq, empty] at count
    exact someId (List.eq_nil_of_length_eq_zero count)

end Graph.Checked

namespace Model

variable {model : Model} {trees : List MetricTree}

/-- On a graph that validation accepts the order of the trees alone decides a run. -/
theorem run_checked_outcome (checked : model.graph.Checked) (forest : Forest model.graph trees)
    (months : List Date) :
    Outcome (fun after => Progress model months
          (fun node place => InTrees trees node ∧ place < months.length) after ∧
        (months ≠ [] → Admissible model.graph trees))
      (fun fault => ∃ first, months.head? = some first ∧ Inadmissible model.graph trees first fault)
      (model.run trees months) := by
  apply (run_forest_outcome forest (checked.sourcesFound trees) months).imp
  · rintro after ⟨progress, others⟩
    exact ⟨progress, fun nonempty => (others nonempty).2⟩
  · rintro fault ⟨_, ⟨tree, member, slot, among, empty, _⟩ | inadmissible⟩
    · exact absurd empty (checked.noneEmpty forest tree member slot among)
    · exact inadmissible

theorem exists_run_of_admissible (model : Model) (checked : model.graph.Checked)
    (forest : Forest model.graph trees) (admissible : Admissible model.graph trees)
    (months : List Date) :
    ∃ ledger, model.run trees months = .ok ledger ∧ Progress model months
      (fun node place => InTrees trees node ∧ place < months.length) ledger := by
  obtain ⟨ledger, ran, progress, _⟩ := (run_checked_outcome checked forest months).exists_ok (by
    rintro fault ⟨_, _, inadmissible, _⟩
    exact inadmissible admissible)
  exact ⟨ledger, ran, progress⟩

end Model
end MonthlyForecast
