import MonthlyForecast.Proofs.Graph.Precedence
import MonthlyForecast.Proofs.Tree.Placement

/-! The schedule of all metrics. It holds one tree for each metric, and a tree comes
after the trees of the other metrics that it reads. It fails only if a tree cannot be
built or if metrics wait for each other. -/
namespace MonthlyForecast
open Relation

namespace MetricTree

variable {graph : Graph} {tree : MetricTree} {trees : List MetricTree}
  {source metric : NodeIndex}

theorem mem_reads_iff (built : Built graph tree) :
    source ∈ tree.reads graph ↔ ∃ slot ∈ tree.slots,
      (∃ id, graph.kind? slot.node = some (.seed id) ∧ graph.index? id = some source) ∨
        graph.isMetric slot.node ∧ slot.node = source ∧ source ≠ tree.root := by
  unfold reads
  rw [List.mem_filterMap]
  constructor
  · rintro ⟨⟨slot, place⟩, member, found⟩
    have stands := List.mem_zipIdx_iff_getElem?.mp member
    refine ⟨slot, List.mem_of_getElem? stands, ?_⟩
    simp only at found
    split at found
    · rename_i id kind
      exact Or.inl ⟨id, kind, found⟩
    · rename_i attributes kind
      split at found
      · contradiction
      · rename_i inner
        cases found
        refine Or.inr ⟨by simp [Graph.isMetric, Graph.metric?, kind, NodeKind.metric?], rfl, ?_⟩
        exact fun same => inner ((built.rootPlace_iff stands).mpr same)
    · contradiction
  · rintro ⟨slot, member, reads⟩
    obtain ⟨place, stands⟩ := List.mem_iff_getElem?.mp member
    refine ⟨(slot, place), List.mem_zipIdx_iff_getElem?.mpr stands, ?_⟩
    rcases reads with ⟨id, kind, found⟩ | ⟨metric, rfl, other⟩
    · simp only [kind, found]
    · obtain ⟨attributes, kind⟩ := Graph.isMetric_iff_kind?.mp metric
      have inner : place ≠ tree.rootPlace :=
        fun last => other ((built.rootPlace_iff stands).mp last)
      simp only [kind, if_neg inner]

/-- The tree of the dependent reads the source, another node. -/
def Needs (graph : Graph) (source dependent : NodeIndex) : Prop :=
  (∃ tree, build graph dependent = .ok tree ∧ source ∈ tree.reads graph) ∧ source ≠ dependent

/-- A built tree for each metric, in any order. -/
structure Forest (graph : Graph) (trees : List MetricTree) : Prop where
  built : ∀ tree ∈ trees, graph.isMetric tree.root ∧ Built graph tree
  complete : ∀ metric, graph.isMetric metric → ∃ tree ∈ trees, tree.root = metric
  distinct : (trees.map (·.root)).Nodup

/-- Trees in an order in which they can be evaluated. -/
structure Scheduled (graph : Graph) (trees : List MetricTree) : Prop extends
    Forest graph trees where
  sorted : ∀ earlier tree later, trees = earlier ++ tree :: later →
    ∀ source ∈ tree.reads graph, graph.isMetric source → source ≠ tree.root →
      ∃ other ∈ earlier, other.root = source

theorem Forest.roots_perm (forest : Forest graph trees) :
    (trees.map (·.root)).Perm graph.metrics := by
  rw [List.perm_ext_iff_of_nodup forest.distinct graph.metrics_nodup]
  intro metric
  rw [Graph.mem_metrics_iff, List.mem_map]
  constructor
  · rintro ⟨tree, member, rfl⟩
    exact (forest.built tree member).1
  · exact forest.complete metric

theorem Forest.perm {order : List MetricTree} (forest : Forest graph trees)
    (arranged : order.Perm trees) : Forest graph order where
  built := fun tree member => forest.built tree (arranged.mem_iff.mp member)
  complete := by
    intro metric isMetric
    obtain ⟨tree, member, root⟩ := forest.complete metric isMetric
    exact ⟨tree, arranged.mem_iff.mpr member, root⟩
  distinct := (arranged.map _).nodup_iff.mpr forest.distinct

theorem build_isMetric (found : build graph metric = .ok tree) : graph.isMetric metric := by
  by_contra other
  simp [build, other] at found

theorem build_eq_ok (resolved : graph.Resolved) (found : build graph metric = .ok tree) :
    tree.root = metric ∧ Built graph tree :=
  (build_outcome resolved (build_isMetric found)).of_ok found

theorem mem_dependencies_iff {dependent : NodeIndex} :
    ⟨source, dependent⟩ ∈ dependencies graph trees ↔
      ∃ tree ∈ trees, source ∈ tree.reads graph ∧ tree.root = dependent := by
  simp [dependencies, List.mem_flatMap, List.mem_map]

/-- The trees of the metrics, in the order of the metrics. -/
def TreesOf (graph : Graph) : List NodeIndex → List MetricTree → Prop :=
  List.Forall₂ fun metric tree => build graph metric = .ok tree

theorem TreesOf.tree_mem (all : TreesOf graph graph.metrics trees)
    (found : build graph metric = .ok tree) : tree ∈ trees := by
  have member := Graph.mem_metrics_iff.mpr (build_isMetric found)
  obtain ⟨other, among, found'⟩ := exists_left_of_forall₂ (List.Forall₂.flip all) member
  have same : build graph metric = .ok other := found'
  cases found.symm.trans same
  exact among

theorem TreesOf.build_root (all : TreesOf graph graph.metrics trees) (resolved : graph.Resolved)
    (member : tree ∈ trees) : build graph tree.root = .ok tree := by
  obtain ⟨metric, _, found⟩ := exists_left_of_forall₂ all member
  rw [(build_eq_ok resolved found).1]
  exact found

theorem TreesOf.exists_build (all : TreesOf graph graph.metrics trees)
    (isMetric : graph.isMetric metric) : ∃ tree, build graph metric = .ok tree := by
  obtain ⟨tree, _, found⟩ := exists_left_of_forall₂ (List.Forall₂.flip all)
    (Graph.mem_metrics_iff.mpr isMetric)
  exact ⟨tree, found⟩

theorem TreesOf.find?_eq_some_iff (all : TreesOf graph graph.metrics trees)
    (resolved : graph.Resolved) :
    trees.find? (·.root == metric) = some tree ↔ build graph metric = .ok tree := by
  constructor
  · intro found
    have root : tree.root = metric := by simpa using List.find?_some found
    exact root ▸ all.build_root resolved (List.mem_of_find?_eq_some found)
  · intro built
    have root := (build_eq_ok resolved built).1
    cases found : trees.find? (·.root == metric) with
    | none =>
      have := List.find?_eq_none.mp found tree (all.tree_mem built)
      simp [root] at this
    | some other =>
      have otherRoot : other.root = metric := by simpa using List.find?_some found
      have otherBuilt := all.build_root resolved (List.mem_of_find?_eq_some found)
      rw [otherRoot, built] at otherBuilt
      exact congrArg some (Except.ok.inj otherBuilt).symm

/-- Taking the trees in an order of nodes leaves out the nodes that are no metrics. -/
theorem TreesOf.map_root_taken (all : TreesOf graph graph.metrics trees)
    (resolved : graph.Resolved) (order : List NodeIndex) :
    (order.filterMap fun metric => trees.find? (·.root == metric)).map (·.root) =
      order.filter graph.isMetric := by
  rw [List.map_filterMap, ← List.filterMap_eq_filter]
  apply List.filterMap_congr
  intro metric _
  cases found : trees.find? (·.root == metric) with
  | some tree =>
    have built := (all.find?_eq_some_iff resolved).mp found
    have isMetric := build_isMetric built
    simp [Option.guard, isMetric, (build_eq_ok resolved built).1]
  | none =>
    have other : ¬ graph.isMetric metric := by
      intro isMetric
      obtain ⟨tree, built⟩ := all.exists_build isMetric
      have := (all.find?_eq_some_iff resolved).mpr built
      simp [found] at this
    simp [Option.guard, other]

theorem before_iff_needs (resolved : graph.Resolved) (all : TreesOf graph graph.metrics trees) :
    (Precedence.mk graph.metrics (dependencies graph trees)).Before = Needs graph := by
  funext source dependent
  simp only [Precedence.Before, Needs, mem_dependencies_iff, eq_iff_iff]
  apply and_congr_left
  intro _
  constructor
  · rintro ⟨tree, member, reads, rfl⟩
    exact ⟨tree, all.build_root resolved member, reads⟩
  · rintro ⟨tree, found, reads⟩
    exact ⟨tree, all.tree_mem found, reads, (build_eq_ok resolved found).1⟩

/-- Taking the trees in a settled order of their metrics schedules them. -/
theorem scheduled_of_order (resolved : graph.Resolved) (all : TreesOf graph graph.metrics trees)
    {order : List NodeIndex}
    (ordered : (Precedence.mk graph.metrics (dependencies graph trees)).order = .ok order) :
    Scheduled graph (order.filterMap fun metric => trees.find? (·.root == metric)) := by
  obtain ⟨distinct, complete, settled⟩ := Precedence.order_eq_ok ordered
  refine ⟨⟨?_, ?_, ?_⟩, ?_⟩
  · intro tree member
    obtain ⟨metric, _, found⟩ := List.mem_filterMap.mp member
    have found := (all.find?_eq_some_iff resolved).mp found
    obtain ⟨rfl, built⟩ := build_eq_ok resolved found
    exact ⟨build_isMetric found, built⟩
  · intro metric isMetric
    obtain ⟨tree, found⟩ := all.exists_build isMetric
    have placed : metric ∈ order := (complete metric).mpr
      (Precedence.mem_nodes_iff.mpr (Or.inl (Graph.mem_metrics_iff.mpr isMetric)))
    have standing := (all.find?_eq_some_iff resolved).mpr found
    exact ⟨tree, List.mem_filterMap.mpr ⟨metric, placed, standing⟩, (build_eq_ok resolved found).1⟩
  · rw [all.map_root_taken resolved]
    exact distinct.filter _
  · intro earlier tree later whole source reads isMetric other
    obtain ⟨before, rest, rfl, rfl, restTrees⟩ := List.filterMap_eq_append_iff.mp whole
    obtain ⟨skipped, metric, after, rfl, skippedNone, found, _⟩ :=
      List.filterMap_eq_cons_iff.mp restTrees
    have found := (all.find?_eq_some_iff resolved).mp found
    obtain ⟨rfl, _⟩ := build_eq_ok resolved found
    -- What the tree reads was left by the search before it, hence stands before it.
    have settled : Settled (Precedence.mk graph.metrics (dependencies graph trees)).predecessors
        (after.reverse ++ tree.root :: (before ++ skipped).reverse) := by simpa using settled
    have needed : source ∈
        (Precedence.mk graph.metrics (dependencies graph trees)).predecessors tree.root := by
      rw [Precedence.mem_predecessors_iff, before_iff_needs resolved all]
      exact ⟨⟨tree, found, reads⟩, other⟩
    obtain ⟨sourceTree, sourceBuilt⟩ := all.exists_build isMetric
    have sourceFound := (all.find?_eq_some_iff resolved).mpr sourceBuilt
    refine ⟨sourceTree, ?_, (build_eq_ok resolved sourceBuilt).1⟩
    rcases List.mem_append.mp (List.mem_reverse.mp (settled.split needed)) with among | among
    · exact List.mem_filterMap.mpr ⟨source, among, sourceFound⟩
    · rw [skippedNone source among] at sourceFound
      contradiction

/-- A schedule is given unless some tree cannot be built or metrics need each other. -/
theorem schedule_outcome (resolved : graph.Resolved) :
    Outcome (fun trees => Scheduled graph trees ∧ Acyclic (Needs graph))
      (fun fault => (∃ metric, graph.isMetric metric ∧ Unbuildable graph metric fault) ∨
        (∃ group, fault = .metricCycle group) ∧ ¬ Acyclic (Needs graph))
      (schedule graph) := by
  unfold schedule
  have builds : Outcome (TreesOf graph graph.metrics)
      (fun fault => (∃ metric, graph.isMetric metric ∧ Unbuildable graph metric fault) ∨
        (∃ group, fault = .metricCycle group) ∧ ¬ Acyclic (Needs graph))
      (graph.metrics.mapM (build graph)) := by
    apply Outcome.mapM
    intro metric member
    have isMetric := Graph.mem_metrics_iff.mp member
    cases found : build graph metric with
    | ok tree => exact rfl
    | error fault =>
      exact Or.inl ⟨metric, isMetric, (build_outcome resolved isMetric).of_error found⟩
  apply Outcome.bind builds
  intro trees _ all
  have acyclic_iff : (∃ order, (Precedence.mk graph.metrics (dependencies graph trees)).order =
      .ok order) ↔ Acyclic (Needs graph) := by
    rw [Precedence.order_ok_iff_acyclic, before_iff_needs resolved all]
  cases ordered : (Precedence.mk graph.metrics (dependencies graph trees)).order with
  | ok order => exact ⟨scheduled_of_order resolved all ordered, acyclic_iff.mp ⟨order, ordered⟩⟩
  | error group =>
    refine Or.inr ⟨⟨_, rfl⟩, ?_⟩
    rw [← acyclic_iff, ordered]
    simp

end MetricTree
end MonthlyForecast
