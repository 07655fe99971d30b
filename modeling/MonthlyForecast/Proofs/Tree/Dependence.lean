import MonthlyForecast.Proofs.Graph.Component
import MonthlyForecast.Proofs.Tree.Schedule

/-! How scheduling ends, for any graph. It is decided by the trees of the single metrics
and by what their slots depend on: a schedule with a tree for each metric, the fault of the
first metric whose tree cannot be built, or a strong component of metrics. A seed may name
a node that is no metric; such a source is part of the order but has no tree. -/
namespace MonthlyForecast
open Relation

namespace MetricTree

/-- The tree of the dependent holds a seed of the source, or the source as a metric. -/
def DependsOn (graph : Graph) (source dependent : NodeIndex) : Prop :=
  source ≠ dependent ∧ ∃ tree, build graph dependent = .ok tree ∧ ∃ slot ∈ tree.slots,
    (∃ id, graph.kind? slot.node = some (.seed id) ∧ graph.index? id = some source) ∨
      graph.isMetric slot.node ∧ slot.node = source

/-- One tree for each metric, after the trees of the other metrics that it depends on. -/
structure CompleteSchedule (graph : Graph) (trees : List MetricTree) : Prop where
  roots : (trees.map (·.root)).Perm graph.metrics
  built : ∀ tree ∈ trees, build graph tree.root = .ok tree
  sorted : ∀ earlier tree later, trees = earlier ++ tree :: later →
    ∀ source, graph.isMetric source → DependsOn graph source tree.root →
      ∃ other ∈ earlier, other.root = source

/-- The first metric whose tree cannot be built, and why. -/
structure FirstUnbuilt (graph : Graph) (metric : NodeIndex) (fault : BuildFault) : Prop where
  is_metric : graph.isMetric metric
  failed : build graph metric = .error fault
  earlier : ∀ other < metric, graph.isMetric other → ∃ tree, build graph other = .ok tree

variable {graph : Graph} {tree : MetricTree} {trees : List MetricTree}
  {source dependent metric : NodeIndex}

theorem needs_eq_dependsOn (resolved : graph.Resolved) : Needs graph = DependsOn graph := by
  funext source dependent
  rw [Needs, DependsOn, eq_iff_iff, and_comm]
  apply and_congr_right
  intro other
  apply exists_congr
  intro tree
  apply and_congr_right
  intro found
  obtain ⟨rfl, built⟩ := build_eq_ok resolved found
  simp only [mem_reads_iff built, other, ne_eq, not_false_eq_true, and_true]

theorem DependsOn.isMetric (depends : DependsOn graph source dependent) :
    graph.isMetric dependent := by
  obtain ⟨_, tree, found, _⟩ := depends
  exact build_isMetric found

theorem completeSchedule_of_order (resolved : graph.Resolved)
    (all : TreesOf graph graph.metrics trees) {order : List NodeIndex}
    (ordered : (Precedence.mk graph.metrics (dependencies graph trees)).order = .ok order) :
    CompleteSchedule graph (order.filterMap fun metric => trees.find? (·.root == metric)) := by
  have scheduled := scheduled_of_order resolved all ordered
  refine ⟨scheduled.roots_perm, ?_, ?_⟩
  · intro tree member
    obtain ⟨metric, _, found⟩ := List.mem_filterMap.mp member
    exact all.build_root resolved (List.mem_of_find?_eq_some found)
  · intro earlier tree later whole source isMetric depends
    rw [← needs_eq_dependsOn resolved] at depends
    obtain ⟨⟨other, found, reads⟩, differs⟩ := depends
    have member : tree ∈ order.filterMap fun metric => trees.find? (·.root == metric) :=
      whole ▸ (by simp)
    obtain ⟨metric, _, taken⟩ := List.mem_filterMap.mp member
    have same := all.build_root resolved (List.mem_of_find?_eq_some taken)
    cases same.symm.trans found
    exact scheduled.sorted earlier tree later whole source reads isMetric differs

theorem firstUnbuilt_of_split {before after : List NodeIndex} {fault : BuildFault}
    (whole : graph.metrics = before ++ metric :: after)
    (earlier : ∀ other ∈ before, ∃ tree, build graph other = .ok tree)
    (failed : build graph metric = .error fault) : FirstUnbuilt graph metric fault := by
  refine ⟨Graph.mem_metrics_iff.mp (whole ▸ by simp), failed, ?_⟩
  intro other lower isMetric
  have member := Graph.mem_metrics_iff.mpr isMetric
  have sorted := graph.metrics_sorted
  rw [whole] at member sorted
  rcases List.mem_append.mp member with first | rest
  · exact earlier other first
  · have above := (List.pairwise_cons.mp (List.pairwise_append.mp sorted).2.1).1
    rcases List.mem_cons.mp rest with rfl | later
    · exact absurd lower (Nat.lt_irrefl _)
    · exact absurd lower (Nat.lt_asymm (above other later))

/-- Scheduling succeeds exactly if every tree can be built and no metrics depend on each
other; otherwise it names the first metric without a tree, or a whole component. -/
theorem schedule_decided (nodes : List Node) (edges : List Edge) :
    let graph := Graph.ofLists nodes edges
    let buildable := ∀ metric, graph.isMetric metric → ∃ tree, build graph metric = .ok tree
    (buildable → Acyclic (DependsOn graph) →
        ∃ trees, schedule graph = .ok trees ∧ CompleteSchedule graph trees) ∧
      (¬ buildable →
        ∃ metric fault, schedule graph = .error fault ∧ FirstUnbuilt graph metric fault) ∧
      (buildable → ¬ Acyclic (DependsOn graph) →
        ∃ group, schedule graph = .error (.metricCycle (group.map graph.idOf)) ∧
          StrongComponent (DependsOn graph) group ∧ ∀ metric ∈ group, graph.isMetric metric) := by
  intro graph buildable
  have resolved : graph.Resolved := Graph.ofLists_resolved nodes edges
  have builds := Outcome.mapM_first graph.metrics (build graph)
  unfold schedule
  cases ran : graph.metrics.mapM (build graph) with
  | error fault =>
    obtain ⟨before, metric, after, whole, earlier, failed⟩ := builds.of_error ran
    have first := firstUnbuilt_of_split whole earlier failed
    have unbuilt : ¬ buildable := by
      intro all
      obtain ⟨tree, found⟩ := all metric first.is_metric
      cases found.symm.trans failed
    exact ⟨fun all => absurd all unbuilt, fun _ => ⟨metric, fault, rfl, first⟩,
      fun all => absurd all unbuilt⟩
  | ok trees =>
    have all : TreesOf graph graph.metrics trees := builds.of_ok ran
    have built : buildable := fun metric isMetric => all.exists_build isMetric
    have acyclic_iff : (∃ order, (Precedence.mk graph.metrics (dependencies graph trees)).order =
        .ok order) ↔ Acyclic (DependsOn graph) := by
      rw [Precedence.order_ok_iff_acyclic, before_iff_needs resolved all,
        needs_eq_dependsOn resolved]
    cases ordered : (Precedence.mk graph.metrics (dependencies graph trees)).order with
    | ok order =>
      have acyclic := acyclic_iff.mp ⟨order, ordered⟩
      have complete := completeSchedule_of_order resolved all ordered
      exact ⟨fun _ _ => ⟨_, by simp [bind, Except.bind, ordered, pure, Except.pure], complete⟩,
        fun unbuilt => absurd built unbuilt, fun _ cyclic => absurd acyclic cyclic⟩
    | error group =>
      have component := Precedence.order_eq_error ordered
      rw [before_iff_needs resolved all, needs_eq_dependsOn resolved] at component
      have cyclic : ¬ Acyclic (DependsOn graph) := by
        rw [← acyclic_iff, ordered]
        simp
      have metrics : ∀ metric ∈ group, graph.isMetric metric := by
        intro metric member
        obtain ⟨source, depends⟩ := component.exists_source member
        exact depends.isMetric
      exact ⟨fun _ acyclic => absurd acyclic cyclic, fun unbuilt => absurd built unbuilt,
        fun _ _ => ⟨group, by simp [bind, Except.bind, ordered], component, metrics⟩⟩

end MetricTree
end MonthlyForecast
