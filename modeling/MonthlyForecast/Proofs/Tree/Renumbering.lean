import Mathlib.Order.WellFounded
import MonthlyForecast.Proofs.Graph.Renumbering
import MonthlyForecast.Proofs.Tree.Checked

/-! Trees of a graph that lies within another one. The nodes of the small graph stand in the
large one in their order, with all that they read, and no other node is a metric. Building
starts at metrics and follows what nodes read, so both graphs have the same trees under
other numbers, in the same order, or report the same metrics as a cycle. The bounds on the
depth differ with the sizes; a build that completes does so within every larger bound. -/
namespace MonthlyForecast

/-- The kind names the id of another node: an operator an input, a seed its source. -/
def NodeKind.Refers : NodeKind → String → Prop
  | .operator _ ids, id => id ∈ ids
  | .seed source, id => source = id
  | .data .., _ | .constant .., _ | .metric _, _ => False

/-- The small graph lies within the large one, in which its nodes have other numbers. -/
structure Graph.Embedded (small large : Graph) (f : Nat ↪o Nat) : Prop where
  nodes_at : ∀ i : Nat, large.nodes[f i]? = small.nodes[i]?
  metrics_eq : large.metrics = small.metrics.map f
  parents_at : ∀ i, large.parents (f i) = (small.parents i).map f
  index?_eq : ∀ {i kind id}, small.kind? i = some kind → kind.Refers id →
    large.index? id = (small.index? id).map f

def TreeSlot.renumber (f : Nat ↪o Nat) (slot : TreeSlot) : TreeSlot :=
  ⟨f slot.node, slot.inputs⟩

def MetricTree.renumber (f : Nat ↪o Nat) (tree : MetricTree) : MetricTree :=
  ⟨f tree.root, tree.slots.map (TreeSlot.renumber f)⟩

namespace Graph.Embedded

variable {small large : Graph} {f : Nat ↪o Nat} (embedded : small.Embedded large f)
include embedded

theorem kind?_at (i : Nat) : large.kind? (f i) = small.kind? i := by
  rw [kind?, kind?, embedded.nodes_at]

theorem idOf_at (i : Nat) : large.idOf (f i) = small.idOf i := by
  rw [idOf, idOf, embedded.nodes_at]

theorem isMetric_at (i : Nat) : large.isMetric (f i) = small.isMetric i := by
  rw [isMetric, isMetric, metric?, metric?, embedded.kind?_at]

theorem size_le : small.size ≤ large.size := by
  cases whole : small.size with
  | zero => exact Nat.zero_le _
  | succ last =>
    have inside : last < small.size := by omega
    obtain ⟨node, stands⟩ := exists_place inside
    have there := lt_of_place ((embedded.nodes_at last).trans stands)
    have grows : last ≤ f last := StrictMono.le_apply f.strictMono
    omega

end Graph.Embedded

namespace MetricTree

variable {small large : Graph} {f : Nat ↪o Nat} {root node input metric : NodeIndex}
  {inputs : List NodeIndex} {tree : MetricTree} {trees : List MetricTree}

section Trees

variable (embedded : small.Embedded large f)
include embedded

theorem operand_renumber {id : String} {kind : NodeKind} (shape : small.kind? node = some kind)
    (refers : kind.Refers id) (found : operand small node id = .ok input) :
    operand large (f node) id = .ok (f input) := by
  obtain ⟨index, linked⟩ := operand_eq_ok found
  have parent : f input ∈ large.parents (f node) := by
    rw [embedded.parents_at, mem_renumber_iff]
    exact Graph.mem_parents_iff.mpr linked
  rw [operand, embedded.index?_eq shape refers, index, Option.map_some]
  exact if_pos parent

theorem inputsWithin_renumber (root node : NodeIndex) :
    Follows (List.map f) (inputsWithin small root node)
      (inputsWithin large (f root) (f node)) := by
  unfold inputsWithin
  rw [embedded.kind?_at]
  cases shape : small.kind? node with
  | none => exact .ok _ []
  | some kind =>
    cases kind with
    | data | constant | seed => exact .ok _ []
    | metric attributes =>
      simp only [embedded.parents_at, f.injective.eq_iff]
      split
      · exact .ok _ (small.parents node)
      · exact .ok _ []
    | operator operation ids =>
      apply Follows.mapM
      intro id among input found
      exact operand_renumber embedded shape among found

omit embedded in
theorem findIdx?_renumber (slots : List TreeSlot) (node : NodeIndex) :
    (slots.map (TreeSlot.renumber f)).findIdx? (·.node == f node) =
      slots.findIdx? (·.node == node) := by
  rw [List.findIdx?_map]
  simp only [Function.comp_def, TreeSlot.renumber, beq_renumber]

/-- Placing a node in the large graph follows placing it in the small one, at any greater
depth. -/
theorem place_renumber {depth deeper : Nat} (within : depth ≤ deeper) (root node : NodeIndex)
    (openNodes : List NodeIndex) (slots : List TreeSlot) :
    Follows (fun placed => (placed.1.map (TreeSlot.renumber f), placed.2))
      (place small root depth openNodes node slots)
      (place large (f root) deeper (openNodes.map f) (f node)
        (slots.map (TreeSlot.renumber f))) := by
  induction depth generalizing deeper openNodes node slots with
  | zero => exact .error _ _ _
  | succ depth ih =>
    obtain ⟨deeper, rfl⟩ : ∃ less, deeper = less + 1 := ⟨deeper - 1, by omega⟩
    unfold place
    rw [findIdx?_renumber]
    cases slots.findIdx? (·.node == node) with
    | some found => exact .ok _ (slots, found)
    | none =>
      simp only [mem_renumber_iff]
      split
      · exact .error _ _ _
      · apply Follows.bind (inputsWithin_renumber embedded root node)
        intro inputs _
        rw [List.foldlM_map]
        refine Follows.bind (?_ : Follows (fun placed : List TreeSlot × List Nat =>
          (placed.1.map (TreeSlot.renumber f), placed.2)) _ _) ?_
        · apply Follows.foldlM _ (slots, [])
          rintro ⟨slots, places⟩ input
          apply Follows.bind (ih (by omega) input (node :: openNodes) slots)
          rintro ⟨after, found⟩ _
          exact .ok _ (after, places ++ [found])
        · rintro ⟨after, places⟩ _ result ⟨⟩
          simp only [List.map_append, List.length_map]
          rfl

theorem build_renumber (metric : NodeIndex) :
    Follows (renumber f) (build small metric) (build large (f metric)) := by
  unfold build
  rw [embedded.isMetric_at]
  split
  · have deeper : small.size + 1 ≤ large.size + 1 := Nat.succ_le_succ embedded.size_le
    apply Follows.bind (place_renumber embedded deeper metric metric [] [])
    rintro ⟨slots, _⟩ _
    exact .ok (renumber f) (MetricTree.mk metric slots)
  · exact .error _ _ _

theorem reads_renumber (tree : MetricTree) :
    (tree.renumber f).reads large = (tree.reads small).map f := by
  unfold reads
  rw [renumber, List.zipIdx_map, List.filterMap_map, List.map_filterMap]
  apply List.filterMap_congr
  rintro ⟨slot, place⟩ _
  simp only [Function.comp_apply, Prod.map_apply, TreeSlot.renumber, embedded.kind?_at, rootPlace,
    List.length_map, id_eq]
  cases shape : small.kind? slot.node with
  | none => rfl
  | some kind =>
    cases kind with
    | seed source => exact embedded.index?_eq shape rfl
    | metric attributes =>
      simp only
      split <;> simp_all
    | data | constant | operator => rfl

theorem dependencies_renumber (trees : List MetricTree) :
    dependencies large (trees.map (renumber f)) =
      (dependencies small trees).map (Dependency.renumber f) := by
  simp only [dependencies, List.flatMap_map, List.map_flatMap, reads_renumber embedded,
    List.map_map]
  rfl

/-- Both graphs have the same trees in the same order, or report the same cycle. -/
theorem schedule_renumber (built : small.metrics.mapM (build small) = .ok trees) :
    schedule large = (schedule small).map (List.map (renumber f)) := by
  have follows : Follows (List.map (renumber f)) (small.metrics.mapM (build small))
      (large.metrics.mapM (build large)) := by
    rw [embedded.metrics_eq, List.mapM_map]
    exact Follows.mapM fun metric _ => build_renumber embedded metric
  have precedence : Precedence.mk large.metrics (dependencies large (trees.map (renumber f))) =
      (Precedence.mk small.metrics (dependencies small trees)).renumber f := by
    rw [embedded.metrics_eq, dependencies_renumber embedded]
    rfl
  have found : ∀ metric, (trees.map (renumber f)).find? (·.root == f metric) =
      (trees.find? (·.root == metric)).map (renumber f) := by
    intro metric
    rw [List.find?_map]
    simp only [Function.comp_def, renumber, beq_renumber]
  simp only [schedule, built, follows trees built, precedence, Precedence.order_renumber, bind,
    Except.bind]
  cases (Precedence.mk small.metrics (dependencies small trees)).order with
  | error group =>
    have named : (group.map f).map large.idOf = group.map small.idOf := by
      rw [List.map_map]
      exact List.map_congr_left fun node _ => embedded.idOf_at node
    simp only [Except.map, Except.mapError, named]
  | ok order =>
    simp only [Except.map, Except.mapError, pure, Except.pure, List.filterMap_map,
      Function.comp_def, found, List.map_filterMap]

end Trees

end MetricTree

namespace Model

variable {model other : Model} {f : Nat ↪o Nat}

theorem resolveNode_renumber (embedded : model.graph.Embedded other.graph f)
    (series_eq : other.series = model.series) (node : NodeIndex) :
    other.resolveNode (f node) = model.resolveNode node := by
  unfold resolveNode resolveVariable
  simp only [embedded.kind?_at, embedded.idOf_at, series_eq]
  cases shape : model.graph.kind? node with
  | none => rfl
  | some kind =>
    cases kind with
    | seed source =>
      have metric : (other.graph.index? source).bind other.graph.metric? =
          (model.graph.index? source).bind model.graph.metric? := by
        rw [embedded.index?_eq shape rfl, Option.bind_map]
        congr 1
        funext node
        rw [Function.comp_apply, Graph.metric?, Graph.metric?, embedded.kind?_at]
      simp only [metric]
    | data | constant | operator | metric => rfl

/-- The references of the same trees are resolved alike. -/
theorem resolveReferences_renumber (embedded : model.graph.Embedded other.graph f)
    (series_eq : other.series = model.series) (trees : List MetricTree) :
    other.resolveReferences (trees.map (MetricTree.renumber f)) =
      model.resolveReferences trees := by
  simp only [resolveReferences, List.forM_eq_forM, List.forM_map, MetricTree.renumber,
    TreeSlot.renumber, resolveNode_renumber embedded series_eq]

end Model
end MonthlyForecast
