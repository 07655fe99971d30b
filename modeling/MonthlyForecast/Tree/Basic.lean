import MonthlyForecast.Graph.Basic

/-! The evaluation tree of a metric. Its slots stand in post-order: every input of a
slot stands before it and the metric is the last slot. A node that several branches
share has one slot, to which each of them points. The type does not ask for this
order; trees built from a graph have it and evaluation checks it. -/
namespace MonthlyForecast

structure TreeSlot where
  node : NodeIndex
  /-- The places of the inputs among the slots, in evaluation order. -/
  inputs : List Nat
deriving DecidableEq

structure MetricTree where
  root : NodeIndex
  slots : List TreeSlot
deriving DecidableEq

/-- A tree with every shared slot repeated under each of its parents. -/
inductive NestedTree where
  | node (id : String) (type : NodeType) (inputOrder : Option (List String))
      (children : List NestedTree)

namespace MetricTree

/-- The place of the last slot; zero for a tree without slots. -/
def rootPlace (tree : MetricTree) : Nat :=
  tree.slots.length - 1

/-- The metrics that a tree reads, in slot order: the source of a seed, and a metric
other than the root. A seed of the tree's own metric gives the root itself. -/
def reads (graph : Graph) (tree : MetricTree) : List NodeIndex :=
  tree.slots.zipIdx.filterMap fun (slot, place) =>
    match graph.kind? slot.node with
    | some (.seed sourceMetricId) => graph.index? sourceMetricId
    | some (.metric _) => if place = tree.rootPlace then none else some slot.node
    | _ => none

/-- The nested form of a slot, to the given depth. -/
def nestedFrom (graph : Graph) (tree : MetricTree) : Nat → Nat → Option NestedTree
  | 0, _ => none
  | depth + 1, place => do
    let slot ← tree.slots[place]?
    let kind ← graph.kind? slot.node
    let children ← slot.inputs.mapM (nestedFrom graph tree depth)
    let inputOrder := match kind with
      | .operator _ inputOrder => some inputOrder
      | _ => none
    some (.node (graph.idOf slot.node) kind.type inputOrder children)

/-- The nested form of a tree; none if its slots are not in post-order. In post-order
the depth is at most the number of slots. -/
def nested? (graph : Graph) (tree : MetricTree) : Option NestedTree :=
  tree.nestedFrom graph tree.slots.length tree.rootPlace

end MetricTree
end MonthlyForecast
