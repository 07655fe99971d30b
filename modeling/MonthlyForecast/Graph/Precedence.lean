import MonthlyForecast.Graph.Reach

/-! The order in which metrics are evaluated. A dependency says that a metric reads
another one, its source; a dependency of a metric on itself reads an earlier month
and is no obstacle. `order` puts every source before its dependents, or reports a
group of metrics that depend on each other. Which of the admissible orders it gives
is fixed by the search: the reverse of the order in which a depth-first search
leaves the nodes. -/
namespace MonthlyForecast

structure Dependency where
  source : NodeIndex
  dependent : NodeIndex
deriving DecidableEq

structure Precedence where
  metrics : List NodeIndex
  dependencies : List Dependency

namespace Precedence

/-- The dependencies between different nodes. -/
def proper (precedence : Precedence) : List Dependency :=
  precedence.dependencies.filter fun dependency => dependency.source != dependency.dependent

/-- The metrics, then the other ends of dependencies, each once in order of arrival. -/
def nodes (precedence : Precedence) : List NodeIndex :=
  (precedence.metrics ++
    precedence.proper.flatMap fun dependency => [dependency.source, dependency.dependent]).eraseDups

def successors (precedence : Precedence) (node : NodeIndex) : List NodeIndex :=
  ((precedence.proper.filter (·.source == node)).map (·.dependent)).eraseDups

def predecessors (precedence : Precedence) (node : NodeIndex) : List NodeIndex :=
  ((precedence.proper.filter (·.dependent == node)).map (·.source)).eraseDups

end Precedence

/-- A depth-first search that records the nodes it has left, the latest first. -/
structure Departure where
  discovered : List NodeIndex
  departed : List NodeIndex

namespace Precedence

/-- Searches on from a node, its latest successor first. Open nodes are distinct, so
the depth is at most the number of nodes. -/
def departFrom (precedence : Precedence) : Nat → NodeIndex → Departure → Departure
  | 0, _, search => search
  | depth + 1, node, search =>
    if node ∈ search.discovered then search
    else
      let search := (precedence.successors node).reverse.foldl
        (fun search successor => departFrom precedence depth successor search)
        { search with discovered := node :: search.discovered }
      { search with departed := node :: search.departed }

/-- All nodes, in the reverse of the order in which the search leaves them. -/
def searchOrder (precedence : Precedence) : List NodeIndex :=
  (precedence.nodes.foldl
    (fun search node => precedence.departFrom precedence.nodes.length node search)
    ⟨[], []⟩).departed

/-- The last source that the first node standing before one of its sources still
waits for. The first argument holds the nodes placed so far. -/
def awaitedSource? (precedence : Precedence) : List NodeIndex → List NodeIndex → Option NodeIndex
  | _, [] => none
  | placed, node :: rest =>
    match ((precedence.predecessors node).filter (· ∉ placed)).getLast? with
    | some source => some source
    | none => awaitedSource? precedence (node :: placed) rest

/-- The nodes that both lead to a node and are reached from it, by increasing index. -/
def component (precedence : Precedence) (node : NodeIndex) : List NodeIndex :=
  let after := gather precedence.successors precedence.nodes [node]
  let before := gather precedence.predecessors precedence.nodes [node]
  (after.filter (· ∈ before)).mergeSort

/-- Every source before its dependents, or a group of nodes that depend on each other. -/
def order (precedence : Precedence) : Except (List NodeIndex) (List NodeIndex) :=
  match precedence.awaitedSource? [] precedence.searchOrder with
  | none => .ok precedence.searchOrder
  | some source => .error (precedence.component source)

end Precedence
end MonthlyForecast
