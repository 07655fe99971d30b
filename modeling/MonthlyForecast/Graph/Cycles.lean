import MonthlyForecast.Graph.Basic

/-! Cycles of links, found by depth-first search. The search keeps the open path
from its start; a link back into the path closes a cycle. Every closing link yields
one cycle, so a graph has a cycle exactly if one is found, but not every cycle of
the graph is listed. -/
namespace MonthlyForecast

structure CycleSearch where
  /-- Nodes whose links have all been followed. -/
  finished : List NodeIndex
  /-- Closed paths in the direction of the links, first node repeated at the end. -/
  cycles : List (List NodeIndex)

namespace Graph

/-- The part of an open path, latest node first, from `node` on, closed with `node`. -/
def closePath (path : List NodeIndex) (node : NodeIndex) : List NodeIndex :=
  node :: (path.takeWhile (· != node)).reverse ++ [node]

/-- Follows the links out of `node`, whose open path is `path`, latest node first.
The path never repeats a node, so the depth is at most the number of nodes. -/
def searchFrom (graph : Graph) :
    Nat → List NodeIndex → NodeIndex → CycleSearch → CycleSearch
  | 0, _, _, search => search
  | depth + 1, path, node, search =>
    let path := node :: path
    let search := (graph.children node).foldl
      (fun search child =>
        if child ∈ path then { search with cycles := search.cycles ++ [closePath path child] }
        else if child ∈ search.finished then search
        else searchFrom graph depth path child search)
      search
    { search with finished := node :: search.finished }

def cycleSearch (graph : Graph) : CycleSearch :=
  graph.indices.foldl
    (fun search node =>
      if node ∈ search.finished then search else graph.searchFrom graph.size [] node search)
    ⟨[], []⟩

/-- A cycle for every link that closes one during the search. -/
def cycles (graph : Graph) : List (List NodeIndex) :=
  graph.cycleSearch.cycles

end Graph
end MonthlyForecast
