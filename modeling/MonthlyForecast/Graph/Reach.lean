import MonthlyForecast.Graph.Basic

/-! Reachability by search. `gather` takes one pending node at a time out of the
nodes that remain, so it ends when none of the pending ones remain. `QueueSearch` keeps
what is pending in a queue instead. `leadingTo` is such a search against the links of a
graph: the nodes that lead to a target. -/
namespace MonthlyForecast

/-- The nodes among `remaining` that can be reached from the pending ones by steps
of `next` through remaining nodes. -/
def gather (next : NodeIndex → List NodeIndex) (remaining pending : List NodeIndex) :
    List NodeIndex :=
  match _found : pending.find? remaining.contains with
  | none => []
  | some node => node :: gather next (remaining.erase node) (next node ++ pending)
termination_by remaining.length
decreasing_by
  have member : node ∈ remaining := List.contains_iff_mem.mp (List.find?_some _found)
  have shorter := List.length_erase_of_mem member
  have positive := List.length_pos_of_mem member
  omega

/-- A search by a queue, which may hold a node several times and after it has been found. -/
structure QueueSearch where
  found : List NodeIndex
  queue : List NodeIndex

namespace QueueSearch

/-- Takes the first node from the queue. One that is new is found, and its successors are
queued. -/
def round (next : NodeIndex → List NodeIndex) : QueueSearch → QueueSearch
  | ⟨found, []⟩ => ⟨found, []⟩
  | ⟨found, node :: queue⟩ =>
    if node ∈ found then ⟨found, queue⟩ else ⟨node :: found, queue ++ next node⟩

/-- The search for what the targets lead to, after a number of rounds. -/
def after (next : NodeIndex → List NodeIndex) (targets : List NodeIndex) : Nat → QueueSearch
  | 0 => ⟨[], targets⟩
  | rounds + 1 => (after next targets rounds).round next

end QueueSearch

/-- The nodes from which some target can be reached, targets included. The search queues
each target once, and a node once for each link out of it at most. -/
def Graph.leadingTo (graph : Graph) (targets : List NodeIndex) : List NodeIndex :=
  (QueueSearch.after graph.parents targets (targets.length + graph.links.length)).found

end MonthlyForecast
