import Mathlib.Data.List.Chain
import MonthlyForecast.Proofs.Graph.Cycles

/-! What the search for cycles lists. Its open path is a path of links, so a link back
into it closes a simple cycle. Every node is entered once and left once, also where cycles
are entered in the middle, and the limit on the depth is never met. -/
namespace MonthlyForecast

namespace Graph

/-- A closed path along links that meets none of its nodes twice. -/
def SimpleCycle (graph : Graph) (cycle : List NodeIndex) : Prop :=
  ∃ first between, cycle = first :: between ++ [first] ∧ (first :: between).Nodup ∧
    cycle.IsChain graph.Linked

/-- The open nodes of a search, latest first: different nodes, each linked to the one
before it in the list. -/
structure OpenPath (graph : Graph) (path : List NodeIndex) : Prop where
  distinct : path.Nodup
  inside : ∀ node ∈ path, node < graph.size
  linked : path.IsChain fun node earlier => graph.Linked earlier node

/-- The search with another limit on its depth. -/
def cycleSearchWithin (graph : Graph) (depth : Nat) : CycleSearch :=
  graph.indices.foldl
    (fun search node =>
      if node ∈ search.finished then search else graph.searchFrom depth [] node search)
    ⟨[], []⟩

end Graph

/-- A search in progress: it has left different nodes, none of which is open, and its
cycles are simple. -/
structure CycleSearch.Progress (graph : Graph) (path : List NodeIndex) (search : CycleSearch) :
    Prop where
  apart : ∀ node ∈ search.finished, node ∉ path
  distinct : search.finished.Nodup
  inside : ∀ node ∈ search.finished, node < graph.size
  simple : ∀ cycle ∈ search.cycles, graph.SimpleCycle cycle

namespace Graph

variable {graph : Graph} {path : List NodeIndex} {node child : NodeIndex} {search : CycleSearch}

theorem OpenPath.length_le (opened : graph.OpenPath path) : path.length ≤ graph.size :=
  length_le_of_nodup opened.distinct opened.inside

theorem OpenPath.extend (opened : graph.OpenPath (node :: path)) (resolved : graph.Resolved)
    (linked : graph.Linked node child) (fresh : child ∉ node :: path) :
    graph.OpenPath (child :: node :: path) where
  distinct := List.nodup_cons.mpr ⟨fresh, opened.distinct⟩
  inside := List.forall_mem_cons.mpr ⟨(resolved.links_inside linked).2, opened.inside⟩
  linked := .cons_cons linked opened.linked

/-- A link back into the open path closes a simple cycle. -/
theorem OpenPath.simpleCycle_closePath (opened : graph.OpenPath (node :: path))
    (linked : graph.Linked node child) (onPath : child ∈ node :: path) :
    graph.SimpleCycle (closePath (node :: path) child) := by
  obtain ⟨later, earlier, split, fresh⟩ := List.eq_append_cons_of_mem onPath
  have taken : (node :: path).takeWhile (· != child) = later := by
    rw [split, List.takeWhile_append_of_pos, List.takeWhile_cons_of_neg, List.append_nil]
    · simp
    · intro other member
      exact bne_iff_ne.mpr fun same => fresh (same ▸ member)
  refine ⟨child, later.reverse, by rw [closePath, taken], ?_, ?_⟩
  · have distinct := opened.distinct
    rw [split] at distinct
    exact List.nodup_cons.mpr ⟨by simpa using fresh,
      List.nodup_reverse.mpr (List.nodup_append.mp distinct).1⟩
  · -- Read backwards the cycle is the path with the child in front, up to the child.
    have whole : (child :: node :: path).IsChain fun target source => graph.Linked source target :=
      .cons_cons linked opened.linked
    have backwards : closePath (node :: path) child = (child :: later ++ [child]).reverse := by
      simp [closePath, taken]
    rw [backwards, List.isChain_reverse]
    exact whole.prefix ⟨earlier, by simp [split]⟩

end Graph

namespace CycleSearch.Progress

variable {graph : Graph} {path : List NodeIndex} {node : NodeIndex} {search : CycleSearch}

theorem enter (progress : search.Progress graph path) (fresh : node ∉ search.finished) :
    search.Progress graph (node :: path) where
  apart := by
    intro other left opened
    rcases List.mem_cons.mp opened with rfl | opened
    · exact fresh left
    · exact progress.apart other left opened
  distinct := progress.distinct
  inside := progress.inside
  simple := progress.simple

theorem close {cycle : List NodeIndex} (progress : search.Progress graph path)
    (simple : graph.SimpleCycle cycle) :
    { search with cycles := search.cycles ++ [cycle] : CycleSearch }.Progress graph path where
  apart := progress.apart
  distinct := progress.distinct
  inside := progress.inside
  simple := List.forall_mem_append.mpr ⟨progress.simple, List.forall_mem_singleton.mpr simple⟩

theorem leave (progress : search.Progress graph (node :: path))
    (opened : graph.OpenPath (node :: path)) :
    { search with finished := node :: search.finished : CycleSearch }.Progress graph path where
  apart := by
    refine List.forall_mem_cons.mpr ⟨(List.nodup_cons.mp opened.distinct).1, ?_⟩
    exact fun other left among => progress.apart other left (List.mem_cons_of_mem _ among)
  distinct := List.nodup_cons.mpr
    ⟨fun left => progress.apart node left List.mem_cons_self, progress.distinct⟩
  inside := List.forall_mem_cons.mpr ⟨opened.inside node List.mem_cons_self, progress.inside⟩
  simple := progress.simple

end CycleSearch.Progress

namespace Graph

variable {graph : Graph} {path : List NodeIndex} {node : NodeIndex} {search : CycleSearch}

/-- A search from a new node leaves only new nodes and lists only simple cycles. -/
theorem searchFrom_progress (resolved : graph.Resolved) (depth : Nat)
    (opened : graph.OpenPath (node :: path)) (progress : search.Progress graph path)
    (fresh : node ∉ search.finished) (enough : graph.size ≤ depth + path.length) :
    (graph.searchFrom depth path node search).Progress graph path := by
  induction depth generalizing path node search with
  | zero =>
    have := opened.length_le
    simp only [List.length_cons] at this
    omega
  | succ depth ih =>
    simp only [searchFrom]
    refine CycleSearch.Progress.leave ?_ opened
    apply foldl_invariant fun _ (state : CycleSearch) => state.Progress graph (node :: path)
    · exact progress.enter fresh
    · intro _ child state follows sofar
      have linked := mem_children_iff.mp follows
      split
      · rename_i onPath
        exact sofar.close (opened.simpleCycle_closePath linked onPath)
      · rename_i offPath
        split
        · exact sofar
        · rename_i unfinished
          exact ih (opened.extend resolved linked offPath) sofar unfinished
            (by simp only [List.length_cons]; omega)

/-- A deeper limit changes nothing where the limit suffices for the nodes that are not
open. -/
theorem searchFrom_succ (resolved : graph.Resolved) (depth : Nat)
    (opened : graph.OpenPath (node :: path)) (enough : graph.size ≤ depth + path.length) :
    graph.searchFrom (depth + 1) path node search = graph.searchFrom depth path node search := by
  induction depth generalizing path node search with
  | zero =>
    have := opened.length_le
    simp only [List.length_cons] at this
    omega
  | succ depth ih =>
    rw [searchFrom, searchFrom]
    rw [List.foldl_ext]
    intro state child follows
    split
    · rfl
    · rename_i offPath
      split
      · rfl
      · exact ih (opened.extend resolved (mem_children_iff.mp follows) offPath)
          (by simp only [List.length_cons]; omega)

theorem searchFrom_eq_of_le (resolved : graph.Resolved) {depth : Nat} (deeper : graph.size ≤ depth)
    (inside : node < graph.size) (search : CycleSearch) :
    graph.searchFrom depth [] node search = graph.searchFrom graph.size [] node search := by
  have opened : graph.OpenPath [node] := ⟨by simp, by simpa using inside, .singleton node⟩
  induction depth, deeper using Nat.le_induction with
  | base => rfl
  | succ depth deeper ih => rw [searchFrom_succ resolved depth opened (by simpa using deeper), ih]

theorem cycleSearchWithin_eq (resolved : graph.Resolved) {depth : Nat}
    (deeper : graph.size ≤ depth) : graph.cycleSearchWithin depth = graph.cycleSearch := by
  apply List.foldl_ext
  intro state node member
  split
  · rfl
  · exact searchFrom_eq_of_le resolved deeper (List.mem_range.mp member) state

theorem cycleSearch_progress (resolved : graph.Resolved) :
    graph.cycleSearch.Progress graph [] := by
  apply foldl_invariant fun _ (state : CycleSearch) => state.Progress graph []
  · exact ⟨by simp, List.nodup_nil, by simp, by simp⟩
  · intro _ node state member sofar
    have inside : node < graph.size := List.mem_range.mp member
    split
    · exact sofar
    · rename_i unfinished
      have opened : graph.OpenPath [node] := ⟨by simp, by simpa using inside, .singleton node⟩
      exact searchFrom_progress resolved graph.size opened sofar unfinished (by simp)

/-- Every node is left exactly once. -/
theorem finished_perm_indices (resolved : graph.Resolved) :
    graph.cycleSearch.finished.Perm graph.indices := by
  have progress := cycleSearch_progress resolved
  rw [List.perm_ext_iff_of_nodup progress.distinct (show graph.indices.Nodup from List.nodup_range)]
  intro node
  constructor
  · exact fun left => List.mem_range.mpr (progress.inside node left)
  · exact (cycleSearch_extends resolved).2 node

/-- The search for cycles ends with every node left once, whatever room it is given beyond
the number of nodes. It lists a cycle exactly if there is one, and only simple cycles in
the direction of the links. -/
theorem cycleSearch_exact (nodes : List Node) (edges : List Edge) :
    let graph := Graph.ofLists nodes edges
    (∀ depth, graph.size ≤ depth → graph.cycleSearchWithin depth = graph.cycleSearch) ∧
      graph.cycleSearch.finished.Perm graph.indices ∧
      (graph.cycles = [] ↔ Acyclic graph.Linked) ∧
      ∀ cycle ∈ graph.cycles, graph.SimpleCycle cycle := by
  intro graph
  have resolved : graph.Resolved := ofLists_resolved nodes edges
  exact ⟨fun _ deeper => cycleSearchWithin_eq resolved deeper, finished_perm_indices resolved,
    cycles_eq_nil_iff resolved, (cycleSearch_progress resolved).simple⟩

end Graph
end MonthlyForecast
