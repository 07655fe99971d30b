import Mathlib.Data.List.Perm.Subperm
import MonthlyForecast.Graph.Cycles
import MonthlyForecast.Proofs.Graph.Lists
import MonthlyForecast.Proofs.Graph.Settled
import MonthlyForecast.Proofs.Outcome

/-! The depth-first search finds a cycle exactly if there is one. As long as no link
closes a cycle, the finished nodes stand in settled order; a link that closes one leads
back into the open path. -/
namespace MonthlyForecast
open Relation

theorem length_le_of_nodup {list : List Nat} {bound : Nat} (distinct : list.Nodup)
    (inside : ∀ item ∈ list, item < bound) : list.length ≤ bound := by
  have within : list ⊆ List.range bound := fun item member =>
    List.mem_range.mpr (inside item member)
  simpa using (distinct.subperm within).length_le

/-- What a stretch of the search leaves in place. -/
structure CycleSearch.Extends (graph : Graph) (before after : CycleSearch) : Prop where
  finished : before.finished ⊆ after.finished
  cycles : before.cycles <+: after.cycles
  settled : after.cycles = [] → Settled graph.children before.finished →
    Settled graph.children after.finished
  genuine : Acyclic graph.Linked → after.cycles = before.cycles

namespace CycleSearch.Extends

variable {graph : Graph} {before middle after : CycleSearch}

theorem refl (graph : Graph) (search : CycleSearch) : Extends graph search search :=
  ⟨fun _ member => member, List.prefix_refl _, fun _ settled => settled, fun _ => rfl⟩

theorem cycles_eq_nil (extension : Extends graph before after) (none : after.cycles = []) :
    before.cycles = [] :=
  List.prefix_nil.mp (none ▸ extension.cycles)

theorem trans (first : Extends graph before middle) (second : Extends graph middle after) :
    Extends graph before after where
  finished := fun _ member => second.finished (first.finished member)
  cycles := first.cycles.trans second.cycles
  settled := fun none settled =>
    second.settled none (first.settled (second.cycles_eq_nil none) settled)
  genuine := fun acyclic => (second.genuine acyclic).trans (first.genuine acyclic)

/-- A link back into the open path closes a cycle. -/
theorem closing {search : CycleSearch} {cycle : List NodeIndex} {node : NodeIndex}
    (back : TransGen graph.Linked node node) :
    Extends graph search { search with cycles := search.cycles ++ [cycle] } where
  finished := fun _ member => member
  cycles := List.prefix_append _ _
  settled := fun none => absurd none (by simp)
  genuine := fun acyclic => absurd back (acyclic node)

end CycleSearch.Extends

namespace Graph

variable {graph : Graph}

theorem settled_links_iff {source target : NodeIndex} :
    TransGen (fun node child => child ∈ graph.children node) source target ↔
      TransGen graph.Linked source target := by
  have same : (fun node child => child ∈ graph.children node) = graph.Linked := by
    funext source target
    exact propext mem_children_iff
  rw [same]

/-- A search from a node finishes it. The path holds the open nodes, each of which leads
to the node, and the depth suffices for the nodes that are not open. -/
theorem searchFrom_extends (resolved : graph.Resolved) (depth : Nat) (path : List NodeIndex)
    (node : NodeIndex) (search : CycleSearch) (distinct : (node :: path).Nodup)
    (inside : ∀ other ∈ node :: path, other < graph.size)
    (leads : ∀ other ∈ path, TransGen graph.Linked other node)
    (enough : graph.size ≤ depth + path.length) :
    search.Extends graph (graph.searchFrom depth path node search) ∧
      node ∈ (graph.searchFrom depth path node search).finished := by
  induction depth generalizing path node search with
  | zero =>
    have := length_le_of_nodup distinct inside
    simp only [List.length_cons] at this
    omega
  | succ depth ih =>
    simp only [searchFrom]
    generalize folded : (graph.children node).foldl _ search = following
    have children : search.Extends graph following ∧
        (following.cycles = [] → ∀ child ∈ graph.children node, child ∈ following.finished) := by
      rw [← folded]
      apply foldl_invariant (fun done state => search.Extends graph state ∧
        (state.cycles = [] → ∀ child ∈ done, child ∈ state.finished))
      · exact ⟨.refl graph search, by simp⟩
      · rintro done child state follows ⟨extension, doneFinished⟩
        have linked := mem_children_iff.mp follows
        have grown : ∀ {after : CycleSearch}, state.Extends graph after →
            (after.cycles = [] → child ∈ after.finished) →
            search.Extends graph after ∧
              (after.cycles = [] → ∀ other ∈ done ++ [child], other ∈ after.finished) := by
          intro after further childFinished
          refine ⟨extension.trans further, ?_⟩
          intro none
          have earlier := doneFinished (further.cycles_eq_nil none)
          exact List.forall_mem_append.mpr
            ⟨fun other member => further.finished (earlier other member),
              List.forall_mem_singleton.mpr (childFinished none)⟩
        split
        · rename_i onPath
          have back : TransGen graph.Linked child child := leads_cons leads linked child onPath
          exact grown (.closing back) (fun none => absurd none (by simp))
        · rename_i fresh
          split
          · rename_i finished
            exact grown (.refl graph state) (fun _ => finished)
          · have childInside := (resolved.links_inside linked).2
            have deeper := ih (node :: path) child state
              (List.nodup_cons.mpr ⟨fresh, distinct⟩)
              (List.forall_mem_cons.mpr ⟨childInside, inside⟩) (leads_cons leads linked)
              (by simp only [List.length_cons]; omega)
            exact grown deeper.1 (fun _ => deeper.2)
    obtain ⟨extension, childrenFinished⟩ := children
    refine ⟨⟨?_, extension.cycles, ?_, extension.genuine⟩, by simp⟩
    · intro other member
      exact List.mem_cons_of_mem _ (extension.finished member)
    · intro none settled
      exact ⟨childrenFinished none, extension.settled none settled⟩

/-- The whole search finishes every node. -/
theorem cycleSearch_extends (resolved : graph.Resolved) :
    CycleSearch.Extends graph ⟨[], []⟩ graph.cycleSearch ∧
      ∀ node ∈ graph.indices, node ∈ graph.cycleSearch.finished := by
  apply foldl_invariant (fun done state => CycleSearch.Extends graph ⟨[], []⟩ state ∧
    ∀ node ∈ done, node ∈ state.finished)
  · exact ⟨.refl graph _, by simp⟩
  · rintro done node state member ⟨extension, doneFinished⟩
    have inside : node < graph.size := List.mem_range.mp member
    split
    · rename_i finished
      exact ⟨extension,
        List.forall_mem_append.mpr ⟨doneFinished, List.forall_mem_singleton.mpr finished⟩⟩
    · obtain ⟨further, finished⟩ := searchFrom_extends resolved graph.size [] node state
        (by simp) (by simpa using inside) (by simp) (by simp)
      exact ⟨extension.trans further, List.forall_mem_append.mpr
        ⟨fun other among => further.finished (doneFinished other among),
          List.forall_mem_singleton.mpr finished⟩⟩

/-- No cycle is listed exactly if links do not form one. -/
theorem cycles_eq_nil_iff (resolved : graph.Resolved) :
    graph.cycles = [] ↔ Acyclic graph.Linked := by
  obtain ⟨extension, allFinished⟩ := cycleSearch_extends resolved
  constructor
  · intro none node cycle
    obtain ⟨_, linked, _⟩ := TransGen.head'_iff.mp cycle
    have inside := (resolved.links_inside linked).1
    have settled := extension.settled none trivial
    exact settled.no_cycle (allFinished node (List.mem_range.mpr inside))
      (settled_links_iff.mpr cycle)
  · exact extension.genuine

end Graph
end MonthlyForecast
