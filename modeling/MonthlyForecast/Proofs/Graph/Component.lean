import MonthlyForecast.Proofs.Graph.Precedence
import MonthlyForecast.Proofs.Graph.Reach

/-! The group that an order without success reports. A node stands before one of its
sources only if it leads back to that source, so the source lies on a cycle, and the group
is the strong component of the source. Nothing is said about which component is found if
there are several. -/
namespace MonthlyForecast
open Relation

/-- Two or more nodes by increasing index, each leading to all of them and to no other
node that leads back. -/
structure StrongComponent (related : NodeIndex → NodeIndex → Prop) (group : List NodeIndex) :
    Prop where
  sorted : group.Pairwise (· < ·)
  several : 2 ≤ group.length
  mem_iff : ∀ node ∈ group, ∀ other, other ∈ group ↔
    ReflTransGen related node other ∧ ReflTransGen related other node

/-- Every node of a component has a source. -/
theorem StrongComponent.exists_source {related : NodeIndex → NodeIndex → Prop}
    {group : List NodeIndex} {node : NodeIndex} (component : StrongComponent related group)
    (member : node ∈ group) : ∃ source, related source node := by
  have another : ∃ other ∈ group, other ≠ node := by
    match group, component.several, component.sorted with
    | first :: second :: _, _, sorted =>
      have differs : first ≠ second :=
        Nat.ne_of_lt ((List.pairwise_cons.mp sorted).1 second List.mem_cons_self)
      by_cases same : first = node
      · exact ⟨second, by simp, same ▸ differs.symm⟩
      · exact ⟨first, by simp, same⟩
  obtain ⟨other, among, differs⟩ := another
  obtain ⟨_, path⟩ := (component.mem_iff node member other).mp among
  rcases path.cases_tail with same | ⟨source, _, step⟩
  · exact absurd same.symm differs
  · exact ⟨source, step⟩

theorem nodup_eraseDups (list : List NodeIndex) : list.eraseDups.Nodup := by
  induction size : list.length using Nat.strongRecOn generalizing list with
  | ind length ih =>
    cases list with
    | nil => exact List.nodup_nil
    | cons first rest =>
      rw [List.eraseDups_cons, List.nodup_cons, List.mem_eraseDups]
      have shorter := List.length_filter_le (fun other => !other == first) rest
      rw [List.length_cons] at size
      exact ⟨by simp, ih _ (by omega) _ rfl⟩

namespace Precedence

variable {precedence : Precedence} {node other source : NodeIndex}

theorem nodes_nodup (precedence : Precedence) : precedence.nodes.Nodup :=
  nodup_eraseDups _

theorem mem_component_iff (inside : node ∈ precedence.nodes) :
    other ∈ precedence.component node ↔
      ReflTransGen precedence.Before node other ∧ ReflTransGen precedence.Before other node := by
  have within : [node] ⊆ precedence.nodes := by simpa using inside
  have after : other ∈ gather precedence.successors precedence.nodes [node] ↔
      ReflTransGen precedence.Before node other := by
    rw [mem_gather_iff_reachable precedence.nodes_nodup _ within, successors_eq_before]
    · simp only [List.mem_singleton, exists_eq_left]
    · exact fun _ _ _ follows => (mem_successors_iff.mp follows).dependent_mem
  have before : other ∈ gather precedence.predecessors precedence.nodes [node] ↔
      ReflTransGen precedence.Before other node := by
    rw [mem_gather_iff_reachable precedence.nodes_nodup _ within, predecessors_eq_swap]
    · simp only [List.mem_singleton, exists_eq_left, reflTransGen_swap]
    · exact fun _ _ _ leads => (mem_predecessors_iff.mp leads).source_mem
  simp only [component, List.mem_mergeSort, List.mem_filter, after, before, decide_eq_true_eq]

theorem component_sorted (precedence : Precedence) (node : NodeIndex) :
    (precedence.component node).Pairwise (· < ·) := by
  simp only [component]
  generalize whole : (gather precedence.successors precedence.nodes [node]).filter
    (· ∈ gather precedence.predecessors precedence.nodes [node]) = members
  have distinct : members.Nodup :=
    whole ▸ (gather_nodup precedence.nodes_nodup).filter _
  have ordered : members.mergeSort.Pairwise (fun first second => decide (first ≤ second)) :=
    List.pairwise_mergeSort (fun _ _ _ => by simpa using Nat.le_trans)
      (fun first second => by simpa using Nat.le_total first second) members
  have apart : members.mergeSort.Pairwise (· ≠ ·) :=
    (List.mergeSort_perm members _).nodup_iff.mpr distinct
  apply (ordered.and apart).imp
  rintro first second ⟨atMost, other⟩
  exact Nat.lt_of_le_of_ne (of_decide_eq_true atMost) other

/-- The awaited source is one that its dependent stands before. -/
theorem awaitedSource?_eq_some {placed rest : List NodeIndex}
    (found : precedence.awaitedSource? placed rest = some source) :
    ∃ before node after, rest = before ++ node :: after ∧ precedence.Before source node ∧
      source ∉ placed ∧ source ∉ before := by
  induction rest generalizing placed with
  | nil => contradiction
  | cons first rest ih =>
    unfold awaitedSource? at found
    split at found
    · rename_i last awaited
      cases found
      obtain ⟨reads, missing⟩ := List.mem_filter.mp (List.mem_of_getLast? awaited)
      exact ⟨[], first, rest, rfl, mem_predecessors_iff.mp reads, by simpa using missing, by simp⟩
    · obtain ⟨before, node, after, rfl, reads, missing, notBefore⟩ := ih found
      rw [List.mem_cons, not_or] at missing
      exact ⟨first :: before, node, after, rfl, reads, missing.2,
        by simp [missing.1, notBefore]⟩

/-- A source that stands behind its dependent in the order of the search is reached from it. -/
theorem leads_back {before after : List NodeIndex}
    (whole : precedence.searchOrder = before ++ node :: after)
    (reads : precedence.Before source node) (behind : source ∉ before) :
    ReflTransGen precedence.Before node source := by
  obtain ⟨distinct, complete, unwound⟩ := searchOrder_spec precedence
  rw [whole] at distinct unwound
  have standing : source ∈ before ++ node :: after :=
    whole ▸ (complete source).mpr reads.source_mem
  have later : source ∈ after := by
    rcases List.mem_append.mp standing with earlier | here
    · exact absurd earlier behind
    · exact (List.mem_cons.mp here).resolve_left reads.2
  obtain ⟨between, rest, rfl⟩ := List.append_of_mem later
  have split : Unwound precedence.successors ((before ++ node :: between) ++ source :: rest) := by
    simpa using unwound
  -- The node was still open when the search left the source.
  rcases split.split (mem_successors_iff.mpr reads) with left | back
  · have apart := (List.nodup_cons.mp (List.nodup_append.mp distinct).2.1).1
    exact absurd (List.mem_append_right between (List.mem_cons_of_mem source left)) apart
  · rw [successors_eq_before] at back
    exact back

/-- Where no order is given, the group is a strong component. -/
theorem order_eq_error {group : List NodeIndex} (failed : precedence.order = .error group) :
    StrongComponent precedence.Before group := by
  unfold Precedence.order at failed
  split at failed
  · contradiction
  rename_i source awaited
  cases failed
  obtain ⟨before, node, after, whole, reads, _, behind⟩ := awaitedSource?_eq_some awaited
  have back := leads_back whole reads behind
  have inside := reads.source_mem
  have first : source ∈ precedence.component source :=
    (mem_component_iff inside).mpr ⟨.refl, .refl⟩
  have second : node ∈ precedence.component source :=
    (mem_component_iff inside).mpr ⟨.single reads, back⟩
  refine ⟨precedence.component_sorted source, ?_, ?_⟩
  · by_contra few
    have single : (precedence.component source).length = 1 := by
      have := List.length_pos_of_mem first
      omega
    obtain ⟨only, same⟩ := List.length_eq_one_iff.mp single
    rw [same, List.mem_singleton] at first second
    exact reads.2 (first.trans second.symm)
  · intro member among other
    obtain ⟨there, home⟩ := (mem_component_iff inside).mp among
    rw [mem_component_iff inside]
    exact ⟨fun ⟨out, into⟩ => ⟨home.trans out, into.trans there⟩,
      fun ⟨out, into⟩ => ⟨there.trans out, into.trans home⟩⟩

end Precedence
end MonthlyForecast
