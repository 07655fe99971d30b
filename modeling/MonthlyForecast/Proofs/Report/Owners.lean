import MonthlyForecast.Proofs.Evaluation.Run
import MonthlyForecast.Report.Basic

/-! The metric whose columns stand beside a node's values. Each node of the trees has one
owner: itself if it has a tree, else the root of the first tree that holds it. -/
namespace MonthlyForecast.Model
open MetricTree

variable {trees : List MetricTree} {slots : List TreeSlot} {node : NodeIndex}
  {owners : List (NodeIndex × NodeIndex)} {entry : NodeIndex × NodeIndex}

/-- The first of the trees that holds a node. -/
def holder? (trees : List MetricTree) (node : NodeIndex) : Option MetricTree :=
  trees.find? fun tree => tree.slots.any (·.node == node)

/-- The owner of a node that the given tree is the first to hold. -/
def ownerIn (trees : List MetricTree) (tree : MetricTree) (node : NodeIndex) : NodeIndex :=
  if trees.any (·.root == node) then node else tree.root

theorem any_node_iff : slots.any (·.node == node) ↔ Holds slots node := by
  simp only [List.any_eq_true, beq_iff_eq, Holds]

theorem holder?_isSome_iff : (holder? trees node).isSome ↔ InTrees trees node := by
  simp only [holder?, List.find?_isSome, any_node_iff, InTrees]

/-- The first tree that holds the node, with the trees before it. -/
theorem holder?_eq_some_iff {tree : MetricTree} :
    holder? trees node = some tree ↔ Holds tree.slots node ∧
      ∃ before after, trees = before ++ tree :: after ∧
        ∀ earlier ∈ before, ¬ Holds earlier.slots node := by
  simp only [holder?, List.find?_eq_some_iff_append, any_node_iff, Bool.not_eq_true',
    ← Bool.not_eq_true]

theorem ownerIn_eq {graph : Graph} (forest : Forest graph trees) (tree : MetricTree)
    (node : NodeIndex) :
    ownerIn trees tree node = if graph.isMetric node then node else tree.root := by
  have rooted : trees.any (·.root == node) = graph.isMetric node := by
    rw [Bool.eq_iff_iff, ← Graph.mem_metrics_iff, ← forest.roots_perm.mem_iff]
    simp
  rw [ownerIn, rooted]

/-- Slots enter their nodes with an owner, unless the nodes have one. -/
theorem mem_enter_iff (owner : NodeIndex → NodeIndex) (slots : List TreeSlot)
    (owners : List (NodeIndex × NodeIndex)) :
    entry ∈ slots.foldl (fun owners slot =>
        if owners.any (·.1 == slot.node) then owners
        else owners ++ [(slot.node, owner slot.node)]) owners ↔
      entry ∈ owners ∨
        (entry.1 ∉ owners.map (·.1) ∧ Holds slots entry.1) ∧ entry.2 = owner entry.1 := by
  induction slots generalizing owners with
  | nil => simp [Holds]
  | cons slot rest ih =>
    have holds_cons : Holds (slot :: rest) entry.1 ↔ entry.1 = slot.node ∨ Holds rest entry.1 := by
      simp [Holds, eq_comm]
    rw [List.foldl_cons, ih, holds_cons]
    split
    · rename_i present
      have listed : slot.node ∈ owners.map (·.1) := by simpa using present
      by_cases here : entry.1 = slot.node
      · simp [here, listed]
      · simp [here]
    · rename_i absent
      have fresh : slot.node ∉ owners.map (·.1) := by simpa using absent
      rw [List.map_append, List.mem_append, List.mem_append, List.mem_singleton]
      by_cases here : entry.1 = slot.node
      · simp [here, fresh, Prod.ext_iff]
      · simp [here, Prod.ext_iff]

theorem nodup_enter (owner : NodeIndex → NodeIndex) (distinct : (owners.map (·.1)).Nodup) :
    ((slots.foldl (fun owners slot =>
        if owners.any (·.1 == slot.node) then owners
        else owners ++ [(slot.node, owner slot.node)]) owners).map (·.1)).Nodup := by
  induction slots generalizing owners with
  | nil => exact distinct
  | cons slot rest ih =>
    rw [List.foldl_cons]
    apply ih
    split
    · exact distinct
    · rename_i absent
      have fresh : slot.node ∉ owners.map (·.1) := by simpa using absent
      rw [List.map_append, List.map_singleton]
      exact List.concat_eq_append ▸ distinct.concat fresh

/-- The owners entered by the trees so far, each node's by the first tree that holds it. -/
structure Entered (trees done : List MetricTree) (owners : List (NodeIndex × NodeIndex)) :
    Prop where
  distinct : (owners.map (·.1)).Nodup
  mem_iff : ∀ entry, entry ∈ owners ↔
    ∃ tree, holder? done entry.1 = some tree ∧ entry.2 = ownerIn trees tree entry.1

theorem Entered.listed_iff {done : List MetricTree} (entered : Entered trees done owners) :
    node ∈ owners.map (·.1) ↔ (holder? done node).isSome := by
  simp [List.mem_map, entered.mem_iff, Option.isSome_iff_exists]

theorem entered_nodeOwners (trees : List MetricTree) : Entered trees trees (nodeOwners trees) := by
  apply foldl_invariant (Entered trees)
  · exact ⟨List.nodup_nil, by simp [holder?]⟩
  · intro done tree owners _ entered
    refine ⟨nodup_enter (ownerIn trees tree) entered.distinct, fun entry => ?_⟩
    refine (mem_enter_iff (ownerIn trees tree) tree.slots owners).trans ?_
    rw [entered.mem_iff, entered.listed_iff, ← any_node_iff]
    simp only [holder?, List.find?_append, List.find?_singleton]
    cases done.find? fun tree => tree.slots.any (·.node == entry.1) with
    | some first => simp
    | none => simp

/-- The nodes with an owner are those that the trees hold. -/
theorem owned_iff : node ∈ (nodeOwners trees).map (·.1) ↔ InTrees trees node :=
  (entered_nodeOwners trees).listed_iff.trans holder?_isSome_iff

end MonthlyForecast.Model
