import MonthlyForecast.Proofs.Graph.Cycles
import MonthlyForecast.Proofs.Outcome
import MonthlyForecast.Tree.Build

/-! What building a tree yields, for any graph. Each slot is new, stands behind its
inputs and points at them in order; the tree holds exactly the nodes that its root
uses, directly or through others. A build that fails met a node that uses itself, or an
operator with an input that is not linked to it. -/
namespace MonthlyForecast
open Relation

namespace MetricTree

/-- The node takes the input within the tree of the root. -/
def Uses (graph : Graph) (root node input : NodeIndex) : Prop :=
  ∃ inputs, inputsWithin graph root node = .ok inputs ∧ input ∈ inputs

/-- The node at a place among the slots. -/
def NodeAt (slots : List TreeSlot) (place : Nat) (node : NodeIndex) : Prop :=
  ∃ slot, slots[place]? = some slot ∧ slot.node = node

/-- Some slot is the node's. -/
def Holds (slots : List TreeSlot) (node : NodeIndex) : Prop :=
  ∃ slot ∈ slots, slot.node = node

/-- Slots in post-order, each with the inputs of its node. -/
inductive Placed (graph : Graph) (root : NodeIndex) : List TreeSlot → Prop where
  | nil : Placed graph root []
  | snoc {slots : List TreeSlot} {node : NodeIndex} {inputs : List NodeIndex} {places : List Nat}
      (before : Placed graph root slots) (fresh : ∀ slot ∈ slots, slot.node ≠ node)
      (declared : inputsWithin graph root node = .ok inputs)
      (linked : List.Forall₂ (NodeAt slots) places inputs) :
      Placed graph root (slots ++ [⟨node, places⟩])

/-- What placing a node adds to the slots. -/
structure Grown (graph : Graph) (root : NodeIndex) (openNodes : List NodeIndex)
    (node : NodeIndex) (before after : List TreeSlot) (found : Nat) : Prop where
  kept : before <+: after
  placed : Placed graph root after
  found_node : NodeAt after found node
  unopened : ∀ slot ∈ after, slot ∈ before ∨ slot.node ∉ openNodes
  used : ∀ slot ∈ after, slot ∈ before ∨ ReflTransGen (Uses graph root) node slot.node
  last : (∀ slot ∈ before, slot.node ≠ node) →
    ∃ earlier places, after = earlier ++ [⟨node, places⟩]

/-- The inputs placed so far for a node, with their places. -/
structure InputsPlaced (graph : Graph) (root : NodeIndex) (openNodes : List NodeIndex)
    (node : NodeIndex) (before : List TreeSlot) (done : List NodeIndex)
    (state : List TreeSlot × List Nat) : Prop where
  kept : before <+: state.1
  placed : Placed graph root state.1
  unopened : ∀ slot ∈ state.1, slot ∈ before ∨ slot.node ∉ node :: openNodes
  used : ∀ slot ∈ state.1, slot ∈ before ∨ ReflTransGen (Uses graph root) node slot.node
  linked : List.Forall₂ (NodeAt state.1) state.2 done

/-- Why the tree of a root cannot be built. -/
def Unbuildable (graph : Graph) (root : NodeIndex) (fault : BuildFault) : Prop :=
  ∃ node, ReflTransGen (Uses graph root) root node ∧
    (TransGen (Uses graph root) node node ∧
        fault = .nodeCycle (graph.idOf root) (graph.idOf node) ∨
      inputsWithin graph root node = .error fault)

variable {graph : Graph} {root node input : NodeIndex} {slots before after : List TreeSlot}

theorem NodeAt.mono {place : Nat} (kept : before <+: after) (stands : NodeAt before place node) :
    NodeAt after place node := by
  obtain ⟨slot, found, same⟩ := stands
  obtain ⟨rest, rfl⟩ := kept
  refine ⟨slot, ?_, same⟩
  rw [List.getElem?_append_left (List.getElem?_eq_some_iff.mp found).1]
  exact found

theorem NodeAt.holds {place : Nat} (stands : NodeAt slots place node) : Holds slots node := by
  obtain ⟨slot, found, same⟩ := stands
  exact ⟨slot, List.mem_of_getElem? found, same⟩

theorem operand_eq_ok {operator : NodeIndex} {id : String}
    (found : operand graph operator id = .ok input) :
    graph.index? id = some input ∧ graph.Linked input operator := by
  unfold operand at found
  split at found
  · rename_i place indexed
    split at found
    · rename_i parent
      cases found
      exact ⟨indexed, Graph.mem_parents_iff.mp parent⟩
    · contradiction
  · contradiction

/-- The inputs of an operator are the nodes that it names, each linked to it. -/
theorem operands_eq_ok {ids : List String} {inputs : List NodeIndex}
    (found : ids.mapM (operand graph node) = .ok inputs) :
    List.Forall₂ (fun id input => graph.index? id = some input ∧ graph.Linked input node)
      ids inputs := by
  have each : Outcome (List.Forall₂ (fun id input => graph.index? id = some input ∧
      graph.Linked input node) ids) (fun _ => True) (ids.mapM (operand graph node)) := by
    apply Outcome.mapM
    intro id _
    cases one : operand graph node id with
    | ok input => exact operand_eq_ok one
    | error fault => trivial
  exact each.of_ok found

/-- Every input is linked to the node that takes it. -/
theorem Uses.linked (uses : Uses graph root node input) : graph.Linked input node := by
  obtain ⟨inputs, declared, member⟩ := uses
  unfold inputsWithin at declared
  split at declared
  · obtain ⟨_, _, _, linked⟩ := exists_left_of_forall₂ (operands_eq_ok declared) member
    exact linked
  · cases declared
    split at member
    · exact Graph.mem_parents_iff.mp member
    · contradiction
  · cases declared
    contradiction

theorem Grown.already {openNodes : List NodeIndex} {found : Nat} (placed : Placed graph root slots)
    (present : slots.findIdx? (·.node == node) = some found) :
    Grown graph root openNodes node slots slots found := by
  obtain ⟨inside, same, _⟩ := List.findIdx?_eq_some_iff_getElem.mp present
  have stands : NodeAt slots found node :=
    ⟨slots[found], List.getElem?_eq_getElem inside, beq_iff_eq.mp same⟩
  refine ⟨List.prefix_refl _, placed, stands, fun _ => Or.inl, fun _ => Or.inl, ?_⟩
  intro absent
  obtain ⟨slot, member, same⟩ := stands.holds
  exact absurd same (absent slot member)

theorem InputsPlaced.next {openNodes done places : List NodeIndex} {found : Nat}
    (sofar : InputsPlaced graph root openNodes node before done (slots, places))
    (uses : Uses graph root node input)
    (grown : Grown graph root (node :: openNodes) input slots after found) :
    InputsPlaced graph root openNodes node before (done ++ [input]) (after, places ++ [found]) where
  kept := sofar.kept.trans grown.kept
  placed := grown.placed
  unopened := by
    intro slot member
    rcases grown.unopened slot member with earlier | fresh
    · exact sofar.unopened slot earlier
    · exact Or.inr fresh
  used := by
    intro slot member
    rcases grown.used slot member with earlier | path
    · exact sofar.used slot earlier
    · exact Or.inr (path.head uses)
  linked := by
    have earlier := sofar.linked.imp fun _ _ stands => NodeAt.mono grown.kept stands
    exact List.rel_append earlier (.cons grown.found_node .nil)

theorem InputsPlaced.finish {openNodes inputs : List NodeIndex} {places : List Nat}
    (all : InputsPlaced graph root openNodes node before inputs (slots, places))
    (declared : inputsWithin graph root node = .ok inputs)
    (fresh : ∀ slot ∈ before, slot.node ≠ node) (notOpened : node ∉ openNodes) :
    Grown graph root openNodes node before (slots ++ [⟨node, places⟩]) slots.length where
  kept := all.kept.trans (List.prefix_append _ _)
  placed := by
    refine .snoc all.placed ?_ declared all.linked
    intro slot member same
    rcases all.unopened slot member with earlier | unopened
    · exact fresh slot earlier same
    · exact unopened (same ▸ List.mem_cons_self)
  found_node := ⟨⟨node, places⟩, by simp, rfl⟩
  unopened := by
    refine List.forall_mem_append.mpr ⟨?_, List.forall_mem_singleton.mpr (Or.inr notOpened)⟩
    intro slot member
    exact (all.unopened slot member).imp_right fun fresh opened =>
      fresh (List.mem_cons_of_mem _ opened)
  used := List.forall_mem_append.mpr ⟨all.used, List.forall_mem_singleton.mpr (Or.inr .refl)⟩
  last := fun _ => ⟨slots, places, rfl⟩

/-- Placing a node, with its inputs placed before it. The open nodes are those whose
inputs are being placed; each of them uses the node. -/
theorem place_outcome (resolved : graph.Resolved) (depth : Nat) (openNodes : List NodeIndex)
    (node : NodeIndex) (slots : List TreeSlot) (placed : Placed graph root slots)
    (reached : ReflTransGen (Uses graph root) root node) (nodeInside : node < graph.size)
    (distinct : openNodes.Nodup) (inside : ∀ other ∈ openNodes, other < graph.size)
    (leads : ∀ other ∈ openNodes, TransGen (Uses graph root) other node)
    (enough : graph.size + 1 ≤ depth + openNodes.length) :
    Outcome (fun result => Grown graph root openNodes node slots result.1 result.2)
      (Unbuildable graph root) (place graph root depth openNodes node slots) := by
  induction depth generalizing openNodes node slots with
  | zero =>
    have := length_le_of_nodup distinct inside
    omega
  | succ depth ih =>
    unfold place
    split
    · rename_i found present
      exact Grown.already placed present
    · rename_i absent
      have fresh : ∀ slot ∈ slots, slot.node ≠ node := by
        simpa using List.findIdx?_eq_none_iff.mp absent
      split
      · rename_i opened
        exact ⟨node, reached, Or.inl ⟨leads node opened, rfl⟩⟩
      · rename_i notOpened
        have inputsOutcome : Outcome (fun inputs => inputsWithin graph root node = .ok inputs)
            (Unbuildable graph root) (inputsWithin graph root node) := by
          cases declared : inputsWithin graph root node with
          | ok inputs => exact rfl
          | error fault => exact ⟨node, reached, Or.inr declared⟩
        apply Outcome.bind inputsOutcome
        intro inputs _ declared
        refine Outcome.bind (?_ : Outcome (InputsPlaced graph root openNodes node slots inputs)
          (Unbuildable graph root) _) ?_
        · apply Outcome.foldlM (InputsPlaced graph root openNodes node slots)
          · exact ⟨List.prefix_refl _, placed, fun _ => Or.inl, fun _ => Or.inl, .nil⟩
          · rintro done input rest ⟨sofar, places⟩ split inputsPlaced
            have member : input ∈ inputs := split ▸ (by simp)
            have uses : Uses graph root node input := ⟨inputs, declared, member⟩
            have inputOutcome := ih (node :: openNodes) input sofar inputsPlaced.placed
              (reached.tail uses) (resolved.links_inside uses.linked).1
              (List.nodup_cons.mpr ⟨notOpened, distinct⟩)
              (List.forall_mem_cons.mpr ⟨nodeInside, inside⟩) (leads_cons leads uses)
              (by simp only [List.length_cons]; omega)
            apply Outcome.bind inputOutcome
            rintro ⟨after, found⟩ _ grown
            exact inputsPlaced.next uses grown
        · rintro ⟨after, places⟩ _ all
          exact all.finish declared fresh notOpened

/-- What a tree holds: slots in post-order, the last one for its root, and no node that
the root does not use. -/
structure Built (graph : Graph) (tree : MetricTree) : Prop where
  inside : ∀ slot ∈ tree.slots, slot.node < graph.size
  placed : Placed graph tree.root tree.slots
  root_last : ∃ earlier places, tree.slots = earlier ++ [⟨tree.root, places⟩]
  used : ∀ slot ∈ tree.slots, ReflTransGen (Uses graph tree.root) tree.root slot.node

theorem build_outcome (resolved : graph.Resolved) {metric : NodeIndex}
    (isMetric : graph.isMetric metric) :
    Outcome (fun tree => tree.root = metric ∧ Built graph tree) (Unbuildable graph metric)
      (build graph metric) := by
  have metricInside := Graph.isMetric_lt isMetric
  unfold build
  rw [if_pos isMetric]
  apply Outcome.bind (place_outcome resolved (graph.size + 1) [] metric [] .nil .refl
    metricInside List.nodup_nil (by simp) (by simp) (by simp))
  rintro ⟨slots, _⟩ _ grown
  have used : ∀ slot ∈ slots, ReflTransGen (Uses graph metric) metric slot.node := by
    intro slot member
    simpa using grown.used slot member
  refine ⟨rfl, ?_, grown.placed, grown.last (by simp), used⟩
  intro slot member
  rcases (used slot member).cases_tail with same | ⟨_, _, uses⟩
  · exact same ▸ metricInside
  · exact (resolved.links_inside uses.linked).1

/-! What a built tree says of each of its slots. -/

theorem Placed.concat {slot : TreeSlot} (placed : Placed graph root (slots ++ [slot])) :
    Placed graph root slots ∧ (∀ earlier ∈ slots, earlier.node ≠ slot.node) ∧
      ∃ inputs, inputsWithin graph root slot.node = .ok inputs ∧
        List.Forall₂ (NodeAt slots) slot.inputs inputs := by
  generalize whole : slots ++ [slot] = all at placed
  cases placed with
  | nil => simp at whole
  | snoc before fresh declared linked =>
    obtain ⟨rfl, same⟩ := List.append_inj' whole rfl
    obtain rfl := List.singleton_inj.mp same
    exact ⟨before, fresh, _, declared, linked⟩

theorem Placed.split {slot : TreeSlot} (placed : Placed graph root (before ++ slot :: after)) :
    Placed graph root before ∧ (∀ earlier ∈ before, earlier.node ≠ slot.node) ∧
      ∃ inputs, inputsWithin graph root slot.node = .ok inputs ∧
        List.Forall₂ (NodeAt before) slot.inputs inputs := by
  induction after using List.reverseRecOn with
  | nil => exact placed.concat
  | append_singleton rest last ih =>
    have shorter : Placed graph root ((before ++ slot :: rest) ++ [last]) := by simpa using placed
    exact ih shorter.concat.1

namespace Built

variable {tree : MetricTree}

/-- A tree holds exactly the nodes that its root uses. -/
theorem holds_iff (built : Built graph tree) :
    Holds tree.slots node ↔ ReflTransGen (Uses graph tree.root) tree.root node := by
  constructor
  · rintro ⟨slot, member, rfl⟩
    exact built.used slot member
  · intro path
    induction path with
    | refl =>
      obtain ⟨earlier, places, whole⟩ := built.root_last
      exact ⟨⟨tree.root, places⟩, by simp [whole], rfl⟩
    | tail _ uses ih =>
      obtain ⟨slot, member, rfl⟩ := ih
      obtain ⟨before, after, whole⟩ := List.append_of_mem member
      obtain ⟨_, _, inputs, declared, linked⟩ := (whole ▸ built.placed).split
      obtain ⟨_, declared', input⟩ := uses
      cases declared.symm.trans declared'
      obtain ⟨_, _, stands⟩ := exists_left_of_forall₂ linked input
      obtain ⟨earlier, among, same⟩ := stands.holds
      exact ⟨earlier, by simp [whole, among], same⟩

theorem root_stands (built : Built graph tree) :
    ∃ places, tree.slots[tree.rootPlace]? = some ⟨tree.root, places⟩ := by
  obtain ⟨earlier, places, whole⟩ := built.root_last
  exact ⟨places, by simp [rootPlace, whole]⟩

theorem rootPlace_iff (built : Built graph tree) {place : Nat} {slot : TreeSlot}
    (stands : tree.slots[place]? = some slot) : place = tree.rootPlace ↔ slot.node = tree.root := by
  obtain ⟨earlier, places, whole⟩ := built.root_last
  have last : tree.rootPlace = earlier.length := by simp [rootPlace, whole]
  rw [last]
  constructor
  · rintro rfl
    have same : slot = ⟨tree.root, places⟩ := by simpa [whole] using stands.symm
    rw [same]
  · intro same
    by_contra other
    have inside : place < earlier.length := by
      have bound := (List.getElem?_eq_some_iff.mp stands).1
      simp only [whole, List.length_append, List.length_singleton] at bound
      omega
    rw [whole, List.getElem?_append_left inside] at stands
    have fresh := (whole ▸ built.placed).concat.2.1 slot (List.mem_of_getElem? stands)
    exact fresh same

end Built

end MetricTree
end MonthlyForecast
