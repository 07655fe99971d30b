import MonthlyForecast.Proofs.Tree.Schedule

/-! When the tree of a metric can be built and what it then holds, for any graph, told
from links and declared inputs alone. The nodes that the metric demands have one slot
each, behind the slots of their inputs. A tree is missing exactly if a demanded operator
declares an input that is not linked to it or a demanded node leads back to itself, and
the fault names such a place. -/
namespace MonthlyForecast
open Relation

namespace MetricTree

/-- The id names a node that is linked to the operator. -/
def Wired (graph : Graph) (operator : NodeIndex) (id : String) : Prop :=
  ∃ input, graph.index? id = some input ∧ graph.Linked input operator

/-- Every input that the node declares as an operator is linked to it. -/
def FullyWired (graph : Graph) (node : NodeIndex) : Prop :=
  ∀ operation ids, graph.kind? node = some (.operator operation ids) →
    ∀ id ∈ ids, Wired graph node id

/-- The node leads to the input within the tree of the root: an operator to its declared
inputs as far as they are linked to it, the root to all nodes linked to it. -/
def LeadsTo (graph : Graph) (root node input : NodeIndex) : Prop :=
  match graph.kind? node with
  | some (.operator _ ids) =>
    ∃ id ∈ ids, graph.index? id = some input ∧ graph.Linked input node
  | some (.metric _) => node = root ∧ graph.Linked input node
  | _ => False

/-- The nodes to which the root leads, itself included. -/
def Demands (graph : Graph) (root : NodeIndex) : NodeIndex → Prop :=
  ReflTransGen (LeadsTo graph root) root

/-- The slot points at the inputs of its node in their order: at the declared ones of an
operator, at all links into the root, and at nothing otherwise. -/
def PointsAtInputs (graph : Graph) (tree : MetricTree) (slot : TreeSlot) : Prop :=
  match graph.kind? slot.node with
  | some (.operator _ ids) =>
    List.Forall₂ (fun place id => ∃ input, NodeAt tree.slots place input ∧
      graph.index? id = some input ∧ graph.Linked input slot.node) slot.inputs ids
  | some (.metric _) =>
    if slot.node = tree.root then
      List.Forall₂ (NodeAt tree.slots) slot.inputs (graph.parents slot.node)
    else slot.inputs = []
  | _ => slot.inputs = []

/-- One slot for each demanded node and none else, every slot behind its inputs and the
root last. -/
structure DemandedSlots (graph : Graph) (tree : MetricTree) : Prop where
  one_slot : ∀ node, Demands graph tree.root node → ∃! place, NodeAt tree.slots place node
  no_other : ∀ slot ∈ tree.slots, Demands graph tree.root slot.node
  root_last : ∃ earlier places, tree.slots = earlier ++ [⟨tree.root, places⟩]
  inputs_before : ∀ (place : Nat) (slot : TreeSlot), tree.slots[place]? = some slot →
    ∀ input ∈ slot.inputs, input < place
  inputs : ∀ slot ∈ tree.slots, PointsAtInputs graph tree slot

/-- What keeps a root from having a tree, with the fault that names it. -/
inductive Obstacle (graph : Graph) (root : NodeIndex) : BuildFault → Prop where
  /-- The first declared input of an operator that is not linked to it. -/
  | unlinked {node : NodeIndex} {operation : Operation} {before after : List String} {id : String}
      (demanded : Demands graph root node)
      (kind : graph.kind? node = some (.operator operation (before ++ id :: after)))
      (wired : ∀ earlier ∈ before, Wired graph node earlier) (missing : ¬ Wired graph node id) :
      Obstacle graph root (.unlinkedInput (graph.idOf node) id)
  /-- A node that leads back to itself. -/
  | cycle {node : NodeIndex} (demanded : Demands graph root node)
      (back : TransGen (LeadsTo graph root) node node) :
      Obstacle graph root (.nodeCycle (graph.idOf root) (graph.idOf node))

variable {graph : Graph} {root node input metric : NodeIndex} {tree : MetricTree}
  {slots : List TreeSlot}

/-! The inputs of one node. -/

theorem operand_outcome (graph : Graph) (operator : NodeIndex) (id : String) :
    Outcome (fun input => graph.index? id = some input ∧ graph.Linked input operator)
      (fun fault => ¬ Wired graph operator id ∧
        fault = .unlinkedInput (graph.idOf operator) id)
      (operand graph operator id) := by
  unfold operand
  split
  · rename_i input found
    split
    · rename_i parent
      exact ⟨found, Graph.mem_parents_iff.mp parent⟩
    · rename_i apart
      refine ⟨?_, rfl⟩
      rintro ⟨other, found', linked⟩
      cases found.symm.trans found'
      exact apart (Graph.mem_parents_iff.mpr linked)
  · rename_i unknown
    refine ⟨?_, rfl⟩
    rintro ⟨input, found, _⟩
    cases unknown.symm.trans found

/-- The inputs of a node are those to which it leads, unless it declares one that is not
linked to it. -/
theorem inputsWithin_outcome (graph : Graph) (root node : NodeIndex) :
    Outcome (fun inputs => FullyWired graph node ∧
        ∀ input, input ∈ inputs ↔ LeadsTo graph root node input)
      (fun fault => ∃ operation before id after,
        graph.kind? node = some (.operator operation (before ++ id :: after)) ∧
          (∀ earlier ∈ before, Wired graph node earlier) ∧ ¬ Wired graph node id ∧
          fault = .unlinkedInput (graph.idOf node) id)
      (inputsWithin graph root node) := by
  unfold inputsWithin FullyWired LeadsTo
  cases kind : graph.kind? node with
  | none => exact ⟨by simp, by simp⟩
  | some shape =>
    cases shape with
    | data | constant | seed => exact ⟨by simp, by simp⟩
    | metric =>
      refine ⟨by simp, fun input => ?_⟩
      by_cases atRoot : node = root
      · simp [atRoot, Graph.mem_parents_iff]
      · simp [atRoot]
    | operator operation ids =>
      apply (Outcome.mapM_first ids (operand graph node)).imp
      · intro inputs found
        have linked := found.imp fun id input here => (operand_outcome graph node id).of_ok here
        refine ⟨?_, fun input => ?_⟩
        · rintro _ _ ⟨⟩ id member
          obtain ⟨input, _, wired⟩ := exists_left_of_forall₂ linked.flip member
          exact ⟨input, wired⟩
        · constructor
          · exact fun member => exists_left_of_forall₂ linked member
          · rintro ⟨id, member, found', _⟩
            obtain ⟨other, among, found, _⟩ := exists_left_of_forall₂ linked.flip member
            cases found.symm.trans found'
            exact among
      · rintro fault ⟨before, id, after, rfl, earlier, failed⟩
        obtain ⟨missing, rfl⟩ := (operand_outcome graph node id).of_error failed
        refine ⟨operation, before, id, after, rfl, ?_, missing, rfl⟩
        intro other member
        obtain ⟨input, found⟩ := earlier other member
        exact ⟨input, (operand_outcome graph node other).of_ok found⟩

theorem Uses.leadsTo (uses : Uses graph root node input) : LeadsTo graph root node input := by
  obtain ⟨inputs, declared, member⟩ := uses
  exact (((inputsWithin_outcome graph root node).of_ok declared).2 input).mp member

theorem LeadsTo.uses {inputs : List NodeIndex} (leads : LeadsTo graph root node input)
    (declared : inputsWithin graph root node = .ok inputs) : Uses graph root node input :=
  ⟨inputs, declared, (((inputsWithin_outcome graph root node).of_ok declared).2 input).mpr leads⟩

theorem demands_of_uses (path : ReflTransGen (Uses graph root) root node) :
    Demands graph root node :=
  path.lift id fun _ _ uses => Uses.leadsTo uses

/-- The reasons for which building fails are obstacles. -/
theorem Unbuildable.obstacle {fault : BuildFault} (unbuildable : Unbuildable graph root fault) :
    Obstacle graph root fault := by
  obtain ⟨node, path, ⟨cycle, rfl⟩ | failed⟩ := unbuildable
  · exact .cycle (demands_of_uses path) (cycle.lift id fun _ _ uses => Uses.leadsTo uses)
  · obtain ⟨_, _, _, _, kind, wired, missing, rfl⟩ :=
      (inputsWithin_outcome graph root node).of_error failed
    exact .unlinked (demands_of_uses path) kind wired missing

/-! The places of a built tree. -/

theorem Placed.nodes_nodup (placed : Placed graph root slots) :
    (slots.map (·.node)).Nodup := by
  induction placed with
  | nil => exact List.nodup_nil
  | snoc _ fresh _ _ ih =>
    rw [List.map_append, List.nodup_append]
    refine ⟨ih, by simp, ?_⟩
    rintro earlier member _ last rfl
    obtain ⟨slot, among, same⟩ := List.mem_map.mp member
    exact fresh slot among (same.trans (by simpa using last))

theorem NodeAt.unique {place other : Nat} (distinct : (slots.map (·.node)).Nodup)
    (stands : NodeAt slots place node) (stands' : NodeAt slots other node) : place = other := by
  obtain ⟨slot, found, same⟩ := stands
  obtain ⟨slot', found', same'⟩ := stands'
  have place : (slots.map (·.node))[place]? = some node := by simp [found, same]
  have other : (slots.map (·.node))[other]? = some node := by simp [found', same']
  exact (List.getElem?_inj (List.getElem?_eq_some_iff.mp place).1 distinct).mp
    (place.trans other.symm)

theorem NodeAt.lt {place : Nat} (stands : NodeAt slots place node) : place < slots.length := by
  obtain ⟨_, found, _⟩ := stands
  exact (List.getElem?_eq_some_iff.mp found).1

/-- The inputs of a slot stand before it, in the order in which its node takes them. -/
theorem Placed.inputs_at (placed : Placed graph root slots) {place : Nat} {slot : TreeSlot}
    (stands : slots[place]? = some slot) :
    ∃ inputs, inputsWithin graph root slot.node = .ok inputs ∧
      List.Forall₂ (fun earlier input => earlier < place ∧ NodeAt slots earlier input)
        slot.inputs inputs := by
  obtain ⟨inside, same⟩ := List.getElem?_eq_some_iff.mp stands
  have split : slots = slots.take place ++ slot :: slots.drop (place + 1) := by
    rw [← same, ← List.drop_eq_getElem_cons, List.take_append_drop]
  obtain ⟨_, _, inputs, declared, linked⟩ := (split ▸ placed).split
  refine ⟨inputs, declared, linked.imp fun earlier input before => ⟨?_, ?_⟩⟩
  · have := before.lt
    simp only [List.length_take] at this
    omega
  · exact before.mono (List.take_prefix place slots)

namespace Built

/-- Whatever a slot uses has a slot before it. -/
theorem exists_place_lt (built : Built graph tree) {place : Nat}
    (stands : NodeAt tree.slots place node) (path : TransGen (Uses graph tree.root) node input) :
    ∃ earlier < place, NodeAt tree.slots earlier input := by
  have step : ∀ {place node input}, NodeAt tree.slots place node →
      Uses graph tree.root node input → ∃ earlier < place, NodeAt tree.slots earlier input := by
    rintro place _ input ⟨slot, found, rfl⟩ ⟨inputs, declared, member⟩
    obtain ⟨inputs', declared', linked⟩ := built.placed.inputs_at found
    cases declared.symm.trans declared'
    obtain ⟨earlier, _, before, stands⟩ := exists_left_of_forall₂ linked member
    exact ⟨earlier, before, stands⟩
  induction path with
  | single uses => exact step stands uses
  | tail _ uses ih =>
    obtain ⟨middle, before, stands⟩ := ih
    obtain ⟨earlier, before', stands'⟩ := step stands uses
    exact ⟨earlier, before'.trans before, stands'⟩

/-- No node of a built tree uses itself. -/
theorem no_cycle (built : Built graph tree) (held : Holds tree.slots node) :
    ¬ TransGen (Uses graph tree.root) node node := by
  intro cycle
  obtain ⟨slot, member, rfl⟩ := held
  obtain ⟨place, found⟩ := List.mem_iff_getElem?.mp member
  have stands : NodeAt tree.slots place slot.node := ⟨slot, found, rfl⟩
  obtain ⟨earlier, before, stands'⟩ := built.exists_place_lt stands cycle
  have same := stands.unique built.placed.nodes_nodup stands'
  omega

theorem exists_inputs (built : Built graph tree) (held : Holds tree.slots node) :
    ∃ inputs, inputsWithin graph tree.root node = .ok inputs := by
  obtain ⟨slot, member, rfl⟩ := held
  obtain ⟨place, found⟩ := List.mem_iff_getElem?.mp member
  obtain ⟨inputs, declared, _⟩ := built.placed.inputs_at found
  exact ⟨inputs, declared⟩

/-- A node of the tree leads to exactly what it uses. -/
theorem uses_iff_leadsTo (built : Built graph tree) (held : Holds tree.slots node) :
    Uses graph tree.root node input ↔ LeadsTo graph tree.root node input := by
  obtain ⟨inputs, declared⟩ := built.exists_inputs held
  exact ⟨Uses.leadsTo, fun leads => leads.uses declared⟩

theorem holds_of_uses (built : Built graph tree) (held : Holds tree.slots node)
    (uses : Uses graph tree.root node input) : Holds tree.slots input :=
  built.holds_iff.mpr ((built.holds_iff.mp held).tail uses)

theorem uses_of_leadsTo (built : Built graph tree) (held : Holds tree.slots node)
    (path : TransGen (LeadsTo graph tree.root) node input) :
    TransGen (Uses graph tree.root) node input := by
  have both : TransGen (Uses graph tree.root) node input ∧ Holds tree.slots input := by
    induction path with
    | single leads =>
      have uses := (built.uses_iff_leadsTo held).mpr leads
      exact ⟨.single uses, built.holds_of_uses held uses⟩
    | tail _ leads ih =>
      have uses := (built.uses_iff_leadsTo ih.2).mpr leads
      exact ⟨ih.1.tail uses, built.holds_of_uses ih.2 uses⟩
  exact both.1

/-- A built tree holds exactly the nodes that its root demands. -/
theorem holds_iff_demands (built : Built graph tree) :
    Holds tree.slots node ↔ Demands graph tree.root node := by
  constructor
  · exact fun held => demands_of_uses (built.holds_iff.mp held)
  · intro demanded
    induction demanded with
    | refl => exact built.holds_iff.mpr .refl
    | tail _ leads ih => exact built.holds_of_uses ih ((built.uses_iff_leadsTo ih).mpr leads)

theorem pointsAtInputs (built : Built graph tree) {slot : TreeSlot} (member : slot ∈ tree.slots) :
    PointsAtInputs graph tree slot := by
  obtain ⟨place, found⟩ := List.mem_iff_getElem?.mp member
  obtain ⟨inputs, declared, linked⟩ := built.placed.inputs_at found
  have stands := linked.imp fun _ _ here => here.2
  unfold inputsWithin at declared
  unfold PointsAtInputs
  cases kind : graph.kind? slot.node with
  | none =>
    rw [kind] at declared
    cases declared
    exact List.forall₂_nil_right_iff.mp stands
  | some shape =>
    rw [kind] at declared
    cases shape with
    | data | constant | seed =>
      cases declared
      exact List.forall₂_nil_right_iff.mp stands
    | operator operation ids => exact forall₂_comp stands (operands_eq_ok declared).flip
    | metric attributes =>
      cases declared
      by_cases atRoot : slot.node = tree.root
      · simp only [if_pos atRoot] at stands ⊢
        exact stands
      · simp only [if_neg atRoot] at stands ⊢
        exact List.forall₂_nil_right_iff.mp stands

theorem demandedSlots (built : Built graph tree) : DemandedSlots graph tree where
  one_slot := by
    intro node demanded
    obtain ⟨slot, member, same⟩ := built.holds_iff_demands.mpr demanded
    obtain ⟨place, found⟩ := List.mem_iff_getElem?.mp member
    have stands : NodeAt tree.slots place node := ⟨slot, found, same⟩
    exact ⟨place, stands, fun other stands' => stands'.unique built.placed.nodes_nodup stands⟩
  no_other := fun slot member => built.holds_iff_demands.mp ⟨slot, member, rfl⟩
  root_last := built.root_last
  inputs_before := by
    intro place slot found input member
    obtain ⟨inputs, _, linked⟩ := built.placed.inputs_at found
    obtain ⟨_, _, before, _⟩ := exists_left_of_forall₂ linked.flip member
    exact before
  inputs := fun _ member => built.pointsAtInputs member

end Built

/-- The tree of a metric is built exactly if all demanded operators are wired and no
demanded node leads back to itself. It then has one slot for each demanded node; otherwise
the fault names an obstacle. -/
theorem build_exact (nodes : List Node) (edges : List Edge) (metric : NodeIndex)
    (isMetric : (Graph.ofLists nodes edges).isMetric metric) :
    let graph := Graph.ofLists nodes edges
    ((∃ tree, build graph metric = .ok tree) ↔
        (∀ node, Demands graph metric node → FullyWired graph node) ∧
          ∀ node, Demands graph metric node → ¬ TransGen (LeadsTo graph metric) node node) ∧
      (∀ tree, build graph metric = .ok tree → tree.root = metric ∧ DemandedSlots graph tree) ∧
      ∀ fault, build graph metric = .error fault → Obstacle graph metric fault := by
  intro graph
  have outcome : Outcome (fun tree => tree.root = metric ∧ Built graph tree)
      (Obstacle graph metric) (build graph metric) :=
    (build_outcome (Graph.ofLists_resolved nodes edges) isMetric).imp (fun _ built => built)
      fun _ unbuildable => unbuildable.obstacle
  refine ⟨⟨?_, ?_⟩, ?_, fun fault failed => outcome.of_error failed⟩
  · rintro ⟨tree, found⟩
    obtain ⟨rfl, built⟩ := outcome.of_ok found
    refine ⟨?_, ?_⟩
    · intro node demanded
      obtain ⟨inputs, declared⟩ := built.exists_inputs (built.holds_iff_demands.mpr demanded)
      exact ((inputsWithin_outcome graph tree.root node).of_ok declared).1
    · intro node demanded cycle
      have held := built.holds_iff_demands.mpr demanded
      exact built.no_cycle held (built.uses_of_leadsTo held cycle)
  · rintro ⟨wired, acyclic⟩
    obtain ⟨tree, found, _⟩ := outcome.exists_ok (by
      rintro _ (⟨demanded, kind, _, missing⟩ | ⟨demanded, back⟩)
      · exact missing (wired _ demanded _ _ kind _ (by simp))
      · exact acyclic _ demanded back)
    exact ⟨tree, found⟩
  · intro tree found
    obtain ⟨rfl, built⟩ := outcome.of_ok found
    exact ⟨rfl, built.demandedSlots⟩

/-! The area of a square: a product that takes one side twice. -/

def squareNodes : List Node :=
  [⟨"area", .metric ⟨"Area", none, none, true⟩, none⟩,
    ⟨"product", .operator .multiply ["side", "side"], none⟩, ⟨"side", .constant "Side" 3, none⟩]

def squareEdges : List Edge :=
  [⟨"a", "side", "product"⟩, ⟨"b", "product", "area"⟩]

def squareTree : MetricTree :=
  ⟨0, [⟨2, []⟩, ⟨1, [0, 0]⟩, ⟨0, [1]⟩]⟩

theorem build_exact_square :
    let graph := Graph.ofLists squareNodes squareEdges
    graph.isMetric 0 ∧ build graph 0 = .ok squareTree ∧ DemandedSlots graph squareTree := by
  intro graph
  have isMetric : graph.isMetric 0 := by decide +kernel
  have found : build graph 0 = .ok squareTree := by decide +kernel
  exact ⟨isMetric, found, ((build_exact squareNodes squareEdges 0 isMetric).2.1 _ found).2⟩

end MetricTree
end MonthlyForecast
