import MonthlyForecast.Proofs.Tree.Construction

/-! The nested form of a built tree. Slots point at earlier slots, so every slot has an
expansion and only one, however deep it is read. In it an operator carries its declared
inputs and its children stand in their order, and a slot that several others share looks
the same wherever it is repeated. -/
namespace MonthlyForecast

namespace NestedTree

def nodeId : NestedTree → String
  | .node id _ _ _ => id

/-- The tree occurs in another one: as the whole of it, or within a child. -/
inductive Within (inner : NestedTree) : NestedTree → Prop where
  | whole : Within inner inner
  | child {id : String} {type : NodeType} {inputOrder : Option (List String)}
      {children : List NestedTree} {child : NestedTree} (member : child ∈ children)
      (within : Within inner child) : Within inner (.node id type inputOrder children)

/-- Wherever an operator of the graph occurs, it carries the inputs that it declares and
its children have exactly these ids, in this order. -/
def FollowsDeclarations (graph : Graph) (nested : NestedTree) : Prop :=
  ∀ id type inputOrder children, Within (.node id type inputOrder children) nested →
    ∀ node operation ids, graph.index? id = some node →
      graph.kind? node = some (.operator operation ids) →
        inputOrder = some ids ∧ children.map nodeId = ids

/-- Whatever occurs twice under one id occurs in the same form. -/
def RepeatsAlike (nested : NestedTree) : Prop :=
  ∀ first second, Within first nested → Within second nested →
    first.nodeId = second.nodeId → first = second

end NestedTree

namespace MetricTree

/-- The nested form of the slot at a place, read to some depth. -/
def Expands (graph : Graph) (tree : MetricTree) (place : Nat) (nested : NestedTree) : Prop :=
  ∃ depth, tree.nestedFrom graph depth place = some nested

variable {graph : Graph} {tree : MetricTree} {place depth : Nat} {nested other : NestedTree}

/-- The inputs that a node of this kind declares. -/
def declaredInputs : NodeKind → Option (List String)
  | .operator _ inputOrder => some inputOrder
  | _ => none

/-- One level of the nested form. -/
theorem nestedFrom_succ_eq_some_iff :
    tree.nestedFrom graph (depth + 1) place = some nested ↔
      ∃ slot kind children, tree.slots[place]? = some slot ∧ graph.kind? slot.node = some kind ∧
        List.Forall₂ (fun input child => tree.nestedFrom graph depth input = some child)
          slot.inputs children ∧
        nested = .node (graph.idOf slot.node) kind.type (declaredInputs kind) children := by
  simp only [nestedFrom, Option.bind_eq_bind, Option.bind_eq_some_iff, Option.some.injEq]
  constructor
  · rintro ⟨slot, stands, kind, found, children, below, rfl⟩
    refine ⟨slot, kind, children, stands, found, forall₂_of_mapM below, ?_⟩
    cases kind <;> rfl
  · rintro ⟨slot, kind, children, stands, found, below, rfl⟩
    refine ⟨slot, stands, kind, found, children, mapM_of_forall₂ below, ?_⟩
    cases kind <;> rfl

theorem nestedFrom_mono {deeper : Nat} (more : depth ≤ deeper)
    (found : tree.nestedFrom graph depth place = some nested) :
    tree.nestedFrom graph deeper place = some nested := by
  induction depth generalizing deeper place nested with
  | zero => contradiction
  | succ depth ih =>
    obtain ⟨deeper, rfl⟩ : ∃ less, deeper = less + 1 := ⟨deeper - 1, by omega⟩
    obtain ⟨slot, kind, children, stands, kindAt, below, rfl⟩ :=
      nestedFrom_succ_eq_some_iff.mp found
    refine nestedFrom_succ_eq_some_iff.mpr ⟨slot, kind, children, stands, kindAt, ?_, rfl⟩
    exact below.imp fun _ _ here => ih (by omega) here

namespace Expands

theorem unique (expands : Expands graph tree place nested)
    (others : Expands graph tree place other) : nested = other := by
  obtain ⟨depth, found⟩ := expands
  obtain ⟨depth', found'⟩ := others
  have here := nestedFrom_mono (Nat.le_max_left depth depth') found
  have there := nestedFrom_mono (Nat.le_max_right depth depth') found'
  exact Option.some.inj (here.symm.trans there)

/-- An expansion is the slot's node with the expansions of its inputs. -/
theorem eq_node (expands : Expands graph tree place nested) :
    ∃ slot kind children, tree.slots[place]? = some slot ∧ graph.kind? slot.node = some kind ∧
      List.Forall₂ (Expands graph tree) slot.inputs children ∧
      nested = .node (graph.idOf slot.node) kind.type (declaredInputs kind) children := by
  obtain ⟨_ | depth, found⟩ := expands
  · contradiction
  · obtain ⟨slot, kind, children, stands, kindAt, below, same⟩ :=
      nestedFrom_succ_eq_some_iff.mp found
    exact ⟨slot, kind, children, stands, kindAt, below.imp fun _ _ here => ⟨depth, here⟩, same⟩

theorem nodeId_eq {node : NodeIndex} (expands : Expands graph tree place nested)
    (stands : NodeAt tree.slots place node) : nested.nodeId = graph.idOf node := by
  obtain ⟨slot, _, _, found, _, _, rfl⟩ := expands.eq_node
  obtain ⟨_, found', rfl⟩ := stands
  cases found.symm.trans found'
  rfl

/-- What occurs in an expansion is the expansion of some slot. -/
theorem exists_of_within (expands : Expands graph tree place nested)
    (within : other.Within nested) : ∃ inner, Expands graph tree inner other := by
  induction within generalizing place with
  | whole => exact ⟨place, expands⟩
  | child member _ ih =>
    obtain ⟨_, _, children, _, _, below, same⟩ := expands.eq_node
    cases same
    obtain ⟨input, _, inner⟩ := exists_left_of_forall₂ below member
    exact ih inner

end Expands

namespace Built

/-- Every slot has an expansion, read no deeper than the slots before it. -/
theorem exists_nestedFrom (built : Built graph tree) (inside : place < tree.slots.length) :
    ∃ nested, tree.nestedFrom graph (place + 1) place = some nested := by
  induction place using Nat.strong_induction_on with
  | _ place ih =>
    have stands := List.getElem?_eq_getElem inside
    obtain ⟨inputs, _, linked⟩ := built.placed.inputs_at stands
    have below : ∀ input ∈ tree.slots[place].inputs,
        ∃ child, tree.nestedFrom graph place input = some child := by
      intro input member
      obtain ⟨_, _, before, _⟩ := exists_left_of_forall₂ linked.flip member
      obtain ⟨child, found⟩ := ih input before (before.trans inside)
      exact ⟨child, nestedFrom_mono before found⟩
    obtain ⟨children, expanded⟩ := exists_forall₂ below
    obtain ⟨node, entry⟩ := Graph.exists_place (built.inside _ (List.getElem_mem inside))
    exact ⟨_, nestedFrom_succ_eq_some_iff.mpr
      ⟨_, node.kind, children, stands, Graph.kind?_of_place entry, expanded, rfl⟩⟩

theorem exists_nested (built : Built graph tree) :
    ∃ nested, tree.nested? graph = some nested ∧ Expands graph tree tree.rootPlace nested := by
  obtain ⟨earlier, places, whole⟩ := built.root_last
  have count : tree.slots.length = tree.rootPlace + 1 := by simp [rootPlace, whole]
  have inside : tree.rootPlace < tree.slots.length := by omega
  obtain ⟨nested, found⟩ := built.exists_nestedFrom inside
  refine ⟨nested, ?_, _, found⟩
  rw [nested?, count]
  exact found

/-- The children of an operator are its declared inputs. -/
theorem map_nodeId_children (built : Built graph tree) {slot : TreeSlot} {operation : Operation}
    {ids : List String} {children : List NestedTree} (member : slot ∈ tree.slots)
    (kind : graph.kind? slot.node = some (.operator operation ids))
    (below : List.Forall₂ (Expands graph tree) slot.inputs children) :
    children.map NestedTree.nodeId = ids := by
  have points := built.pointsAtInputs member
  simp only [PointsAtInputs, kind] at points
  have same : List.Forall₂ (fun child id => NestedTree.nodeId child = id) children ids := by
    apply (forall₂_comp below.flip points).imp
    rintro child id ⟨place, expands, input, stands, found, _⟩
    exact (Expands.nodeId_eq expands stands).trans (Graph.idOf_index? found)
  rw [← List.forall₂_eq_eq_eq]
  exact List.forall₂_map_left_iff.mpr same

theorem followsDeclarations (built : Built graph tree) (resolved : graph.Resolved)
    (expands : Expands graph tree place nested) : nested.FollowsDeclarations graph := by
  intro id type inputOrder children within node operation ids indexed kind
  obtain ⟨inner, expanded⟩ := expands.exists_of_within within
  obtain ⟨slot, kind', _, stands, found, below, same⟩ := expanded.eq_node
  cases same
  have member := List.mem_of_getElem? stands
  have own := resolved.index?_idOf (built.inside slot member)
  cases indexed.symm.trans own
  cases found.symm.trans kind
  exact ⟨rfl, built.map_nodeId_children member kind below⟩

theorem repeatsAlike (built : Built graph tree) (resolved : graph.Resolved)
    (expands : Expands graph tree place nested) : nested.RepeatsAlike := by
  intro first second within within' sameId
  obtain ⟨place, expanded⟩ := expands.exists_of_within within
  obtain ⟨place', expanded'⟩ := expands.exists_of_within within'
  obtain ⟨slot, _, _, stands, _⟩ := expanded.eq_node
  obtain ⟨slot', _, _, stands', _⟩ := expanded'.eq_node
  have here : NodeAt tree.slots place slot.node := ⟨slot, stands, rfl⟩
  have there : NodeAt tree.slots place' slot'.node := ⟨slot', stands', rfl⟩
  rw [expanded.nodeId_eq here, expanded'.nodeId_eq there] at sameId
  have sameNode := resolved.idOf_injective (built.inside slot (List.mem_of_getElem? stands))
    (built.inside slot' (List.mem_of_getElem? stands')) sameId
  rw [← sameNode] at there
  cases here.unique built.placed.nodes_nodup there
  exact expanded.unique expanded'

end Built

end MetricTree
end MonthlyForecast
