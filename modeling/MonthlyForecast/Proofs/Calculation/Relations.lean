import MonthlyForecast.Proofs.Tree.Checked
import MonthlyForecast.Proofs.Validation.WellFormed

/-! What the node and edge lists say of trees: which nodes lead to a metric, which nodes the
tree of a metric holds and which metrics it reads. No tree is built to say so; for
well-formed lists the built trees agree. -/
namespace MonthlyForecast
open Relation Validation

/-- The node leads to a metric by edges, or is one. -/
def Connected (nodes : List Node) (edges : List Edge) (id : String) : Prop :=
  ∃ metric ∈ nodes, IsMetric metric ∧ ReflTransGen (Joined edges) id metric.id

/-- The metric's tree holds the metric and the inputs of what it holds, but it does not
open other metrics. -/
inductive InTree (nodes : List Node) (edges : List Edge) (metric : String) : String → Prop where
  | root : InTree nodes edges metric metric
  | input {node : Node} {id : String} (member : node ∈ nodes)
      (held : InTree nodes edges metric node.id) (opened : node.id = metric ∨ ¬ IsMetric node)
      (joined : Joined edges id node.id) : InTree nodes edges metric id

/-- The reader's tree holds a seed of the source, or the source as a metric other than
the reader. -/
def Reads (nodes : List Node) (edges : List Edge) (reader source : String) : Prop :=
  (∃ metric ∈ nodes, metric.id = reader ∧ IsMetric metric) ∧
    ∃ node ∈ nodes, InTree nodes edges reader node.id ∧
      (node.kind = .seed source ∨ IsMetric node ∧ node.id = source ∧ source ≠ reader)

/-- A cycle of reads that passes through two different metrics. -/
def ReadCycle (nodes : List Node) (edges : List Edge) : Prop :=
  ∃ first second, first ≠ second ∧ TransGen (Reads nodes edges) first second ∧
    TransGen (Reads nodes edges) second first

theorem Validation.IsMetric.connected {nodes : List Node} {edges : List Edge} {metric : Node}
    (isMetric : IsMetric metric) (member : metric ∈ nodes) : Connected nodes edges metric.id :=
  ⟨metric, member, isMetric, .refl⟩

namespace Validation.WellFormed

variable {nodes : List Node} {edges : List Edge} {node : Node} {id source target : String}
  {i j : Nat}

theorem mem_iff_place (wellFormed : WellFormed nodes edges) :
    node ∈ nodes ↔ ∃ i : Nat, (Graph.ofLists nodes edges).nodes[i]? = some node := by
  rw [← Graph.mem_distinctNodes_iff_place, Graph.distinctNodes_eq_self wellFormed.ids_distinct]

theorem linked_iff (wellFormed : WellFormed nodes edges)
    (sourceAt : (Graph.ofLists nodes edges).index? source = some i)
    (targetAt : (Graph.ofLists nodes edges).index? target = some j) :
    (Graph.ofLists nodes edges).Linked i j ↔ Joined edges source target := by
  rw [Graph.linked_ofLists_iff (Graph.index?_lt sourceAt) (Graph.index?_lt targetAt),
    edgesAmong_eq_self wellFormed.ends_named, Graph.idOf_index? sourceAt,
    Graph.idOf_index? targetAt]

theorem exists_linked (wellFormed : WellFormed nodes edges) (joined : Joined edges source target) :
    ∃ i j, (Graph.ofLists nodes edges).index? source = some i ∧
      (Graph.ofLists nodes edges).index? target = some j ∧
      (Graph.ofLists nodes edges).Linked i j := by
  apply Graph.exists_linked
  rw [edgesAmong_eq_self wellFormed.ends_named]
  exact joined

theorem map_idOf_parents (wellFormed : WellFormed nodes edges)
    (found : (Graph.ofLists nodes edges).index? id = some i) :
    ((Graph.ofLists nodes edges).parents i).map (Graph.ofLists nodes edges).idOf =
      inputIds edges id := by
  rw [Graph.map_idOf_parents (Graph.index?_lt found), edgesAmong_eq_self wellFormed.ends_named,
    Graph.idOf_index? found]

theorem index?_of_place (place : (Graph.ofLists nodes edges).nodes[i]? = some node) :
    (Graph.ofLists nodes edges).index? node.id = some i :=
  (Graph.ofLists_resolved nodes edges).index?_of_place place

/-- The node at the place of an id. -/
theorem exists_node (wellFormed : WellFormed nodes edges)
    (found : (Graph.ofLists nodes edges).index? id = some i) :
    ∃ node ∈ nodes, node.id = id ∧ (Graph.ofLists nodes edges).nodes[i]? = some node := by
  obtain ⟨node, place⟩ := Graph.exists_place (Graph.index?_lt found)
  refine ⟨node, wellFormed.mem_iff_place.mpr ⟨i, place⟩, ?_, place⟩
  rw [← Graph.idOf_of_place place, Graph.idOf_index? found]

/-- The metrics of the graph are those of the list, in its order. -/
theorem metrics_in_order (wellFormed : WellFormed nodes edges) :
    List.Forall₂ (fun metric i => IsMetric metric ∧
        (Graph.ofLists nodes edges).nodes[i]? = some metric)
      (nodes.filter (·.kind.type == .metric)) (Graph.ofLists nodes edges).metrics := by
  have places : List.Forall₂ (fun node i => (Graph.ofLists nodes edges).nodes[i]? = some node)
      nodes (Graph.ofLists nodes edges).indices := by
    rw [Graph.indices, Graph.size, Graph.ofLists_nodes,
      Graph.distinctNodes_eq_self wellFormed.ids_distinct]
    refine List.forall₂_iff_get.mpr ⟨by simp, ?_⟩
    intro i inside _
    simp [inside]
  refine (List.forall₂_and_left _ _).mpr ⟨?_, ?_⟩
  · intro metric member
    exact beq_iff_eq.mp (List.mem_filter.mp member).2
  · apply List.rel_filter _ places
    intro node i place
    exact beq_iff_eq.trans (isMetric_iff place).symm

theorem exists_metric_iff (wellFormed : WellFormed nodes edges) :
    (∃ metric ∈ nodes, metric.id = id ∧ IsMetric metric) ↔
      ∃ i, (Graph.ofLists nodes edges).index? id = some i ∧
        (Graph.ofLists nodes edges).isMetric i := by
  rw [← Validation.exists_metric_iff edges, Graph.distinctNodes_eq_self wellFormed.ids_distinct]

theorem exists_metric_iff_of_index? (wellFormed : WellFormed nodes edges)
    (found : (Graph.ofLists nodes edges).index? id = some i) :
    (∃ metric ∈ nodes, metric.id = id ∧ IsMetric metric) ↔
      (Graph.ofLists nodes edges).isMetric i := by
  rw [wellFormed.exists_metric_iff, found]
  simp

/-- The ids that an operator declares are those of the nodes linked to it. -/
theorem mem_declared_iff (wellFormed : WellFormed nodes edges)
    (place : (Graph.ofLists nodes edges).nodes[i]? = some node) {operation : Operation}
    {ids : List String} (kind : node.kind = .operator operation ids) :
    id ∈ ids ↔ ∃ input, (Graph.ofLists nodes edges).Linked input i ∧
      (Graph.ofLists nodes edges).index? id = some input := by
  have declared := wellFormed.inputs_match node (wellFormed.mem_iff_place.mpr ⟨i, place⟩)
  simp only [InputsMatch, kind, ← wellFormed.map_idOf_parents (index?_of_place place)] at declared
  have resolved := Graph.ofLists_resolved nodes edges
  rw [declared.2.mem_iff, List.mem_map]
  constructor
  · rintro ⟨input, parent, rfl⟩
    have linked := Graph.mem_parents_iff.mp parent
    exact ⟨input, linked, resolved.index?_idOf (resolved.links_inside linked).1⟩
  · rintro ⟨input, linked, found⟩
    exact ⟨input, Graph.mem_parents_iff.mpr linked, Graph.idOf_index? found⟩

/-- The declared inputs of an operator are nodes, and those that are linked to it. -/
theorem operands (wellFormed : WellFormed nodes edges)
    (place : (Graph.ofLists nodes edges).nodes[i]? = some node) {operation : Operation}
    {ids : List String} (kind : node.kind = .operator operation ids) :
    ∃ inputs, ids.mapM (MetricTree.operand (Graph.ofLists nodes edges) i) = .ok inputs ∧
      ∀ input, input ∈ inputs ↔ (Graph.ofLists nodes edges).Linked input i := by
  have each : ∀ id ∈ ids, Outcome (fun _ => True) (fun _ => False)
      (MetricTree.operand (Graph.ofLists nodes edges) i id) := by
    intro id among
    obtain ⟨input, linked, found⟩ := (wellFormed.mem_declared_iff place kind).mp among
    simp [MetricTree.operand, found, Graph.mem_parents_iff.mpr linked, Outcome]
  obtain ⟨inputs, found, _⟩ := (Outcome.mapM each).exists_ok fun _ never => never
  have all := MetricTree.operands_eq_ok found
  refine ⟨inputs, found, fun input => ⟨?_, ?_⟩⟩
  · intro among
    obtain ⟨_, _, _, linked⟩ := exists_left_of_forall₂ all among
    exact linked
  · intro linked
    have resolved := Graph.ofLists_resolved nodes edges
    have inputAt := resolved.index?_idOf (resolved.links_inside linked).1
    have named := (wellFormed.mem_declared_iff place kind).mpr ⟨input, linked, inputAt⟩
    obtain ⟨other, among, otherAt, _⟩ := exists_left_of_forall₂ (List.Forall₂.flip all) named
    cases inputAt.symm.trans otherAt
    exact among

theorem declared_ne_nil (wellFormed : WellFormed nodes edges) (member : node ∈ nodes)
    {operation : Operation} {ids : List String} (kind : node.kind = .operator operation ids) :
    ids ≠ [] := by
  rintro rfl
  have declared := wellFormed.inputs_match node member
  have counted := wellFormed.input_counts node member
  simp only [InputsMatch, InputCountAllowed, kind] at declared counted
  exact counted (List.nil_perm.mp declared.2)

/-- The graph of well-formed lists can be evaluated. -/
theorem checked (wellFormed : WellFormed nodes edges) : (Graph.ofLists nodes edges).Checked where
  resolved := Graph.ofLists_resolved nodes edges
  acyclic := by
    intro i cycle
    obtain ⟨id, path⟩ := Graph.exists_cycle_iff.mpr ⟨i, cycle⟩
    rw [edgesAmong_eq_self wellFormed.ends_named] at path
    exact wellFormed.acyclic id path
  operands := by
    intro i operation ids kind
    obtain ⟨node, place, shape⟩ := Graph.exists_place_of_kind? kind
    have member := wellFormed.mem_iff_place.mpr ⟨i, place⟩
    exact ⟨wellFormed.declared_ne_nil member shape, wellFormed.operands place shape⟩
  leaves := by
    intro i kind found leaf
    obtain ⟨node, place, rfl⟩ := Graph.exists_place_of_kind? found
    have none := wellFormed.input_counts node (wellFormed.mem_iff_place.mpr ⟨i, place⟩)
    rw [InputCountAllowed, ← wellFormed.map_idOf_parents (index?_of_place place)] at none
    cases shape : node.kind with
    | data | constant | seed =>
      rw [shape] at none
      exact List.map_eq_nil_iff.mp none
    | operator | metric => simp [shape, NodeKind.isLeaf] at leaf
  sources := by
    intro i id kind
    obtain ⟨node, place, shape⟩ := Graph.exists_place_of_kind? kind
    have source := wellFormed.seed_sources node (wellFormed.mem_iff_place.mpr ⟨i, place⟩)
    simp only [SourceIsMetric, shape] at source
    exact wellFormed.exists_metric_iff.mp source

theorem joined_path_iff (wellFormed : WellFormed nodes edges)
    (sourceAt : (Graph.ofLists nodes edges).index? source = some i)
    (targetAt : (Graph.ofLists nodes edges).index? target = some j) :
    ReflTransGen (Joined edges) source target ↔
      ReflTransGen (Graph.ofLists nodes edges).Linked i j := by
  rw [← Graph.reflTransGen_joined_iff sourceAt targetAt, edgesAmong_eq_self wellFormed.ends_named]

theorem connected_iff (wellFormed : WellFormed nodes edges)
    (found : (Graph.ofLists nodes edges).index? id = some i) :
    Connected nodes edges id ↔ ∃ metric, (Graph.ofLists nodes edges).isMetric metric ∧
      ReflTransGen (Graph.ofLists nodes edges).Linked i metric := by
  constructor
  · rintro ⟨metric, member, isMetric, path⟩
    obtain ⟨j, place⟩ := wellFormed.mem_iff_place.mp member
    exact ⟨j, (isMetric_iff place).mpr isMetric,
      (wellFormed.joined_path_iff found (index?_of_place place)).mp path⟩
  · rintro ⟨j, isMetric, path⟩
    obtain ⟨metric, place⟩ := Graph.exists_place (Graph.isMetric_lt isMetric)
    exact ⟨metric, wellFormed.mem_iff_place.mpr ⟨j, place⟩, (isMetric_iff place).mp isMetric,
      (wellFormed.joined_path_iff found (index?_of_place place)).mpr path⟩

/-- A connected node is a node: paths of edges stay among the nodes. -/
theorem exists_node_of_connected (wellFormed : WellFormed nodes edges)
    (connected : Connected nodes edges id) : ∃ node ∈ nodes, node.id = id := by
  obtain ⟨metric, member, _, path⟩ := connected
  rcases path.cases_head with rfl | ⟨_, ⟨edge, among, rfl, _⟩, _⟩
  · exact ⟨metric, member, rfl⟩
  · exact List.mem_map.mp (wellFormed.ends_named edge among).1

/-! The tree of a metric, as the lists say it and as it is built. -/

theorem exists_uses_of_inTree (wellFormed : WellFormed nodes edges)
    (rootAt : (Graph.ofLists nodes edges).index? target = some j)
    (held : InTree nodes edges target id) :
    ∃ i, (Graph.ofLists nodes edges).index? id = some i ∧
      ReflTransGen (MetricTree.Uses (Graph.ofLists nodes edges) j) j i := by
  induction held with
  | root => exact ⟨j, rootAt, .refl⟩
  | @input node id member _ opened joined ih =>
    obtain ⟨k, nodeAt, path⟩ := ih
    obtain ⟨i, k', found, nodeAt', linked⟩ := wellFormed.exists_linked joined
    cases nodeAt.symm.trans nodeAt'
    obtain ⟨k', place⟩ := wellFormed.mem_iff_place.mp member
    cases nodeAt.symm.trans (index?_of_place place)
    refine ⟨i, found, path.tail (wellFormed.checked.uses_iff.mpr ⟨linked, ?_⟩)⟩
    rcases opened with rfl | other
    · exact Or.inl (Option.some.inj (nodeAt.symm.trans rootAt))
    · exact Or.inr fun isMetric => other ((isMetric_iff place).mp isMetric)

theorem inTree_of_uses (wellFormed : WellFormed nodes edges)
    (path : ReflTransGen (MetricTree.Uses (Graph.ofLists nodes edges) j) j i) :
    InTree nodes edges ((Graph.ofLists nodes edges).idOf j)
      ((Graph.ofLists nodes edges).idOf i) := by
  induction path with
  | refl => exact .root
  | @tail k i _ uses ih =>
    obtain ⟨linked, opened⟩ := wellFormed.checked.uses_iff.mp uses
    obtain ⟨sourceInside, inside⟩ := wellFormed.checked.resolved.links_inside linked
    obtain ⟨node, place⟩ := Graph.exists_place inside
    rw [Graph.idOf_of_place place] at ih
    apply InTree.input (wellFormed.mem_iff_place.mpr ⟨k, place⟩) ih
    · rcases opened with rfl | other
      · exact Or.inl (Graph.idOf_of_place place).symm
      · exact Or.inr fun isMetric => other ((isMetric_iff place).mpr isMetric)
    · exact (wellFormed.linked_iff (wellFormed.checked.resolved.index?_idOf sourceInside)
        (index?_of_place place)).mp linked

/-- A built tree holds the nodes that the lists say. -/
theorem holds_iff_inTree (wellFormed : WellFormed nodes edges) {tree : MetricTree}
    (built : MetricTree.Built (Graph.ofLists nodes edges) tree)
    (rootAt : (Graph.ofLists nodes edges).index? target = some tree.root)
    (found : (Graph.ofLists nodes edges).index? id = some i) :
    MetricTree.Holds tree.slots i ↔ InTree nodes edges target id := by
  rw [built.holds_iff]
  constructor
  · intro path
    have held := wellFormed.inTree_of_uses path
    rwa [Graph.idOf_index? rootAt, Graph.idOf_index? found] at held
  · intro held
    obtain ⟨i', found', path⟩ := wellFormed.exists_uses_of_inTree rootAt held
    cases found.symm.trans found'
    exact path

/-- The built trees together hold the nodes that the lists say. -/
theorem inTrees_iff_inTree (wellFormed : WellFormed nodes edges) {trees : List MetricTree}
    (forest : MetricTree.Forest (Graph.ofLists nodes edges) trees)
    (found : (Graph.ofLists nodes edges).index? id = some i) :
    Model.InTrees trees i ↔
      ∃ metric ∈ nodes, IsMetric metric ∧ InTree nodes edges metric.id id := by
  constructor
  · rintro ⟨tree, member, held⟩
    obtain ⟨isMetric, built⟩ := forest.built tree member
    obtain ⟨metric, place⟩ := Graph.exists_place (Graph.isMetric_lt isMetric)
    exact ⟨metric, wellFormed.mem_iff_place.mpr ⟨_, place⟩, (isMetric_iff place).mp isMetric,
      (wellFormed.holds_iff_inTree built (index?_of_place place) found).mp held⟩
  · rintro ⟨metric, among, isMetric, held⟩
    obtain ⟨j, place⟩ := wellFormed.mem_iff_place.mp among
    obtain ⟨tree, member, rfl⟩ := forest.complete j ((isMetric_iff place).mpr isMetric)
    have built := (forest.built tree member).2
    exact ⟨tree, member,
      (wellFormed.holds_iff_inTree built (index?_of_place place) found).mpr held⟩

/-- A metric reads another one exactly if its tree needs the other's. -/
theorem reads_iff_needs (wellFormed : WellFormed nodes edges) :
    Reads nodes edges target source ∧ source ≠ target ↔
      ∃ i j, (Graph.ofLists nodes edges).index? source = some i ∧
        (Graph.ofLists nodes edges).index? target = some j ∧
          MetricTree.Needs (Graph.ofLists nodes edges) i j := by
  simp only [wellFormed.checked.needs_iff]
  constructor
  · rintro ⟨⟨metric, node, member, held, reads⟩, other⟩
    obtain ⟨j, rootAt, isMetric⟩ := wellFormed.exists_metric_iff.mp metric
    obtain ⟨k, nodeAt, path⟩ := wellFormed.exists_uses_of_inTree rootAt held
    obtain ⟨k', place⟩ := wellFormed.mem_iff_place.mp member
    cases nodeAt.symm.trans (index?_of_place place)
    have kind := Graph.kind?_of_place place
    obtain ⟨i, found, reads⟩ : ∃ i, (Graph.ofLists nodes edges).index? source = some i ∧
        ((∃ id, (Graph.ofLists nodes edges).kind? k = some (.seed id) ∧
            (Graph.ofLists nodes edges).index? id = some i) ∨
          (Graph.ofLists nodes edges).isMetric k ∧ k = i) := by
      rcases reads with seed | ⟨inner, rfl, _⟩
      · rw [seed] at kind
        obtain ⟨i, found, _⟩ := wellFormed.checked.sources kind
        exact ⟨i, found, Or.inl ⟨source, kind, found⟩⟩
      · exact ⟨k, nodeAt, Or.inr ⟨(isMetric_iff place).mpr inner, rfl⟩⟩
    refine ⟨i, j, found, rootAt, isMetric, ?_, k, path, reads⟩
    rintro rfl
    exact other ((Graph.idOf_index? found).symm.trans (Graph.idOf_index? rootAt))
  · rintro ⟨i, j, found, rootAt, isMetric, other, k, path, reads⟩
    have inside : k < (Graph.ofLists nodes edges).size := by
      rcases reads with ⟨_, kind, _⟩ | ⟨inner, _⟩
      · exact Graph.lt_of_kind? kind
      · exact Graph.isMetric_lt inner
    obtain ⟨node, place⟩ := Graph.exists_place inside
    have held := wellFormed.inTree_of_uses path
    rw [Graph.idOf_index? rootAt, Graph.idOf_of_place place] at held
    have apart : source ≠ target := by
      rintro rfl
      exact other (Option.some.inj (found.symm.trans rootAt))
    refine ⟨⟨wellFormed.exists_metric_iff.mpr ⟨j, rootAt, isMetric⟩, node,
      wellFormed.mem_iff_place.mpr ⟨k, place⟩, held, ?_⟩, apart⟩
    rcases reads with ⟨id, kind, idAt⟩ | ⟨inner, rfl⟩
    · have seed : node.kind = .seed id :=
        Option.some.inj ((Graph.kind?_of_place place).symm.trans kind)
      have same : id = source := (Graph.idOf_index? idAt).symm.trans (Graph.idOf_index? found)
      exact Or.inl (same ▸ seed)
    · have same : node.id = source :=
        (Graph.idOf_of_place place).symm.trans (Graph.idOf_index? found)
      exact Or.inr ⟨(isMetric_iff place).mp inner, same, apart⟩

theorem exists_needs_path (wellFormed : WellFormed nodes edges)
    (path : TransGen (fun reader source => Reads nodes edges reader source ∧ reader ≠ source)
      target source) :
    ∃ i j, (Graph.ofLists nodes edges).index? source = some i ∧
      (Graph.ofLists nodes edges).index? target = some j ∧
        TransGen (MetricTree.Needs (Graph.ofLists nodes edges)) i j := by
  induction path with
  | single reads =>
    obtain ⟨i, j, found, rootAt, needs⟩ := wellFormed.reads_iff_needs.mp ⟨reads.1, reads.2.symm⟩
    exact ⟨i, j, found, rootAt, .single needs⟩
  | tail _ reads ih =>
    obtain ⟨k, j, middleAt, rootAt, path⟩ := ih
    obtain ⟨i, k', found, middleAt', needs⟩ :=
      wellFormed.reads_iff_needs.mp ⟨reads.1, reads.2.symm⟩
    cases middleAt.symm.trans middleAt'
    exact ⟨i, j, found, rootAt, path.head needs⟩

/-- Metrics of the lists read each other in a cycle exactly if their trees do. -/
theorem readCycle_iff (wellFormed : WellFormed nodes edges) :
    ReadCycle nodes edges ↔ ¬ Acyclic (MetricTree.Needs (Graph.ofLists nodes edges)) := by
  rw [ReadCycle, exists_cycle_through_two_iff, not_iff_not]
  constructor
  · intro acyclic i cycle
    have lifted : TransGen (fun reader source => Reads nodes edges reader source ∧ reader ≠ source)
        ((Graph.ofLists nodes edges).idOf i) ((Graph.ofLists nodes edges).idOf i) := by
      apply cycle.swap.lift (Graph.ofLists nodes edges).idOf
      intro j i needs
      obtain ⟨inside, rootInside⟩ := wellFormed.checked.needs_inside needs
      obtain ⟨reads, other⟩ := wellFormed.reads_iff_needs.mpr ⟨i, j,
        wellFormed.checked.resolved.index?_idOf inside,
        wellFormed.checked.resolved.index?_idOf rootInside, needs⟩
      exact ⟨reads, other.symm⟩
    exact acyclic _ lifted
  · intro acyclic id cycle
    obtain ⟨i, j, found, found', path⟩ := wellFormed.exists_needs_path cycle
    cases found.symm.trans found'
    exact acyclic i path

end Validation.WellFormed
end MonthlyForecast
