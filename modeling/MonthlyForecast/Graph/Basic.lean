import MonthlyForecast.Graph.Node

/-! A forecast graph with its ids resolved. Nodes are numbered in the order of their
first occurrence and links join numbers. A node that repeats an id and an edge that
names no node are left out; validation reports both. Numbers are not bounded here: a store
with 32-bit indices drops what comes after 2^32 nodes or 2^32 - 1 links, and graphs of that
size lie outside the model. -/
namespace MonthlyForecast

/-- A node's place in its graph. -/
abbrev NodeIndex := Nat

/-- The number of node indices that 32 bits can hold. `Graph.ofLists` does not cut off the
nodes beyond it. -/
def nodeIndexLimit : Nat := Nat.pow 2 32

/-- A number as a node index, if it is small enough for one. -/
def NodeIndex.ofNat? (number : Nat) : Option NodeIndex :=
  if number < nodeIndexLimit then some number else none

/-- An edge whose two ends are nodes of the graph. -/
structure Link where
  source : NodeIndex
  target : NodeIndex
deriving DecidableEq

structure Graph where
  nodes : Array Node
  links : List Link

namespace Graph

/-- The nodes without those that repeat an earlier id. -/
def distinctNodes (nodes : List Node) : List Node :=
  nodes.foldl (fun kept node => if kept.any (·.id == node.id) then kept else kept ++ [node]) []

/-- The place of the node with an id. -/
def indexIn? (nodes : Array Node) (id : String) : Option NodeIndex :=
  nodes.findIdx? (·.id == id)

def resolve? (nodes : Array Node) (edge : Edge) : Option Link := do
  let source ← indexIn? nodes edge.sourceId
  let target ← indexIn? nodes edge.targetId
  some ⟨source, target⟩

/-- The graph of lists of any length. -/
def ofLists (nodes : List Node) (edges : List Edge) : Graph :=
  let kept := (distinctNodes nodes).toArray
  ⟨kept, edges.filterMap (resolve? kept)⟩

def size (graph : Graph) : Nat :=
  graph.nodes.size

def indices (graph : Graph) : List NodeIndex :=
  List.range graph.size

def index? (graph : Graph) (id : String) : Option NodeIndex :=
  indexIn? graph.nodes id

def kind? (graph : Graph) (node : NodeIndex) : Option NodeKind :=
  graph.nodes[node]?.map (·.kind)

/-- The id of a node; empty for a number that is no node. -/
def idOf (graph : Graph) (node : NodeIndex) : String :=
  (graph.nodes[node]?.map (·.id)).getD ""

def metric? (graph : Graph) (node : NodeIndex) : Option Metric :=
  (graph.kind? node).bind (·.metric?)

def isMetric (graph : Graph) (node : NodeIndex) : Bool :=
  (graph.metric? node).isSome

/-- The display name of a node; empty for a number that is no node. -/
def label (graph : Graph) (node : NodeIndex) : String :=
  ((graph.kind? node).map (·.label)).getD ""

def metrics (graph : Graph) : List NodeIndex :=
  graph.indices.filter graph.isMetric

/-- The sources of the links into a node, in edge order, repeated if linked twice. -/
def parents (graph : Graph) (node : NodeIndex) : List NodeIndex :=
  (graph.links.filter (·.target == node)).map (·.source)

/-- The targets of the links out of a node, the latest edge first. -/
def children (graph : Graph) (node : NodeIndex) : List NodeIndex :=
  ((graph.links.filter (·.source == node)).map (·.target)).reverse

/-- Some link leads from the first node to the second. -/
def Linked (graph : Graph) (source target : NodeIndex) : Prop :=
  ⟨source, target⟩ ∈ graph.links

theorem mem_parents_iff {graph : Graph} {source target : NodeIndex} :
    source ∈ graph.parents target ↔ graph.Linked source target := by
  simp only [parents, Linked, List.mem_map, List.mem_filter, beq_iff_eq]
  constructor
  · rintro ⟨⟨_, _⟩, ⟨member, rfl⟩, rfl⟩
    exact member
  · exact fun member => ⟨_, ⟨member, rfl⟩, rfl⟩

theorem mem_children_iff {graph : Graph} {source target : NodeIndex} :
    target ∈ graph.children source ↔ graph.Linked source target := by
  simp only [children, Linked, List.mem_reverse, List.mem_map, List.mem_filter, beq_iff_eq]
  constructor
  · rintro ⟨⟨_, _⟩, ⟨member, rfl⟩, rfl⟩
    exact member
  · exact fun member => ⟨_, ⟨member, rfl⟩, rfl⟩

end Graph
end MonthlyForecast
