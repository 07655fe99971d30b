import Mathlib.Algebra.GroupWithZero.Nat
import MonthlyForecast.Graph.Adjacency
import MonthlyForecast.Proofs.Graph.Lists
import MonthlyForecast.Proofs.Outcome

/-! What a graph and the packed forms of its links keep of the lists that they are made
from. Each id has one number, by which it is found again. The blocks lie side by side and
cover the flat list of sources; every chain leads back to older links only and so comes to
an end. Read at a node, a block holds the sources of the edges into it in edge order, and a
chain the targets of the edges out of it in the opposite order. -/
namespace MonthlyForecast

/-- The targets of the edges out of a node, in edge order, repeated if joined twice. -/
def outputIds (edges : List Edge) (id : String) : List String :=
  (edges.filter (·.sourceId == id)).map (·.targetId)

namespace Graph

/-- The nodes of a graph are those of a list: one for each id, in the order in which the
ids first occur, with the node that has the id first; and an id is found by its number. -/
structure Numbers (graph : Graph) (nodes : List Node) : Prop where
  ids : graph.nodes.toList.map (·.id) = (nodes.map (·.id)).eraseDups
  first : ∀ node ∈ graph.nodes, nodes.find? (·.id == node.id) = some node
  index?_iff : ∀ id i, graph.index? id = some i ↔ i < graph.size ∧ graph.idOf i = id

variable {nodes : List Node} {edges : List Edge} {id : String} {i : NodeIndex}

theorem ids_distinctNodes (nodes : List Node) :
    (distinctNodes nodes).map (·.id) = (nodes.map (·.id)).eraseDups := by
  induction nodes using List.reverseRecOn with
  | nil => rfl
  | append_singleton rest last ih =>
    have kept : (distinctNodes rest).any (·.id == last.id) ↔ last.id ∈ rest.map (·.id) := by
      have mem_iff : last.id ∈ (distinctNodes rest).map (·.id) ↔ last.id ∈ rest.map (·.id) :=
        mem_ids_distinctNodes
      simpa [List.mem_map] using mem_iff
    rw [distinctNodes_concat, List.map_append, List.eraseDups_append, ← ih]
    generalize rest.map (·.id) = ids at kept
    by_cases repeated : last.id ∈ ids
    · simp [kept.mpr repeated, List.removeAll, repeated]
    · simp [mt kept.mp repeated, List.removeAll, repeated, List.eraseDups_cons]

/-- The node that stands for an id is the first one that has it. -/
theorem find?_of_mem_distinctNodes {node : Node} (member : node ∈ distinctNodes nodes) :
    nodes.find? (·.id == node.id) = some node := by
  induction nodes using List.reverseRecOn with
  | nil => simp [distinctNodes] at member
  | append_singleton rest last ih =>
    rw [List.find?_append]
    rw [distinctNodes_concat] at member
    split at member
    · rw [ih member, Option.some_or]
    · rename_i fresh
      rcases List.mem_append.mp member with earlier | atEnd
      · rw [ih earlier, Option.some_or]
      · obtain rfl := List.mem_singleton.mp atEnd
        have unknown : node.id ∉ rest.map (·.id) := by
          rw [← mem_ids_distinctNodes]
          simpa [List.mem_map] using fresh
        have none : rest.find? (·.id == node.id) = none := by
          simpa [List.mem_map] using unknown
        simp [none]

theorem numbers_ofLists (nodes : List Node) (edges : List Edge) :
    (ofLists nodes edges).Numbers nodes where
  ids := ids_distinctNodes nodes
  first := fun node member => find?_of_mem_distinctNodes (by simpa [ofLists_nodes] using member)
  index?_iff := by
    intro id i
    constructor
    · exact fun found => ⟨index?_lt found, idOf_index? found⟩
    · rintro ⟨inside, rfl⟩
      exact (ofLists_resolved nodes edges).index?_idOf inside

/-- The links out of a node are the edges out of it that remain, the latest first. -/
theorem forall₂_children (found : (ofLists nodes edges).index? id = some i) :
    List.Forall₂ (fun child target => (ofLists nodes edges).index? target = some child)
      ((ofLists nodes edges).children i) (outputIds (edgesAmong nodes edges) id).reverse := by
  have out := List.rel_filter (p := fun link : Link => link.source == i)
    (q := fun edge : Edge => edge.sourceId == id)
    (fun _ _ ends => by simpa using index?_eq_iff found ends.1) (forall₂_links nodes edges)
  exact List.rel_reverse (List.rel_map (fun _ _ ends => ends.2) out)

end Graph

namespace Adjacency

/-- Blocks that lie side by side from one place up to another. -/
inductive Tiles : Nat → List (Nat × Nat) → Nat → Prop where
  | done {stop : Nat} : Tiles stop [] stop
  | block {start length stop : Nat} {rest : List (Nat × Nat)}
      (behind : Tiles (start + length) rest stop) : Tiles start ((start, length) :: rest) stop

/-- Following the links from a latest one, if there is one, passes these targets and ends. -/
inductive Chain (targets : List NodeIndex) (nextLink : List (Option Nat)) :
    Option Nat → List NodeIndex → Prop where
  | done : Chain targets nextLink none []
  | link {place : Nat} {target : NodeIndex} {next : Option Nat} {rest : List NodeIndex}
      (leads : targets[place]? = some target) (follows : nextLink[place]? = some next)
      (behind : Chain targets nextLink next rest) :
      Chain targets nextLink (some place) (target :: rest)

/-- Both packed forms hold the given edges, whose ends are nodes of the graph. -/
structure Packs (adjacency : Adjacency) (graph : Graph) (edges : List Edge) : Prop where
  sources : ∀ id i, graph.index? id = some i →
    List.Forall₂ (fun parent source => graph.index? source = some parent)
      (adjacency.sourcesOf i) (inputIds edges id)
  targets : ∀ id i, graph.index? id = some i →
    List.Forall₂ (fun child target => graph.index? target = some child)
      (adjacency.targetsOf i) (outputIds edges id).reverse
  /-- Every node has a block, and every place of the flat list is in exactly one. -/
  blockCount : adjacency.ranges.length = graph.size
  tiles : Tiles 0 adjacency.ranges adjacency.sources.length
  covered : (adjacency.ranges.flatMap fun (start, length) => List.range' start length) =
    List.range adjacency.sources.length
  /-- The chain of every node ends and passes what is read from it. -/
  chains : ∀ i < graph.size, ∃ latest, adjacency.firstLink[i]? = some latest ∧
    Chain adjacency.targets adjacency.nextLink latest (adjacency.targetsOf i)
  descends : ∀ place earlier : Nat, adjacency.nextLink[place]? = some (some earlier) →
    earlier < place

variable {adjacency : Adjacency} {targets : List NodeIndex} {nextLink : List (Option Nat)}
  {latest : Option Nat} {passed : List NodeIndex} {start stop : Nat} {ranges : List (Nat × Nat)}

theorem tiles_blocks (start : Nat) (lengths : List Nat) :
    Tiles start (blocks start lengths) (start + lengths.sum) := by
  induction lengths generalizing start with
  | nil => exact .done
  | cons length rest ih =>
    rw [List.sum_cons, ← Nat.add_assoc]
    exact .block (ih (start + length))

theorem length_blocks (start : Nat) (lengths : List Nat) :
    (blocks start lengths).length = lengths.length := by
  induction lengths generalizing start with
  | nil => rfl
  | cons length rest ih => rw [blocks, List.length_cons, List.length_cons, ih]

theorem Tiles.le (tiles : Tiles start ranges stop) : start ≤ stop := by
  induction tiles with
  | done => exact Nat.le_refl _
  | block _ ih => omega

theorem Tiles.places_eq (tiles : Tiles start ranges stop) :
    (ranges.flatMap fun (start, length) => List.range' start length) =
      List.range' start (stop - start) := by
  induction tiles with
  | done => simp
  | @block start length stop rest behind ih =>
    have split : stop - start = length + (stop - (start + length)) := by
      have := behind.le
      omega
    rw [List.flatMap_cons, ih, split, ← List.range'_append_1]

/-- Where lists are laid out one after another, a block holds the list that it is made for. -/
theorem sourcesOf_of_blocks {lists : List (List NodeIndex)} {before : List NodeIndex}
    (ranges : adjacency.ranges = blocks before.length (lists.map (·.length)))
    (sources : adjacency.sources = before ++ lists.flatten) (i : Nat) :
    adjacency.sourcesOf i = lists[i]?.getD [] := by
  induction lists generalizing adjacency before i with
  | nil => simp [sourcesOf, ranges, blocks]
  | cons list rest ih =>
    cases i with
    | zero => simp [sourcesOf, ranges, sources, blocks]
    | succ i =>
      let lengths := rest.map fun list => list.length
      let behind := { adjacency with ranges := blocks (before ++ list).length lengths }
      have laid : behind.sources = (before ++ list) ++ rest.flatten := by simp [behind, sources]
      have further : behind.sourcesOf i = rest[i]?.getD [] := ih rfl laid i
      simpa [sourcesOf, behind, lengths, ranges, blocks] using further

theorem Chain.mono (chain : Chain targets nextLink latest passed) (more : List NodeIndex)
    (others : List (Option Nat)) : Chain (targets ++ more) (nextLink ++ others) latest passed := by
  induction chain with
  | done => exact .done
  | link leads follows _ ih =>
    refine .link ?_ ?_ ih
    · rw [List.getElem?_append_left (List.getElem?_eq_some_iff.mp leads).1, leads]
    · rw [List.getElem?_append_left (List.getElem?_eq_some_iff.mp follows).1, follows]

/-- A chain that ends within the limit is followed to its end. -/
theorem follow_eq_of_chain (chain : Chain adjacency.targets adjacency.nextLink latest passed)
    {fuel : Nat} (enough : passed.length ≤ fuel) : adjacency.follow fuel latest = passed := by
  induction chain generalizing fuel with
  | done => cases fuel <;> rfl
  | @link place target next rest leads follows _ ih =>
    obtain ⟨fuel, rfl⟩ : ∃ less, fuel = less + 1 := ⟨fuel - 1, by simp at enough; omega⟩
    rw [follow, leads, follows, Option.join_some, ih (by simpa using enough)]
    rfl

end Adjacency

/-- What a pass over links has made of those that it has taken in: the sources of each node
in link order, and for each node a chain of its targets in the opposite order. -/
structure LinkPass.Holds (nodeCount : Nat) (links : List Link) (taken : LinkPass) : Prop where
  incoming_eq : taken.incoming = (List.range nodeCount).map fun node =>
    (links.filter (·.target == node)).map (·.source)
  targets_eq : taken.targets = links.map (·.target)
  nextLink_length : taken.nextLink.length = links.length
  firstLink_length : taken.firstLink.length = nodeCount
  chain : ∀ node latest, taken.firstLink[node]? = some latest →
    Adjacency.Chain taken.targets taken.nextLink latest
      ((links.filter (·.source == node)).map (·.target)).reverse
  descends : ∀ place earlier : Nat, taken.nextLink[place]? = some (some earlier) →
    earlier < place

namespace LinkPass.Holds

variable {nodeCount : Nat} {links : List Link} {taken : LinkPass} {link : Link}

theorem start (nodeCount : Nat) : Holds nodeCount [] (.start nodeCount) where
  incoming_eq := by simp [LinkPass.start, List.map_const']
  targets_eq := rfl
  nextLink_length := rfl
  firstLink_length := by simp [LinkPass.start]
  chain := by
    intro node latest found
    simp only [LinkPass.start, List.getElem?_replicate] at found
    split at found
    · cases found
      exact .done
    · contradiction
  descends := by simp [LinkPass.start]

/-- A chain starts at a link that has been taken in. -/
theorem latest_lt (holds : Holds nodeCount links taken) {node latest : Nat}
    (found : taken.firstLink[node]? = some (some latest)) : latest < links.length := by
  have chain := holds.chain node _ found
  generalize ((links.filter (·.source == node)).map (·.target)).reverse = passed at chain
  cases chain with
  | link leads =>
    have := (List.getElem?_eq_some_iff.mp leads).1
    simpa [holds.targets_eq] using this

theorem add (holds : Holds nodeCount links taken) (source : link.source < nodeCount) :
    Holds nodeCount (links ++ [link]) (taken.add link) where
  incoming_eq := by
    apply List.ext_getElem?
    intro node
    simp only [LinkPass.add, holds.incoming_eq, List.getElem?_modify, List.getElem?_map,
      List.filter_append, List.map_append]
    by_cases inside : node < nodeCount
    · by_cases into : link.target = node <;> simp [inside, into]
    · simp [inside]
  targets_eq := by simp [LinkPass.add, holds.targets_eq]
  nextLink_length := by simp [LinkPass.add, holds.nextLink_length]
  firstLink_length := by simp [LinkPass.add, holds.firstLink_length]
  chain := by
    intro node latest found
    simp only [LinkPass.add, List.getElem?_set, holds.firstLink_length, source, if_true] at found ⊢
    split at found
    · -- The source of the link: the new link stands in front of the chain so far.
      rename_i own
      cases found
      obtain ⟨next, former⟩ : ∃ next, taken.firstLink[link.source]? = some next :=
        ⟨_, List.getElem?_eq_getElem (holds.firstLink_length ▸ source)⟩
      have chain := (holds.chain _ _ former).mono [link.target] [next]
      have passed : (((links ++ [link]).filter (·.source == node)).map (·.target)).reverse =
          link.target :: ((links.filter (·.source == link.source)).map (·.target)).reverse := by
        simp [own]
      rw [passed, former, Option.join_some]
      refine .link ?_ ?_ chain
      · simp
      · simp [holds.targets_eq, holds.nextLink_length]
    · rename_i apart
      have passed : (links ++ [link]).filter (·.source == node) =
          links.filter (·.source == node) := by
        simp [apart]
      rw [passed]
      exact (holds.chain node latest found).mono _ _
  descends := by
    intro place earlier found
    simp only [LinkPass.add, List.getElem?_append] at found
    split at found
    · exact holds.descends place earlier found
    · rename_i atEnd
      have last : place = links.length := by
        have := (List.getElem?_eq_some_iff.mp found).1
        simp only [List.length_singleton, holds.nextLink_length] at this atEnd
        omega
      simp only [holds.nextLink_length, last, Nat.sub_self, List.getElem?_cons_zero,
        Option.some.injEq] at found
      exact last ▸ holds.latest_lt (Option.join_eq_some_iff.mp found)

/-- A pass over links of the graph. -/
theorem foldl (inside : ∀ link ∈ links, link.source < nodeCount) :
    Holds nodeCount links (links.foldl LinkPass.add (.start nodeCount)) := by
  apply foldl_invariant fun done taken => Holds nodeCount done taken
  · exact .start nodeCount
  · exact fun done link taken member holds => holds.add (inside link member)

end LinkPass.Holds

namespace Adjacency

variable {graph : Graph} {i : Nat}

theorem holds_links (resolved : graph.Resolved) :
    LinkPass.Holds graph.size graph.links (graph.links.foldl LinkPass.add (.start graph.size)) :=
  .foldl fun _ member => (resolved.links_inside member).1

/-- The blocks read as the sources of the links into a node. -/
theorem sourcesOf_ofGraph (resolved : graph.Resolved) (i : NodeIndex) :
    (ofGraph graph).sourcesOf i = graph.parents i := by
  have read : (ofGraph graph).sourcesOf i =
      (graph.links.foldl LinkPass.add (.start graph.size)).incoming[i]?.getD [] :=
    sourcesOf_of_blocks rfl (List.nil_append _).symm i
  rw [read, (holds_links resolved).incoming_eq]
  by_cases inside : i < graph.size
  · simp [inside, Graph.parents]
  · have none : graph.parents i = [] := List.eq_nil_iff_forall_not_mem.mpr fun source parent =>
      inside (resolved.links_inside (Graph.mem_parents_iff.mp parent)).2
    simp [inside, none]

/-- The chain of a node passes the targets of the links out of it, and ends. -/
theorem chain_ofGraph (resolved : graph.Resolved) (inside : i < graph.size) :
    ∃ latest, (ofGraph graph).firstLink[i]? = some latest ∧
      Chain (ofGraph graph).targets (ofGraph graph).nextLink latest (graph.children i) := by
  have holds := holds_links resolved
  obtain ⟨latest, found⟩ : ∃ latest, (ofGraph graph).firstLink[i]? = some latest :=
    ⟨_, List.getElem?_eq_getElem (Nat.lt_of_lt_of_eq inside holds.firstLink_length.symm)⟩
  exact ⟨latest, found, holds.chain i latest found⟩

theorem targetsOf_ofGraph (resolved : graph.Resolved) (inside : i < graph.size) :
    (ofGraph graph).targetsOf i = graph.children i := by
  obtain ⟨latest, found, chain⟩ := chain_ofGraph resolved inside
  rw [targetsOf, found]
  refine follow_eq_of_chain chain ?_
  have all : (ofGraph graph).targets = graph.links.map (·.target) :=
    (holds_links resolved).targets_eq
  simpa [all, Graph.children] using List.length_filter_le _ graph.links

theorem mem_sourcesOf_iff (resolved : graph.Resolved) {source target : NodeIndex} :
    source ∈ (ofGraph graph).sourcesOf target ↔ graph.Linked source target := by
  rw [sourcesOf_ofGraph resolved, Graph.mem_parents_iff]

theorem mem_targetsOf_iff (resolved : graph.Resolved) {source target : NodeIndex} :
    target ∈ (ofGraph graph).targetsOf source ↔ graph.Linked source target := by
  by_cases inside : source < graph.size
  · rw [targetsOf_ofGraph resolved inside, Graph.mem_children_iff]
  · have nodes : (ofGraph graph).firstLink.length = graph.size :=
      (holds_links resolved).firstLink_length
    have unknown : (ofGraph graph).firstLink[source]? = none := by
      rw [List.getElem?_eq_none_iff, nodes]
      exact Nat.le_of_not_lt inside
    have none : (ofGraph graph).targetsOf source = [] := by
      rw [targetsOf, unknown]
      exact follow_eq_of_chain .done (Nat.zero_le _)
    refine iff_of_false ?_ fun linked => inside (resolved.links_inside linked).1
    simp [none]

theorem tiles_ofGraph (graph : Graph) :
    Tiles 0 (ofGraph graph).ranges (ofGraph graph).sources.length := by
  have tiles := tiles_blocks 0
    ((graph.links.foldl LinkPass.add (.start graph.size)).incoming.map (·.length))
  rwa [Nat.zero_add, ← List.length_flatten] at tiles

theorem ranges_length (resolved : graph.Resolved) :
    (ofGraph graph).ranges.length = graph.size := by
  simp [ofGraph, length_blocks, (holds_links resolved).incoming_eq]

theorem packs_ofLists (nodes : List Node) (edges : List Edge) :
    (ofGraph (Graph.ofLists nodes edges)).Packs (Graph.ofLists nodes edges)
      (edgesAmong nodes edges) := by
  have resolved := Graph.ofLists_resolved nodes edges
  have tiles := tiles_ofGraph (Graph.ofLists nodes edges)
  refine ⟨?_, ?_, ranges_length resolved, tiles, ?_, ?_, (holds_links resolved).descends⟩
  · intro id i found
    rw [sourcesOf_ofGraph resolved]
    exact Graph.forall₂_parents found
  · intro id i found
    rw [targetsOf_ofGraph resolved (Graph.index?_lt found)]
    exact Graph.forall₂_children found
  · rw [tiles.places_eq, Nat.sub_zero, List.range_eq_range']
  · intro i inside
    rw [targetsOf_ofGraph resolved inside]
    exact chain_ofGraph resolved inside

/-- The graph of given lists has one number for each node id, in the order of first
occurrences. The packed forms of its links hold exactly the edges between such ids, with
repetitions and in order, and read as the parents and the children of its nodes. -/
theorem ofLists_faithful (nodes : List Node) (edges : List Edge) :
    let graph := Graph.ofLists nodes edges
    let adjacency := ofGraph graph
    graph.Numbers nodes ∧ adjacency.Packs graph (edgesAmong nodes edges) ∧
      ∀ i < graph.size, adjacency.sourcesOf i = graph.parents i ∧
        adjacency.targetsOf i = graph.children i := by
  intro graph adjacency
  have resolved : graph.Resolved := Graph.ofLists_resolved nodes edges
  exact ⟨Graph.numbers_ofLists nodes edges, packs_ofLists nodes edges, fun i inside =>
    ⟨sourcesOf_ofGraph resolved i, targetsOf_ofGraph resolved inside⟩⟩

end Adjacency
end MonthlyForecast
