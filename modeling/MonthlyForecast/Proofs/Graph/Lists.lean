import Mathlib.Data.List.Induction
import Mathlib.Data.List.Nodup
import Mathlib.Logic.Relation
import MonthlyForecast.Graph.Basic

/-! What a graph keeps of the lists that it is made from. The nodes are the given ones
without repeated ids, the links are the edges between such nodes, and ids and numbers
translate into each other. Paths of edges and paths of links therefore agree. -/
namespace MonthlyForecast

/-- Some edge leads from the one id to the other. -/
def Joined (edges : List Edge) (source target : String) : Prop :=
  ∃ edge ∈ edges, edge.sourceId = source ∧ edge.targetId = target

/-- The sources of the edges into a node, in edge order, repeated if joined twice. -/
def inputIds (edges : List Edge) (id : String) : List String :=
  (edges.filter (·.targetId == id)).map (·.sourceId)

/-- The edges whose two ends are ids of nodes. -/
def edgesAmong (nodes : List Node) (edges : List Edge) : List Edge :=
  edges.filter fun edge =>
    nodes.any (·.id == edge.sourceId) && nodes.any (·.id == edge.targetId)

variable {nodes : List Node} {edges : List Edge} {node : Node} {id source target : String}

theorem mem_inputIds_iff : source ∈ inputIds edges target ↔ Joined edges source target := by
  simp only [inputIds, Joined, List.mem_map, List.mem_filter, beq_iff_eq]
  constructor
  · rintro ⟨edge, ⟨member, into⟩, out⟩
    exact ⟨edge, member, out, into⟩
  · rintro ⟨edge, member, out, into⟩
    exact ⟨edge, ⟨member, into⟩, out⟩

theorem mem_edgesAmong_iff {edge : Edge} :
    edge ∈ edgesAmong nodes edges ↔
      edge ∈ edges ∧ edge.sourceId ∈ nodes.map (·.id) ∧ edge.targetId ∈ nodes.map (·.id) := by
  simp [edgesAmong, List.mem_filter, List.mem_map]

theorem edgesAmong_eq_self (named : ∀ edge ∈ edges,
    edge.sourceId ∈ nodes.map (·.id) ∧ edge.targetId ∈ nodes.map (·.id)) :
    edgesAmong nodes edges = edges := by
  apply List.filter_eq_self.mpr
  intro edge member
  have := named edge member
  simpa [List.mem_map] using this

namespace Graph

theorem distinctNodes_concat (nodes : List Node) (node : Node) :
    distinctNodes (nodes ++ [node]) =
      if (distinctNodes nodes).any (·.id == node.id) then distinctNodes nodes
      else distinctNodes nodes ++ [node] := by
  simp only [distinctNodes, List.foldl_append, List.foldl_cons, List.foldl_nil]
  rfl

theorem mem_of_mem_distinctNodes (member : node ∈ distinctNodes nodes) : node ∈ nodes := by
  induction nodes using List.reverseRecOn with
  | nil => simp [distinctNodes] at member
  | append_singleton rest last ih =>
    rw [distinctNodes_concat] at member
    split at member
    · exact List.mem_append_left _ (ih member)
    · rcases List.mem_append.mp member with member | member
      · exact List.mem_append_left _ (ih member)
      · exact List.mem_append_right _ member

theorem distinctNodes_ids_nodup (nodes : List Node) :
    ((distinctNodes nodes).map (·.id)).Nodup := by
  induction nodes using List.reverseRecOn with
  | nil => simp [distinctNodes]
  | append_singleton rest last ih =>
    rw [distinctNodes_concat]
    split
    · exact ih
    · rename_i fresh
      rw [List.map_append, List.nodup_append]
      refine ⟨ih, by simp, ?_⟩
      rintro id member _ last rfl
      simp only [List.map_cons, List.map_nil, List.mem_singleton] at last
      obtain ⟨node, kept, rfl⟩ := List.mem_map.mp member
      exact fresh (List.any_eq_true.mpr ⟨node, kept, by simp [last]⟩)

theorem mem_ids_distinctNodes :
    id ∈ (distinctNodes nodes).map (·.id) ↔ id ∈ nodes.map (·.id) := by
  induction nodes using List.reverseRecOn with
  | nil => simp [distinctNodes]
  | append_singleton rest last ih =>
    rw [distinctNodes_concat]
    split
    · rename_i kept
      obtain ⟨node, member, same⟩ := List.any_eq_true.mp kept
      have lastKept : last.id ∈ rest.map (·.id) :=
        List.mem_map.mpr ⟨node, mem_of_mem_distinctNodes member, beq_iff_eq.mp same⟩
      rw [ih, List.map_append, List.mem_append]
      constructor
      · exact Or.inl
      · rintro (member | member)
        · exact member
        · exact List.mem_singleton.mp member ▸ lastKept
    · simp only [List.map_append, List.mem_append, ih]

theorem distinctNodes_eq_self (distinct : (nodes.map (·.id)).Nodup) :
    distinctNodes nodes = nodes := by
  induction nodes using List.reverseRecOn with
  | nil => rfl
  | append_singleton rest last ih =>
    rw [List.map_append, List.nodup_append] at distinct
    obtain ⟨restDistinct, _, apart⟩ := distinct
    rw [distinctNodes_concat, ih restDistinct, if_neg]
    intro kept
    obtain ⟨node, member, same⟩ := List.any_eq_true.mp kept
    exact apart _ (List.mem_map_of_mem member) _ (by simp) (beq_iff_eq.mp same)

/-- Ids name one node each and links join nodes. -/
structure Resolved (graph : Graph) : Prop where
  ids_distinct : (graph.nodes.toList.map (·.id)).Nodup
  links_inside : ∀ {source target}, graph.Linked source target →
    source < graph.size ∧ target < graph.size

variable {graph : Graph} {i j : Nat} {kind : NodeKind}

theorem index?_eq_some_iff :
    graph.index? id = some i ↔ i < graph.size ∧ graph.idOf i = id ∧
      ∀ j < i, graph.idOf j ≠ id := by
  simp only [index?, indexIn?, Array.findIdx?_eq_some_iff_getElem, idOf, size]
  constructor
  · rintro ⟨inside, same, first⟩
    refine ⟨inside, by simpa [inside] using same, ?_⟩
    intro j before
    have inside' : j < graph.nodes.size := by omega
    simpa [inside'] using first j before
  · rintro ⟨inside, same, first⟩
    refine ⟨inside, by simpa [inside] using same, ?_⟩
    intro j before
    have inside' : j < graph.nodes.size := by omega
    simpa [inside'] using first j before

theorem index?_lt (found : graph.index? id = some i) : i < graph.size :=
  (index?_eq_some_iff.mp found).1

theorem idOf_index? (found : graph.index? id = some i) : graph.idOf i = id :=
  (index?_eq_some_iff.mp found).2.1

theorem Resolved.idOf_injective (resolved : graph.Resolved) (inside : i < graph.size)
    (inside' : j < graph.size) (same : graph.idOf i = graph.idOf j) : i = j := by
  have distinct := resolved.ids_distinct
  simp only [size] at inside inside'
  simp only [idOf, Array.getElem?_eq_getElem inside, Array.getElem?_eq_getElem inside',
    Option.map_some, Option.getD_some] at same
  have bound : i < (graph.nodes.toList.map (·.id)).length := by simpa using inside
  have bound' : j < (graph.nodes.toList.map (·.id)).length := by simpa using inside'
  have equal : (graph.nodes.toList.map (·.id))[i] = (graph.nodes.toList.map (·.id))[j] := by
    simpa using same
  exact distinct.getElem_inj_iff.mp equal

/-- Different nodes have different ids. -/
theorem Resolved.nodup_map_idOf {indices : List NodeIndex} (resolved : graph.Resolved)
    (distinct : indices.Nodup) (inside : ∀ i ∈ indices, i < graph.size) :
    (indices.map graph.idOf).Nodup :=
  distinct.map_on fun i member j member' same =>
    resolved.idOf_injective (inside i member) (inside j member') same

theorem Resolved.index?_idOf (resolved : graph.Resolved) (inside : i < graph.size) :
    graph.index? (graph.idOf i) = some i := by
  refine index?_eq_some_iff.mpr ⟨inside, rfl, ?_⟩
  intro j before same
  have := resolved.idOf_injective (by omega) inside same
  omega

theorem lt_of_kind? (found : graph.kind? i = some kind) : i < graph.size := by
  obtain ⟨node, place, _⟩ := Option.map_eq_some_iff.mp found
  exact (Array.getElem?_eq_some_iff.mp place).1

theorem isMetric_iff_kind? :
    graph.isMetric i ↔ ∃ attributes, graph.kind? i = some (.metric attributes) := by
  unfold isMetric metric?
  cases graph.kind? i with
  | none => simp
  | some kind => cases kind <;> simp [NodeKind.metric?]

theorem isMetric_lt (metric : graph.isMetric i) : i < graph.size :=
  have ⟨_, found⟩ := isMetric_iff_kind?.mp metric
  lt_of_kind? found

theorem mem_metrics_iff : i ∈ graph.metrics ↔ graph.isMetric i := by
  simp only [metrics, indices, List.mem_filter, List.mem_range, and_iff_right_iff_imp]
  exact isMetric_lt

theorem metrics_sorted (graph : Graph) : graph.metrics.Pairwise (· < ·) :=
  List.pairwise_lt_range.filter _

theorem metrics_nodup (graph : Graph) : graph.metrics.Nodup :=
  graph.metrics_sorted.imp Nat.ne_of_lt

/-! A node at its place gives the graph's answers for that place. -/

theorem exists_place (inside : i < graph.size) : ∃ node, graph.nodes[i]? = some node :=
  ⟨graph.nodes[i], Array.getElem?_eq_getElem inside⟩

theorem lt_of_place (place : graph.nodes[i]? = some node) : i < graph.size :=
  (Array.getElem?_eq_some_iff.mp place).1

theorem kind?_of_place (place : graph.nodes[i]? = some node) :
    graph.kind? i = some node.kind := by
  simp only [kind?, place, Option.map_some]

theorem idOf_of_place (place : graph.nodes[i]? = some node) : graph.idOf i = node.id := by
  simp only [idOf, place, Option.map_some, Option.getD_some]

theorem Resolved.index?_of_place (resolved : graph.Resolved)
    (place : graph.nodes[i]? = some node) : graph.index? node.id = some i :=
  idOf_of_place place ▸ resolved.index?_idOf (lt_of_place place)

theorem exists_place_of_kind? (found : graph.kind? i = some kind) :
    ∃ node, graph.nodes[i]? = some node ∧ node.kind = kind :=
  Option.map_eq_some_iff.mp found

/-! The graph of given lists. -/

theorem ofLists_nodes : (ofLists nodes edges).nodes = (distinctNodes nodes).toArray := rfl

theorem mem_distinctNodes_iff_place (edges : List Edge) :
    node ∈ distinctNodes nodes ↔ ∃ i : Nat, (ofLists nodes edges).nodes[i]? = some node := by
  simp only [ofLists_nodes, List.getElem?_toArray, List.mem_iff_getElem?]

theorem resolve?_eq_some_iff {edge : Edge} {link : Link} :
    resolve? graph.nodes edge = some link ↔
      graph.index? edge.sourceId = some link.source ∧
        graph.index? edge.targetId = some link.target := by
  simp only [resolve?, index?, Option.bind_eq_bind, Option.bind_eq_some_iff, Option.some.injEq]
  constructor
  · rintro ⟨source, sourceAt, target, targetAt, rfl⟩
    exact ⟨sourceAt, targetAt⟩
  · rintro ⟨sourceAt, targetAt⟩
    exact ⟨_, sourceAt, _, targetAt, rfl⟩

theorem ofLists_resolved (nodes : List Node) (edges : List Edge) :
    (ofLists nodes edges).Resolved := by
  refine ⟨distinctNodes_ids_nodup nodes, ?_⟩
  intro source target linked
  obtain ⟨edge, _, resolved⟩ := List.mem_filterMap.mp linked
  have resolved : resolve? (ofLists nodes edges).nodes edge = some ⟨source, target⟩ := resolved
  obtain ⟨sourceAt, targetAt⟩ := resolve?_eq_some_iff.mp resolved
  exact ⟨index?_lt sourceAt, index?_lt targetAt⟩

theorem index?_ofLists_isSome_iff :
    ((ofLists nodes edges).index? id).isSome ↔ id ∈ nodes.map (·.id) := by
  rw [← mem_ids_distinctNodes]
  simp only [index?, indexIn?, ofLists_nodes, List.findIdx?_toArray, List.findIdx?_isSome,
    List.any_eq_true, List.mem_map, beq_iff_eq]

theorem exists_index? (edges : List Edge) (named : id ∈ nodes.map (·.id)) :
    ∃ i, (ofLists nodes edges).index? id = some i :=
  Option.isSome_iff_exists.mp (index?_ofLists_isSome_iff.mpr named)

theorem idOf_mem_ids (inside : i < (ofLists nodes edges).size) :
    (ofLists nodes edges).idOf i ∈ nodes.map (·.id) :=
  index?_ofLists_isSome_iff.mp <| Option.isSome_iff_exists.mpr
    ⟨i, (ofLists_resolved nodes edges).index?_idOf inside⟩

/-- The links are the edges that remain, in their order, with the ends numbered. -/
theorem forall₂_links (nodes : List Node) (edges : List Edge) :
    List.Forall₂ (fun link edge => (ofLists nodes edges).index? edge.sourceId = some link.source ∧
        (ofLists nodes edges).index? edge.targetId = some link.target)
      (ofLists nodes edges).links (edgesAmong nodes edges) := by
  have given : ∀ given : List Edge, List.Forall₂
      (fun link edge => (ofLists nodes edges).index? edge.sourceId = some link.source ∧
        (ofLists nodes edges).index? edge.targetId = some link.target)
      (given.filterMap (resolve? (ofLists nodes edges).nodes)) (edgesAmong nodes given) := by
    intro given
    induction given with
    | nil => exact .nil
    | cons edge rest ih =>
      cases found : resolve? (ofLists nodes edges).nodes edge with
      | none =>
        have dropped : edge ∉ edgesAmong nodes [edge] := by
          intro kept
          obtain ⟨_, sourceNamed, targetNamed⟩ := mem_edgesAmong_iff.mp kept
          obtain ⟨source, sourceAt⟩ := exists_index? edges sourceNamed
          obtain ⟨target, targetAt⟩ := exists_index? edges targetNamed
          have kept : resolve? (ofLists nodes edges).nodes edge = some ⟨source, target⟩ :=
            resolve?_eq_some_iff.mpr ⟨sourceAt, targetAt⟩
          rw [found] at kept
          contradiction
        have alike : edgesAmong nodes (edge :: rest) = edgesAmong nodes rest := by
          apply List.filter_cons_of_neg
          simpa [edgesAmong] using dropped
        rw [List.filterMap_cons_none found, alike]
        exact ih
      | some link =>
        have ends := resolve?_eq_some_iff.mp found
        have alike : edgesAmong nodes (edge :: rest) = edge :: edgesAmong nodes rest := by
          apply List.filter_cons_of_pos
          have sourceNamed := index?_ofLists_isSome_iff.mp (Option.isSome_of_eq_some ends.1)
          have targetNamed := index?_ofLists_isSome_iff.mp (Option.isSome_of_eq_some ends.2)
          simpa [List.mem_map] using And.intro sourceNamed targetNamed
        rw [List.filterMap_cons_some found, alike]
        exact .cons ends ih
  exact given edges

theorem index?_eq_iff (found : (ofLists nodes edges).index? id = some i)
    (found' : (ofLists nodes edges).index? target = some j) : j = i ↔ target = id := by
  constructor
  · rintro rfl
    exact (idOf_index? found').symm.trans (idOf_index? found)
  · rintro rfl
    exact Option.some.inj (found'.symm.trans found)

/-- The links into a node are the edges into it that remain, in their order. -/
theorem forall₂_parents (found : (ofLists nodes edges).index? id = some j) :
    List.Forall₂ (fun parent source => (ofLists nodes edges).index? source = some parent)
      ((ofLists nodes edges).parents j) (inputIds (edgesAmong nodes edges) id) := by
  have into := List.rel_filter (p := fun link : Link => link.target == j)
    (q := fun edge : Edge => edge.targetId == id)
    (fun _ _ ends => by simpa using index?_eq_iff found ends.2) (forall₂_links nodes edges)
  exact List.rel_map (fun _ _ ends => ends.1) into

theorem map_idOf_parents (inside : j < (ofLists nodes edges).size) :
    ((ofLists nodes edges).parents j).map (ofLists nodes edges).idOf =
      inputIds (edgesAmong nodes edges) ((ofLists nodes edges).idOf j) := by
  have sources := forall₂_parents ((ofLists_resolved nodes edges).index?_idOf inside)
  rw [← List.forall₂_eq_eq_eq, List.forall₂_map_left_iff]
  exact sources.imp fun _ _ found => idOf_index? found

theorem linked_ofLists_iff (sourceInside : i < (ofLists nodes edges).size)
    (targetInside : j < (ofLists nodes edges).size) :
    (ofLists nodes edges).Linked i j ↔
      Joined (edgesAmong nodes edges) ((ofLists nodes edges).idOf i)
        ((ofLists nodes edges).idOf j) := by
  rw [← mem_inputIds_iff, ← map_idOf_parents targetInside, ← mem_parents_iff, List.mem_map]
  constructor
  · exact fun parent => ⟨i, parent, rfl⟩
  · rintro ⟨parent, member, same⟩
    have resolved := ofLists_resolved nodes edges
    have parentInside := (resolved.links_inside (mem_parents_iff.mp member)).1
    exact resolved.idOf_injective parentInside sourceInside same ▸ member

/-! Paths of edges are paths of links. -/

theorem joined_of_linked (linked : (ofLists nodes edges).Linked i j) :
    Joined (edgesAmong nodes edges) ((ofLists nodes edges).idOf i)
      ((ofLists nodes edges).idOf j) :=
  have ⟨sourceInside, targetInside⟩ := (ofLists_resolved nodes edges).links_inside linked
  (linked_ofLists_iff sourceInside targetInside).mp linked

theorem exists_linked (joined : Joined (edgesAmong nodes edges) source target) :
    ∃ i j, (ofLists nodes edges).index? source = some i ∧
      (ofLists nodes edges).index? target = some j ∧ (ofLists nodes edges).Linked i j := by
  obtain ⟨edge, member, rfl, rfl⟩ := joined
  obtain ⟨_, sourceNamed, targetNamed⟩ := mem_edgesAmong_iff.mp member
  obtain ⟨i, sourceAt⟩ := exists_index? edges sourceNamed
  obtain ⟨j, targetAt⟩ := exists_index? edges targetNamed
  refine ⟨i, j, sourceAt, targetAt, ?_⟩
  rw [linked_ofLists_iff (index?_lt sourceAt) (index?_lt targetAt), idOf_index? sourceAt,
    idOf_index? targetAt]
  exact ⟨edge, member, rfl, rfl⟩

open Relation

theorem transGen_joined_iff (sourceAt : (ofLists nodes edges).index? source = some i)
    (targetAt : (ofLists nodes edges).index? target = some j) :
    TransGen (Joined (edgesAmong nodes edges)) source target ↔
      TransGen (ofLists nodes edges).Linked i j := by
  constructor
  · intro path
    induction path generalizing j with
    | single joined =>
      obtain ⟨i', j', sourceAt', targetAt', linked⟩ := exists_linked joined
      cases sourceAt.symm.trans sourceAt'
      cases targetAt.symm.trans targetAt'
      exact .single linked
    | tail _ joined ih =>
      obtain ⟨k, j', middleAt, targetAt', linked⟩ := exists_linked joined
      cases targetAt.symm.trans targetAt'
      exact (ih middleAt).tail linked
  · intro path
    rw [← idOf_index? sourceAt, ← idOf_index? targetAt]
    exact path.lift (ofLists nodes edges).idOf fun _ _ => joined_of_linked

theorem reflTransGen_joined_iff (sourceAt : (ofLists nodes edges).index? source = some i)
    (targetAt : (ofLists nodes edges).index? target = some j) :
    ReflTransGen (Joined (edgesAmong nodes edges)) source target ↔
      ReflTransGen (ofLists nodes edges).Linked i j := by
  have same : target = source ↔ j = i := by
    constructor
    · rintro rfl
      exact Option.some.inj (targetAt.symm.trans sourceAt)
    · rintro rfl
      rw [← idOf_index? sourceAt, idOf_index? targetAt]
  rw [reflTransGen_iff_eq_or_transGen, reflTransGen_iff_eq_or_transGen, same,
    transGen_joined_iff sourceAt targetAt]

/-- Edges form a cycle exactly if links do. -/
theorem exists_cycle_iff :
    (∃ id, TransGen (Joined (edgesAmong nodes edges)) id id) ↔
      ∃ i, TransGen (ofLists nodes edges).Linked i i := by
  constructor
  · rintro ⟨id, path⟩
    obtain ⟨_, joined, _⟩ := TransGen.head'_iff.mp path
    obtain ⟨i, _, place, _, _⟩ := exists_linked joined
    exact ⟨i, (transGen_joined_iff place place).mp path⟩
  · rintro ⟨i, path⟩
    exact ⟨_, path.lift (ofLists nodes edges).idOf fun _ _ => joined_of_linked⟩

end Graph
end MonthlyForecast
