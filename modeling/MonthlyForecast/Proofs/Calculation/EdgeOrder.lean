import MonthlyForecast.Proofs.Calculation.Solution

/-! Edge lists with the same ends in another order. A tree takes an operator's inputs in the
declared order and a metric has one input at most, so the order of the links decides
nothing; once the trees are built the links are not looked at again. -/
namespace MonthlyForecast
open Validation MetricTree

/-- The source and the target of an edge. -/
def Edge.ends (edge : Edge) : String × String :=
  (edge.sourceId, edge.targetId)

/-- The same ends in any order, under any ids of edges. -/
def SameEnds (edges others : List Edge) : Prop :=
  (edges.map Edge.ends).Perm (others.map Edge.ends)

/-- A single item has only one order. -/
theorem eq_of_perm_of_length_le_one {α : Type} {items others : List α}
    (arranged : items.Perm others) (short : others.length ≤ 1) : items = others := by
  match others with
  | [] => exact arranged.eq_nil
  | [_] => exact List.perm_singleton.mp arranged

namespace Graph

/-- The same nodes with other links. -/
def withLinks (graph : Graph) (links : List Link) : Graph :=
  { graph with links := links }

variable {graph : Graph} {links : List Link} {root node : NodeIndex}

theorem parents_withLinks (arranged : links.Perm graph.links) (node : NodeIndex) :
    ((graph.withLinks links).parents node).Perm (graph.parents node) :=
  (arranged.filter _).map _

theorem operand_withLinks (arranged : links.Perm graph.links) (operator : NodeIndex)
    (input : String) :
    operand (graph.withLinks links) operator input = operand graph operator input := by
  simp only [operand, (parents_withLinks arranged operator).mem_iff]
  rfl

theorem inputsWithin_withLinks (arranged : links.Perm graph.links)
    (single : ∀ metric, graph.isMetric metric → (graph.parents metric).length ≤ 1)
    (root node : NodeIndex) :
    inputsWithin (graph.withLinks links) root node = inputsWithin graph root node := by
  have kinds : (graph.withLinks links).kind? node = graph.kind? node := rfl
  unfold inputsWithin
  rw [kinds]
  cases kind : graph.kind? node with
  | none => rfl
  | some shape =>
    cases shape with
    | data | constant | seed => rfl
    | operator operation ids =>
      simp only [funext (operand_withLinks arranged node)]
    | metric attributes =>
      have isMetric : graph.isMetric node := isMetric_iff_kind?.mpr ⟨attributes, kind⟩
      simp only [eq_of_perm_of_length_le_one (parents_withLinks arranged node)
        (single node isMetric)]

theorem place_withLinks
    (alike : ∀ node, inputsWithin (graph.withLinks links) root node = inputsWithin graph root node)
    (depth : Nat) (openNodes : List NodeIndex) (node : NodeIndex) (slots : List TreeSlot) :
    place (graph.withLinks links) root depth openNodes node slots =
      place graph root depth openNodes node slots := by
  induction depth generalizing openNodes node slots with
  | zero => rfl
  | succ depth ih =>
    unfold place
    simp only [alike, ih]
    rfl

theorem build_withLinks (arranged : links.Perm graph.links)
    (single : ∀ metric, graph.isMetric metric → (graph.parents metric).length ≤ 1)
    (metric : NodeIndex) : build (graph.withLinks links) metric = build graph metric := by
  have alike := inputsWithin_withLinks arranged single metric
  unfold build
  simp only [place_withLinks alike]
  rfl

theorem schedule_withLinks (arranged : links.Perm graph.links)
    (single : ∀ metric, graph.isMetric metric → (graph.parents metric).length ≤ 1) :
    schedule (graph.withLinks links) = schedule graph := by
  unfold schedule
  rw [funext (build_withLinks arranged single)]
  rfl

end Graph

namespace Model

/-- The same model with other links in its graph. -/
def withLinks (model : Model) (links : List Link) : Model :=
  { model with graph := model.graph.withLinks links }

variable {model : Model} {links : List Link}

theorem runSlots_withLinks (root : NodeIndex) (place : Nat) (month : Date)
    (slots : List TreeSlot) (values : Array (Option Float)) (ledger : Ledger) :
    (model.withLinks links).runSlots root place month slots values ledger =
      model.runSlots root place month slots values ledger := by
  induction slots generalizing values ledger with
  | nil => rfl
  | cons slot rest ih =>
    unfold runSlots
    simp only [ih]
    rfl

/-- A run looks at trees and nodes only. -/
theorem run_withLinks (trees : List MetricTree) (months : List Date) :
    (model.withLinks links).run trees months = model.run trees months := by
  unfold run runMonth runTree
  simp only [runSlots_withLinks]
  rfl

end Model

section Lists

variable {nodes : List Node} {edges others : List Edge} {id source target : String}

theorem SameEnds.joined_iff (same : SameEnds edges others) :
    Joined edges source target ↔ Joined others source target := by
  have joined_iff : ∀ edges, Joined edges source target ↔
      (source, target) ∈ edges.map Edge.ends := by
    intro edges
    simp [Joined, Edge.ends]
  rw [joined_iff, joined_iff, same.mem_iff]

theorem SameEnds.inputIds_perm (same : SameEnds edges others) (id : String) :
    (inputIds edges id).Perm (inputIds others id) := by
  have inputIds_eq : ∀ edges, inputIds edges id =
      ((edges.map Edge.ends).filter (·.2 == id)).map (·.1) := by
    intro edges
    simp only [inputIds, List.filter_map, List.map_map]
    rfl
  rw [inputIds_eq, inputIds_eq]
  exact (same.filter _).map _

theorem SameEnds.links_perm (same : SameEnds edges others) (nodes : List Node) :
    (Graph.ofLists nodes edges).links.Perm (Graph.ofLists nodes others).links := by
  have links_eq : ∀ edges, (Graph.ofLists nodes edges).links =
      (edges.map Edge.ends).filterMap fun ends =>
        Graph.resolve? (Graph.distinctNodes nodes).toArray ⟨"", ends.1, ends.2⟩ := by
    intro edges
    rw [List.filterMap_map]
    rfl
  rw [links_eq, links_eq]
  exact same.filterMap _

theorem SameEnds.endsNamed (same : SameEnds edges others) (named : EndsNamed nodes others) :
    EndsNamed nodes edges := by
  intro edge member
  have listed : edge.ends ∈ others.map Edge.ends :=
    same.mem_iff.mp (List.mem_map_of_mem member)
  obtain ⟨other, among, alike⟩ := List.mem_map.mp listed
  obtain ⟨sources, targets⟩ := Prod.mk.inj alike
  exact sources ▸ targets ▸ named other among

theorem SameEnds.wellFormed (same : SameEnds edges others) (wellFormed : WellFormed nodes others) :
    WellFormed nodes edges where
  ids_distinct := wellFormed.ids_distinct
  ends_named := same.endsNamed wellFormed.ends_named
  has_metric := wellFormed.has_metric
  acyclic := by
    have alike : Joined edges = Joined others := by
      funext source target
      exact propext same.joined_iff
    exact alike ▸ wellFormed.acyclic
  inputs_match := by
    intro node member
    have matching := wellFormed.inputs_match node member
    have arranged := same.inputIds_perm node.id
    unfold InputsMatch at matching ⊢
    cases kind : node.kind with
    | operator =>
      simp only [kind] at matching ⊢
      exact ⟨matching.1, matching.2.trans arranged.symm⟩
    | data | constant | metric | seed => trivial
  input_counts := by
    intro node member
    have counted := wellFormed.input_counts node member
    have arranged := same.inputIds_perm node.id
    have empty_iff : inputIds edges node.id = [] ↔ inputIds others node.id = [] := by
      rw [← List.length_eq_zero_iff, arranged.length_eq, List.length_eq_zero_iff]
    unfold InputCountAllowed at counted ⊢
    simpa only [ne_eq, empty_iff, arranged.length_eq] using counted
  seed_sources := wellFormed.seed_sources

end Lists

namespace Request

variable {request : Request} {policy : Policy} {moment : Timestamp} {edges : List Edge}

theorem parents_le_one (wellFormed : WellFormed request.nodes request.edges) (metric : NodeIndex)
    (isMetric : (request.model policy).graph.isMetric metric) :
    ((request.model policy).graph.parents metric).length ≤ 1 := by
  obtain ⟨attributes, shape⟩ := Graph.isMetric_iff_kind?.mp isMetric
  obtain ⟨node, place, kind⟩ := Graph.exists_place_of_kind? shape
  have counted := wellFormed.input_counts node (wellFormed.mem_iff_place.mpr ⟨metric, place⟩)
  rw [InputCountAllowed, kind,
    ← wellFormed.map_idOf_parents (WellFormed.index?_of_place place), List.length_map] at counted
  exact counted

/-- The order of the edges and their ids do not matter for a calculation. -/
theorem report_sameEnds (policy : Policy) (request : Request) (moment : Timestamp)
    (edges : List Edge) (valid : (verdict request.nodes request.edges).isValid)
    (same : SameEnds edges request.edges) :
    { request with edges := edges }.report policy moment = request.report policy moment := by
  have wellFormed := isValid_iff_wellFormed.mp valid
  by_cases ordered : request.endDate.MonthBefore request.startDate
  · have given := report_of_reversed policy moment ordered
    have rearranged : { request with edges := edges }.report policy moment = _ :=
      report_of_reversed policy moment ordered
    rw [given, rearranged]
  · have scheduled : schedule ((request.model policy).withLinks
        (Graph.ofLists request.nodes edges).links).graph =
          schedule (request.model policy).graph :=
      Graph.schedule_withLinks (same.links_perm request.nodes) (parents_le_one wellFormed)
    have given := report_of_wellFormed policy moment ordered wellFormed
    have rearranged : { request with edges := edges }.report policy moment = _ :=
      report_of_wellFormed policy moment ordered (same.wellFormed wellFormed)
    have model_eq : { request with edges := edges }.model policy =
        (request.model policy).withLinks (Graph.ofLists request.nodes edges).links := rfl
    rw [given, rearranged, model_eq, scheduled]
    simp only [Model.run_withLinks]
    rfl

/-- The edges of the request that grows, in another order and under other ids. -/
def growthEdges : List Edge :=
  [⟨"a", "product", "share"⟩, ⟨"a", "total", "product"⟩, ⟨"b", "rate", "product"⟩,
    ⟨"c", "sum", "total"⟩, ⟨"", "rate", "sum"⟩, ⟨"", "last", "sum"⟩]

theorem report_sameEnds_growth :
    (verdict growthRequest.nodes growthRequest.edges).isValid ∧
      SameEnds growthEdges growthRequest.edges ∧
      { growthRequest with edges := growthEdges }.report growthPolicy growthMoment =
        growthRequest.report growthPolicy growthMoment := by
  have valid : (verdict growthRequest.nodes growthRequest.edges).isValid := by
    decide +kernel
  have same : SameEnds growthEdges growthRequest.edges := by
    unfold SameEnds
    decide
  exact ⟨valid, same,
    report_sameEnds growthPolicy growthRequest growthMoment growthEdges valid same⟩

end Request
end MonthlyForecast
