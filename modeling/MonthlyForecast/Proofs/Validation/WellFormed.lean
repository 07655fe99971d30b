import MonthlyForecast.Proofs.Graph.Cycles
import MonthlyForecast.Proofs.Validation.Findings

/-! The graphs that validation accepts. Well-formedness is said of the node and edge
lists alone; no search, number or finding occurs in it. A finding of each type means
that its rule is broken, on the lists themselves for ids and edge ends and otherwise on
the lists without repeated nodes and dangling edges. -/
namespace MonthlyForecast.Validation
open Relation

/-- What a graph must keep to be evaluated. -/
structure WellFormed (nodes : List Node) (edges : List Edge) : Prop where
  ids_distinct : IdsDistinct nodes
  ends_named : EndsNamed nodes edges
  has_metric : ∃ node ∈ nodes, IsMetric node
  acyclic : Acyclic (Joined edges)
  inputs_match : ∀ node ∈ nodes, InputsMatch edges node
  input_counts : ∀ node ∈ nodes, InputCountAllowed edges node
  seed_sources : ∀ node ∈ nodes, SourceIsMetric nodes node

/-- What an error of each type says: some part of well-formedness fails, for most types
on the lists without repeated nodes and dangling edges. -/
def Broken (nodes : List Node) (edges : List Edge) : IssueType → Prop
  | .duplicateNode => ¬ IdsDistinct nodes
  | .danglingEdge => ¬ EndsNamed nodes edges
  | .missingMetric => ¬ ∃ node ∈ Graph.distinctNodes nodes, IsMetric node
  | .cycle => ¬ Acyclic (Joined (edgesAmong nodes edges))
  | .operatorInputMismatch =>
      ∃ node ∈ Graph.distinctNodes nodes, ¬ InputsMatch (edgesAmong nodes edges) node
  | .inputArity =>
      ∃ node ∈ Graph.distinctNodes nodes, ¬ InputCountAllowed (edgesAmong nodes edges) node
  | .orphanedSeed =>
      ∃ node ∈ Graph.distinctNodes nodes, ¬ SourceIsMetric (Graph.distinctNodes nodes) node
  | .disconnected => False

variable {nodes : List Node} {edges : List Edge} {node : Node} {type : IssueType} {i : Nat}

theorem exists_attributes_iff :
    (∃ attributes, node.kind = .metric attributes) ↔ IsMetric node := by
  unfold IsMetric
  cases node.kind <;> simp [NodeKind.type]

theorem isMetric_iff {graph : Graph} (place : graph.nodes[i]? = some node) :
    graph.isMetric i ↔ IsMetric node := by
  simp only [Graph.isMetric_iff_kind?, Graph.kind?_of_place place, Option.some.injEq,
    exists_attributes_iff]

theorem SourceIsMetric.mono {others : List Node} (source : SourceIsMetric nodes node)
    (kept : ∀ metric ∈ nodes, IsMetric metric → metric ∈ others) : SourceIsMetric others node := by
  unfold SourceIsMetric at source ⊢
  cases kind : node.kind with
  | seed =>
    simp only [kind] at source ⊢
    obtain ⟨metric, member, named, isMetric⟩ := source
    exact ⟨metric, kept metric member isMetric, named, isMetric⟩
  | data | constant | operator | metric => trivial

theorem metrics_eq_nil_iff :
    (Graph.ofLists nodes edges).metrics = [] ↔
      ¬ ∃ node ∈ Graph.distinctNodes nodes, IsMetric node := by
  simp only [List.eq_nil_iff_forall_not_mem, Graph.mem_metrics_iff]
  constructor
  · rintro none ⟨node, member, metric⟩
    obtain ⟨i, place⟩ := (Graph.mem_distinctNodes_iff_place edges).mp member
    exact none i ((isMetric_iff place).mpr metric)
  · intro none i metric
    obtain ⟨node, place⟩ := Graph.exists_place (Graph.isMetric_lt metric)
    exact none ⟨node, (Graph.mem_distinctNodes_iff_place edges).mpr ⟨i, place⟩,
      (isMetric_iff place).mp metric⟩

theorem errorFound_nodeInputs (place : (Graph.ofLists nodes edges).nodes[i]? = some node) :
    errorFound (nodeInputs (Graph.ofLists nodes edges) i) type ↔
      type = .operatorInputMismatch ∧ ¬ InputsMatch (edgesAmong nodes edges) node ∨
        type = .inputArity ∧ ¬ InputCountAllowed (edgesAmong nodes edges) node := by
  have linked := Graph.map_idOf_parents (Graph.lt_of_place place)
  rw [Graph.idOf_of_place place] at linked
  have count : ((Graph.ofLists nodes edges).parents i).length =
      (inputIds (edgesAmong nodes edges) node.id).length := by
    rw [← linked, List.length_map]
  unfold nodeInputs InputsMatch InputCountAllowed
  simp only [Graph.kind?_of_place place, linked, count]
  cases kind : node.kind with
  | operator operation declared =>
    rw [errorFound_operatorInputs]
    simp
  | metric attributes =>
    simp [errorFound_metricInputs]
  | data | constant | seed =>
    simp [errorFound_leafInputs]

theorem exists_metric_iff (edges : List Edge) {source : String} :
    (∃ metric ∈ Graph.distinctNodes nodes, metric.id = source ∧ IsMetric metric) ↔
      ∃ i, (Graph.ofLists nodes edges).index? source = some i ∧
        (Graph.ofLists nodes edges).isMetric i := by
  constructor
  · rintro ⟨metric, member, rfl, isMetric⟩
    obtain ⟨i, place⟩ := (Graph.mem_distinctNodes_iff_place edges).mp member
    exact ⟨i, (Graph.ofLists_resolved nodes edges).index?_of_place place,
      (isMetric_iff place).mpr isMetric⟩
  · rintro ⟨i, found, isMetric⟩
    obtain ⟨metric, place⟩ := Graph.exists_place (Graph.index?_lt found)
    refine ⟨metric, (Graph.mem_distinctNodes_iff_place edges).mpr ⟨i, place⟩, ?_,
      (isMetric_iff place).mp isMetric⟩
    rw [← Graph.idOf_of_place place, Graph.idOf_index? found]

theorem errorFound_seedSource (place : (Graph.ofLists nodes edges).nodes[i]? = some node) :
    errorFound (seedSource (Graph.ofLists nodes edges) i) type ↔
      type = .orphanedSeed ∧ ¬ SourceIsMetric (Graph.distinctNodes nodes) node := by
  unfold seedSource SourceIsMetric
  simp only [Graph.kind?_of_place place]
  cases kind : node.kind with
  | seed source =>
    simp only [exists_metric_iff edges, Graph.isMetric, Graph.metric?]
    cases found : (Graph.ofLists nodes edges).index? source with
    | none => simp
    | some j =>
      obtain ⟨other, otherPlace⟩ := Graph.exists_place (Graph.index?_lt found)
      simp only [Option.bind_some, Graph.kind?_of_place otherPlace, Option.some.injEq,
        exists_eq_left']
      cases other.kind <;> simp [NodeKind.metric?]
  | data | constant | operator | metric => simp

theorem cycles_ne_nil_iff :
    (Graph.ofLists nodes edges).cycles ≠ [] ↔ ¬ Acyclic (Joined (edgesAmong nodes edges)) := by
  rw [ne_eq, Graph.cycles_eq_nil_iff (Graph.ofLists_resolved nodes edges), not_iff_not]
  simp only [Acyclic, ← not_exists, Graph.exists_cycle_iff]

/-- The rules for single nodes, each applied to every node that is kept. -/
theorem errorFound_nodeRules :
    errorFound ((Graph.ofLists nodes edges).indices.flatMap fun node =>
      nodeInputs (Graph.ofLists nodes edges) node ++ seedSource (Graph.ofLists nodes edges) node)
        type ↔
      ∃ node ∈ Graph.distinctNodes nodes,
        type = .operatorInputMismatch ∧ ¬ InputsMatch (edgesAmong nodes edges) node ∨
        type = .inputArity ∧ ¬ InputCountAllowed (edgesAmong nodes edges) node ∨
        type = .orphanedSeed ∧ ¬ SourceIsMetric (Graph.distinctNodes nodes) node := by
  simp only [errorFound_flatMap, errorFound_append, Graph.indices, List.mem_range]
  constructor
  · rintro ⟨i, inside, found⟩
    obtain ⟨node, place⟩ := Graph.exists_place inside
    rw [errorFound_nodeInputs place, errorFound_seedSource place, or_assoc] at found
    exact ⟨node, (Graph.mem_distinctNodes_iff_place edges).mpr ⟨i, place⟩, found⟩
  · rintro ⟨node, member, broken⟩
    obtain ⟨i, place⟩ := (Graph.mem_distinctNodes_iff_place edges).mp member
    refine ⟨i, Graph.lt_of_place place, ?_⟩
    rw [errorFound_nodeInputs place, errorFound_seedSource place, or_assoc]
    exact broken

theorem errorFound_issues_iff :
    errorFound (issues nodes edges) type ↔ Broken nodes edges type := by
  simp only [issues, errorFound_append, errorFound_repeatedIds, errorFound_danglingEdges,
    errorFound_missingMetric, errorFound_cyclicLinks, errorFound_nodeRules,
    errorFound_disconnectedNodes, metrics_eq_nil_iff, cycles_ne_nil_iff]
  cases type <;> simp [Broken]

theorem isValid_iff_no_error :
    (verdict nodes edges).isValid ↔ ∀ type, ¬ errorFound (issues nodes edges) type := by
  simp only [verdict, Verdict.ofIssues, errorFound, List.isEmpty_iff, List.map_eq_nil_iff,
    List.filter_eq_nil_iff, List.any_eq_true, Bool.and_eq_true, not_exists, not_and, beq_iff_eq]
  exact ⟨fun none _ issue member error _ => none issue member error,
    fun none issue member error => none issue.type issue member error rfl⟩

theorem wellFormed_iff_not_broken :
    WellFormed nodes edges ↔ ∀ type, ¬ Broken nodes edges type := by
  constructor
  · intro wellFormed type
    have kept := Graph.distinctNodes_eq_self wellFormed.ids_distinct
    have among := edgesAmong_eq_self wellFormed.ends_named
    cases type with
    | duplicateNode => exact not_not.mpr wellFormed.ids_distinct
    | danglingEdge => exact not_not.mpr wellFormed.ends_named
    | missingMetric => simpa only [Broken, kept, not_not] using wellFormed.has_metric
    | cycle => simpa only [Broken, among, not_not] using wellFormed.acyclic
    | operatorInputMismatch =>
      simpa only [Broken, kept, among, not_exists, not_and, not_not] using wellFormed.inputs_match
    | inputArity =>
      simpa only [Broken, kept, among, not_exists, not_and, not_not] using wellFormed.input_counts
    | orphanedSeed =>
      simpa only [Broken, kept, not_exists, not_and, not_not] using wellFormed.seed_sources
    | disconnected => exact id
  · intro unbroken
    have distinct : IdsDistinct nodes := not_not.mp (unbroken .duplicateNode)
    have named : EndsNamed nodes edges := not_not.mp (unbroken .danglingEdge)
    have kept := Graph.distinctNodes_eq_self distinct
    have among := edgesAmong_eq_self named
    have metric := unbroken .missingMetric
    have acyclic := unbroken .cycle
    have matching := unbroken .operatorInputMismatch
    have counts := unbroken .inputArity
    have sources := unbroken .orphanedSeed
    simp only [Broken, kept, among] at metric acyclic matching counts sources
    refine ⟨distinct, named, not_not.mp metric, not_not.mp acyclic, ?_, ?_, ?_⟩
    · simpa only [not_exists, not_and, not_not] using matching
    · simpa only [not_exists, not_and, not_not] using counts
    · simpa only [not_exists, not_and, not_not] using sources

/-- Validation accepts exactly the well-formed graphs. -/
theorem isValid_iff_wellFormed : (verdict nodes edges).isValid ↔ WellFormed nodes edges := by
  rw [isValid_iff_no_error, wellFormed_iff_not_broken]
  simp only [errorFound_issues_iff]

/-- The verdict accepts exactly the well-formed graphs, and an error of a type is found
exactly if that part of well-formedness fails. -/
theorem verdict_exact (nodes : List Node) (edges : List Edge) :
    ((verdict nodes edges).isValid ↔ WellFormed nodes edges) ∧
      ∀ type, errorFound (issues nodes edges) type ↔ Broken nodes edges type :=
  ⟨isValid_iff_wellFormed, fun _ => errorFound_issues_iff⟩

end MonthlyForecast.Validation
