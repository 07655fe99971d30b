import Mathlib.Data.List.Perm.Basic
import Mathlib.Data.List.Perm.Subperm
import MonthlyForecast.Proofs.Graph.Lists
import MonthlyForecast.Validation.Rules

/-! When each rule of validation finds an error. A rule finds errors of its own types
only, so what the findings say of one type does not depend on the other rules. Nothing
is said about the wording of a finding. -/
namespace MonthlyForecast.Validation

/-- No id belongs to two places of the list. -/
def IdsDistinct (nodes : List Node) : Prop :=
  (nodes.map (·.id)).Nodup

def EndsNamed (nodes : List Node) (edges : List Edge) : Prop :=
  ∀ edge ∈ edges, edge.sourceId ∈ nodes.map (·.id) ∧ edge.targetId ∈ nodes.map (·.id)

def IsMetric (node : Node) : Prop :=
  node.kind.type = .metric

/-- An operator declares the sources of its incoming edges, each once and in some order. -/
def InputsMatch (edges : List Edge) (node : Node) : Prop :=
  match node.kind with
  | .operator _ declared => declared.Nodup ∧ declared.Perm (inputIds edges node.id)
  | _ => True

/-- An operator has an input, a metric at most one and every other node none. -/
def InputCountAllowed (edges : List Edge) (node : Node) : Prop :=
  match node.kind with
  | .operator .. => inputIds edges node.id ≠ []
  | .metric _ => (inputIds edges node.id).length ≤ 1
  | _ => inputIds edges node.id = []

/-- The source of a seed is the id of a metric. -/
def SourceIsMetric (nodes : List Node) (node : Node) : Prop :=
  match node.kind with
  | .seed source => ∃ metric ∈ nodes, metric.id = source ∧ IsMetric metric
  | _ => True

theorem errorFound_append (first second : List Issue) (type : IssueType) :
    errorFound (first ++ second) type ↔ errorFound first type ∨ errorFound second type := by
  simp only [errorFound, List.any_append, Bool.or_eq_true]

theorem errorFound_flatMap {α : Type} (items : List α) (rule : α → List Issue)
    (type : IssueType) :
    errorFound (items.flatMap rule) type ↔ ∃ item ∈ items, errorFound (rule item) type := by
  simp only [errorFound, List.any_flatMap, List.any_eq_true]

variable {nodes : List Node} {edges : List Edge} {type : IssueType}

@[simp] theorem errorFound_nil : ¬ errorFound [] type = true := by
  simp [errorFound]

@[simp] theorem errorFound_cons_error (id : Option String) (found : IssueType) (message : String)
    (rest : List Issue) :
    errorFound (.error id found message :: rest) type ↔ type = found ∨ errorFound rest type := by
  simp only [errorFound, List.any_cons, Issue.error, beq_self_eq_true, Bool.true_and,
    Bool.or_eq_true, beq_iff_eq, eq_comm (a := found)]

@[simp] theorem errorFound_cons_warning (id : Option String) (found : IssueType)
    (message : String) (rest : List Issue) :
    errorFound (.warning id found message :: rest) type ↔ errorFound rest type := by
  simp [errorFound, Issue.warning]

theorem errorFound_missingMetric (graph : Graph) :
    errorFound (missingMetric graph) type ↔ type = .missingMetric ∧ graph.metrics = [] := by
  unfold missingMetric
  cases graph.metrics <;> simp

theorem errorFound_cyclicLinks (graph : Graph) :
    errorFound (cyclicLinks graph) type ↔ type = .cycle ∧ graph.cycles ≠ [] := by
  unfold cyclicLinks
  induction graph.cycles with
  | nil => simp
  | cons cycle rest ih =>
    rw [List.map_cons, errorFound_cons_error, ih]
    simp only [ne_eq, reduceCtorEq, not_false_eq_true, and_true, or_iff_left_iff_imp]
    exact And.left

theorem errorFound_disconnectedNodes (graph : Graph) :
    ¬ errorFound (disconnectedNodes graph) type := by
  unfold disconnectedNodes
  split
  · simp
  · simp [errorFound, Issue.warning]

theorem errorFound_leafInputs (id : String) (nodeType : NodeType) (count : Nat) :
    errorFound (leafInputs id nodeType count) type ↔ type = .inputArity ∧ count ≠ 0 := by
  unfold leafInputs
  split <;> simp_all

theorem errorFound_metricInputs (id label : String) (count : Nat) :
    errorFound (metricInputs id label count) type ↔ type = .inputArity ∧ ¬ count ≤ 1 := by
  unfold metricInputs
  split
  · simp
  · simp
  · rename_i notNone notOne
    have notNone : count ≠ 0 := notNone
    have notOne : count ≠ 1 := notOne
    have many : ¬ count ≤ 1 := by omega
    simp [many]

theorem mem_sortedTexts {text : String} {texts : List String} :
    text ∈ sortedTexts texts ↔ text ∈ texts := by
  rw [sortedTexts, List.mem_mergeSort, List.mem_eraseDups]

theorem sortedTexts_isEmpty_iff {texts : List String} :
    (sortedTexts texts).isEmpty ↔ texts = [] := by
  simp only [List.isEmpty_iff, List.eq_nil_iff_forall_not_mem, mem_sortedTexts]

/-- No text of the first list is missing from the second. -/
theorem missing_isEmpty_iff {texts others : List String} :
    (sortedTexts (texts.filter (· ∉ others))).isEmpty ↔ texts ⊆ others := by
  rw [sortedTexts_isEmpty_iff, List.filter_eq_nil_iff]
  simp only [decide_eq_true_eq, not_not]
  rfl

theorem perm_of_nodup_subset {texts others : List String} (distinct : texts.Nodup)
    (othersDistinct : others.Nodup) (within : texts ⊆ others) (back : others ⊆ texts) :
    texts.Perm others :=
  (List.perm_ext_iff_of_nodup distinct othersDistinct).mpr
    fun _ => ⟨fun member => within member, fun member => back member⟩

theorem errorFound_operatorInputs (id : String) (operation : Operation)
    (declared linked : List String) :
    errorFound (operatorInputs id operation declared linked) type ↔
      type = .operatorInputMismatch ∧ ¬ (declared.Nodup ∧ declared.Perm linked) ∨
        type = .inputArity ∧ linked = [] := by
  have agreement : declared.Nodup ∧ declared.Perm linked ↔
      declared.Nodup ∧ linked.Nodup ∧ declared ⊆ linked ∧ linked ⊆ declared := by
    constructor
    · rintro ⟨distinct, alike⟩
      exact ⟨distinct, alike.nodup distinct, alike.subset, alike.symm.subset⟩
    · rintro ⟨distinct, linkedDistinct, within, back⟩
      exact ⟨distinct, perm_of_nodup_subset distinct linkedDistinct within back⟩
  unfold operatorInputs
  rw [errorFound_append, agreement]
  apply or_congr
  · simp only [errorFound_append, Bool.and_eq_true, missing_isEmpty_iff]
    by_cases distinct : declared.Nodup <;> by_cases linkedDistinct : linked.Nodup <;>
      by_cases same : declared ⊆ linked ∧ linked ⊆ declared <;>
      simp [distinct, linkedDistinct, same]
  · match linked with
    | [] => simp
    | [_] => simp
    | _ :: _ :: _ => simp

theorem errorFound_danglingEdges :
    errorFound (danglingEdges nodes edges) type ↔
      type = .danglingEdge ∧ ¬ EndsNamed nodes edges := by
  unfold danglingEdges
  rw [errorFound_flatMap]
  refine Iff.trans (b := ∃ edge ∈ edges, type = .danglingEdge ∧
    ¬ (edge.sourceId ∈ nodes.map (·.id) ∧ edge.targetId ∈ nodes.map (·.id))) ?_ ?_
  · apply exists_congr
    intro edge
    apply and_congr_right
    intro _
    simp only [List.filterMap_cons, List.filterMap_nil, List.any_eq_true, beq_iff_eq,
      ← List.mem_map (f := fun node : Node => node.id)]
    by_cases source : edge.sourceId ∈ nodes.map (·.id) <;>
      by_cases target : edge.targetId ∈ nodes.map (·.id) <;> simp [source, target]
  constructor
  · rintro ⟨edge, member, rfl, unnamed⟩
    exact ⟨rfl, fun named => unnamed (named edge member)⟩
  · rintro ⟨rfl, unnamed⟩
    by_contra all
    apply unnamed
    intro edge member
    by_contra missing
    exact all ⟨edge, member, rfl, missing⟩

/-- The first repetition in a list stands behind distinct items. -/
theorem exists_first_repetition {ids : List String} (repeated : ¬ ids.Nodup) :
    ∃ before id after, ids = before ++ id :: after ∧ before.Nodup ∧ id ∈ before := by
  induction ids using List.reverseRecOn with
  | nil => simp at repeated
  | append_singleton rest last ih =>
    by_cases distinct : rest.Nodup
    · refine ⟨rest, last, [], rfl, distinct, ?_⟩
      by_contra fresh
      apply repeated
      exact List.nodup_append.mpr ⟨distinct, by simp, by
        rintro id member _ same rfl
        exact fresh (List.mem_singleton.mp same ▸ member)⟩
    · obtain ⟨before, id, after, rfl, beforeDistinct, member⟩ := ih distinct
      exact ⟨before, id, after ++ [last], by simp, beforeDistinct, member⟩

theorem errorFound_repeatedIds :
    errorFound (repeatedIds nodes) type ↔ type = .duplicateNode ∧ ¬ IdsDistinct nodes := by
  unfold repeatedIds IdsDistinct
  generalize nodes.map (·.id) = ids
  refine Iff.trans (b := ∃ id place, ids[place]? = some id ∧ (ids.take place).count id = 1 ∧
    type = .duplicateNode) ?_ ?_
  · simp only [errorFound, List.any_eq_true, List.mem_filterMap, Option.ite_none_right_eq_some,
      Option.some.injEq, Prod.exists, List.mem_zipIdx_iff_getElem?]
    constructor
    · rintro ⟨_, ⟨id, place, stands, once, rfl⟩, same⟩
      exact ⟨id, place, stands, once, (beq_iff_eq.mp (Bool.and_eq_true_iff.mp same).2).symm⟩
    · rintro ⟨id, place, stands, once, rfl⟩
      exact ⟨_, ⟨id, place, stands, once, rfl⟩, by simp [Issue.error]⟩
  constructor
  · rintro ⟨id, place, stands, once, rfl⟩
    refine ⟨rfl, fun distinct => ?_⟩
    have member : id ∈ ids.take place := List.count_pos_iff.mp (by omega)
    obtain ⟨inside, same⟩ := List.getElem?_eq_some_iff.mp stands
    have apart := (List.nodup_append.mp (List.take_append_drop place ids ▸ distinct)).2.2
    apply apart id member id _ rfl
    rw [List.drop_eq_getElem_cons inside, same]
    exact List.mem_cons_self
  · rintro ⟨rfl, repeated⟩
    obtain ⟨before, id, after, rfl, distinct, member⟩ := exists_first_repetition repeated
    refine ⟨id, before.length, by simp, ?_, rfl⟩
    rw [List.take_left]
    exact List.count_eq_one_of_mem distinct member

end MonthlyForecast.Validation
