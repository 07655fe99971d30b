import MonthlyForecast.Proofs.Evaluation.Run
import MonthlyForecast.Proofs.Evaluation.Series

/-! When the references of trees are resolved. Seeds whose sources are metrics leave one
reason to fail: a node of some tree names a variable that is not given. -/
namespace MonthlyForecast

/-- The node reads the variable with the id. -/
def NodeKind.Names : NodeKind → String → Prop
  | .data _ variableId _, id => variableId = id
  | .metric attributes, id =>
      attributes.budgetVariableId = some id ∨ attributes.historicalVariableId = some id
  | .constant .., _ | .operator .., _ | .seed .., _ => False

section Columns

variable {kind : NodeKind} {id : String}

/-- The variables in the columns of a metric are variables that it reads. -/
theorem NodeKind.names_budget (given : kind.metric?.bind (·.budgetVariableId) = some id) :
    kind.Names id := by
  cases kind with
  | metric attributes => exact Or.inl given
  | data | constant | operator | seed => contradiction

theorem NodeKind.names_historical (given : kind.metric?.bind (·.historicalVariableId) = some id) :
    kind.Names id := by
  cases kind with
  | metric attributes => exact Or.inr given
  | data | constant | operator | seed => contradiction

end Columns

namespace Model

/-- The node names a variable that is not recorded. -/
def UnknownAt (model : Model) (node : NodeIndex) (id : String) : Prop :=
  ∃ kind, model.graph.kind? node = some kind ∧ kind.Names id ∧ ¬ model.series.contains id

variable {model : Model} {node : NodeIndex} {trees : List MetricTree}

theorem resolveVariable_outcome (model : Model) (variableId nodeId : String) :
    Outcome (fun _ => model.series.contains variableId)
      (fun fault => fault = .unknownVariable variableId nodeId ∧ ¬ model.series.contains variableId)
      (model.resolveVariable variableId nodeId) := by
  unfold resolveVariable
  split
  · rename_i known
    exact known
  · rename_i unknown
    exact ⟨rfl, unknown⟩

/-- The references of one node are resolved unless it names an unknown variable. -/
theorem resolveNode_outcome
    (source : ∀ id, model.graph.kind? node = some (.seed id) →
      ∃ source, model.graph.index? id = some source ∧ model.graph.isMetric source) :
    Outcome (fun _ => ∀ id, ¬ model.UnknownAt node id)
      (fun fault => ∃ id, model.UnknownAt node id ∧
        fault = .unknownVariable id (model.graph.idOf node))
      (model.resolveNode node) := by
  have none : (∀ kind id, model.graph.kind? node = some kind → ¬ kind.Names id) →
      ∀ id, ¬ model.UnknownAt node id :=
    fun silent id ⟨kind, found, names, _⟩ => silent kind id found names
  unfold resolveNode
  cases kind : model.graph.kind? node with
  | none => exact none fun _ _ found => by simp [kind] at found
  | some shape =>
    cases shape with
    | constant | operator =>
      exact none fun _ _ found => by
        cases kind.symm.trans found
        exact id
    | seed sourceId =>
      obtain ⟨index, found, isMetric⟩ := source sourceId kind
      obtain ⟨attributes, metric⟩ := Option.isSome_iff_exists.mp isMetric
      simp only [found, Option.bind_some, metric]
      exact none fun _ _ found => by
        cases kind.symm.trans found
        exact id
    | data name variableId offset =>
      apply (model.resolveVariable_outcome variableId (model.graph.idOf node)).imp
      · rintro _ known id ⟨shape, found, names, unknown⟩
        cases kind.symm.trans found
        obtain rfl : variableId = id := names
        exact unknown known
      · rintro fault ⟨same, unknown⟩
        exact ⟨variableId, ⟨_, kind, rfl, unknown⟩, same⟩
    | metric attributes =>
      have named : ∀ id, id ∈ attributes.budgetVariableId.toList ++
          attributes.historicalVariableId.toList ↔ (NodeKind.metric attributes).Names id := by
        intro id
        simp [NodeKind.Names]
      have each : Outcome (fun _ => ∀ id ∈ attributes.budgetVariableId.toList ++
            attributes.historicalVariableId.toList, model.series.contains id)
          (fun fault => ∃ id, model.UnknownAt node id ∧
            fault = .unknownVariable id (model.graph.idOf node))
          ((attributes.budgetVariableId.toList ++ attributes.historicalVariableId.toList).forM
            fun id => model.resolveVariable id (model.graph.idOf node)) := by
        apply Outcome.forM
        intro id among
        apply (model.resolveVariable_outcome id _).imp (fun _ known => known)
        rintro fault ⟨same, unknown⟩
        exact ⟨id, ⟨_, kind, (named id).mp among, unknown⟩, same⟩
      apply each.imp _ fun _ fault => fault
      rintro _ known id ⟨shape, found, names, unknown⟩
      cases kind.symm.trans found
      exact unknown (known id ((named id).mpr names))

/-- Resolving fails exactly on an unknown variable of some node of the trees. -/
theorem resolveReferences_outcome (sources : SourcesFound model.graph trees) :
    Outcome (fun _ => ∀ node, InTrees trees node → ∀ id, ¬ model.UnknownAt node id)
      (fun fault => ∃ node, InTrees trees node ∧ ∃ id, model.UnknownAt node id ∧
        fault = .unknownVariable id (model.graph.idOf node))
      (model.resolveReferences trees) := by
  have each : Outcome (fun _ => ∀ tree ∈ trees, ∀ slot ∈ tree.slots,
        ∀ id, ¬ model.UnknownAt slot.node id)
      (fun fault => ∃ node, InTrees trees node ∧ ∃ id, model.UnknownAt node id ∧
        fault = .unknownVariable id (model.graph.idOf node))
      (model.resolveReferences trees) := by
    apply Outcome.forM
    intro tree member
    apply Outcome.forM
    intro slot among
    apply (resolveNode_outcome (sources tree member slot among)).imp (fun _ known => known)
    intro fault failed
    exact ⟨slot.node, ⟨tree, member, slot, among, rfl⟩, failed⟩
  apply each.imp _ fun _ fault => fault
  rintro _ known node ⟨tree, member, slot, among, rfl⟩
  exact known tree member slot among

end Model
end MonthlyForecast
