import MonthlyForecast.Validation.Rules

/-! Warnings of disconnected nodes. One rule gives them; what the others find is an error or
warns of something else. -/
namespace MonthlyForecast

/-- The finding warns of a disconnected node. -/
def Issue.disconnection (issue : Issue) : Bool :=
  issue.severity == .warning && issue.type == .disconnected

namespace Validation

variable {nodes : List Node} {edges : List Edge}

@[simp] theorem disconnection_error (id : Option String) (type : IssueType) (message : String) :
    (Issue.error id type message).disconnection = false := rfl

@[simp] theorem disconnection_warning (id : Option String) (type : IssueType) (message : String) :
    (Issue.warning id type message).disconnection = (type == .disconnected) := rfl

theorem not_disconnection_repeatedIds : (repeatedIds nodes).filter Issue.disconnection = [] := by
  simp only [repeatedIds, List.filter_eq_nil_iff, List.mem_filterMap,
    Option.ite_none_right_eq_some, Option.some.injEq]
  rintro _ ⟨_, _, _, rfl⟩
  simp

theorem not_disconnection_danglingEdges :
    (danglingEdges nodes edges).filter Issue.disconnection = [] := by
  simp only [danglingEdges, List.filter_eq_nil_iff, List.mem_flatMap, List.mem_filterMap,
    Option.ite_none_left_eq_some, Option.some.injEq]
  rintro _ ⟨_, _, _, _, _, rfl⟩
  simp

theorem not_disconnection_missingMetric (graph : Graph) :
    (missingMetric graph).filter Issue.disconnection = [] := by
  unfold missingMetric
  split <;> simp

theorem not_disconnection_cyclicLinks (graph : Graph) :
    (cyclicLinks graph).filter Issue.disconnection = [] := by
  simp [cyclicLinks, List.filter_eq_nil_iff]

@[simp] theorem not_disconnection_unless (holds : Prop) [Decidable holds] (id : Option String)
    (type : IssueType) (message : String) :
    (if holds then [] else [Issue.error id type message]).filter Issue.disconnection = [] := by
  split <;> simp

theorem not_disconnection_operatorInputs (id : String) (operation : Operation)
    (declared linked : List String) :
    (operatorInputs id operation declared linked).filter Issue.disconnection = [] := by
  unfold operatorInputs
  simp only [List.filter_append, not_disconnection_unless, List.nil_append]
  match linked with
  | [] => simp
  | [_] => simp
  | _ :: _ :: _ => simp

theorem not_disconnection_metricInputs (id label : String) (count : Nat) :
    (metricInputs id label count).filter Issue.disconnection = [] := by
  unfold metricInputs
  split <;> simp

theorem not_disconnection_nodeInputs (graph : Graph) (node : NodeIndex) :
    (nodeInputs graph node).filter Issue.disconnection = [] := by
  unfold nodeInputs
  cases graph.kind? node with
  | none => rfl
  | some kind =>
    cases kind with
    | operator => exact not_disconnection_operatorInputs ..
    | metric => exact not_disconnection_metricInputs ..
    | data | constant | seed => exact not_disconnection_unless ..

theorem not_disconnection_seedSource (graph : Graph) (node : NodeIndex) :
    (seedSource graph node).filter Issue.disconnection = [] := by
  unfold seedSource
  split
  · split <;> simp
  · rfl

theorem filter_disconnection_disconnectedNodes (graph : Graph) :
    (disconnectedNodes graph).filter Issue.disconnection = disconnectedNodes graph := by
  unfold disconnectedNodes
  split
  · rfl
  · apply List.filter_eq_self.mpr
    intro issue member
    obtain ⟨node, _, rfl⟩ := List.mem_map.mp member
    rfl

/-- Only one rule warns of disconnected nodes. -/
theorem filter_disconnection_issues :
    (issues nodes edges).filter Issue.disconnection =
      disconnectedNodes (Graph.ofLists nodes edges) := by
  simp only [issues, List.filter_append, List.filter_flatMap, not_disconnection_repeatedIds,
    not_disconnection_danglingEdges, not_disconnection_missingMetric,
    not_disconnection_cyclicLinks, not_disconnection_nodeInputs, not_disconnection_seedSource,
    filter_disconnection_disconnectedNodes]
  simp

end Validation
end MonthlyForecast
