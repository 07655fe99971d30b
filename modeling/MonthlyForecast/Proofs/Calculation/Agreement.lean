import MonthlyForecast.Proofs.Calculation.Correspondence

/-! Where the solutions of two requests agree. Nodes that stand alike in two requests, together
with all that they read, have the same values in both, in every month that the ranges share;
whatever else the requests hold plays no part. Two solutions of one request are a case of
this. -/
namespace MonthlyForecast
open Relation Validation

namespace Request

/-- A node of the one request and one of the other that are computed alike: they are of one
kind, use the same input and find the same values of their variables. -/
structure Twins (first second : Request) (node twin : Node) : Prop where
  id_eq : twin.id = node.id
  kind_eq : twin.kind = node.kind
  inputs_eq : ∀ attributes, node.kind = .metric attributes → attributes.useCalculated = true →
    inputIds second.edges node.id = inputIds first.edges node.id
  series_eq : ∀ variableId, node.kind.Names variableId → ∀ month offset,
    second.series.value? variableId month offset = first.series.value? variableId month offset

/-- The nodes with the ids stand alike in both requests. -/
def Alike (first second : Request) (inside : String → Prop) : Prop :=
  ∀ node ∈ first.nodes, inside node.id → ∃ twin ∈ second.nodes, Twins first second node twin

variable {first second request : Request} {policy : Policy} {values others : Values}
  {node twin : Node} {inside : String → Prop} {place : Nat}

/-- A node is computed alike in requests with the same edges and variables. -/
theorem twins_of_eq (edges_eq : second.edges = first.edges)
    (variables_eq : second.variableList = first.variableList) (node : Node) :
    Twins first second node node := by
  refine ⟨rfl, rfl, ?_, ?_⟩
  · intro _ _ _
    rw [edges_eq]
  · intro _ _ _ _
    rw [series, series, variables_eq]

theorem Twins.column_eq (twins : Twins first second node twin) {variableId : Option String}
    (named : ∀ id, variableId = some id → node.kind.Names id) (month : Date) (offset : Int) :
    (variableId.bind fun id => second.series.value? id month offset) =
      variableId.bind fun id => first.series.value? id month offset := by
  cases variableId with
  | none => rfl
  | some id => exact twins.series_eq id (named id rfl) month offset

theorem Twins.counterpart (twins : Twins first second node twin) :
    Counterpart first second node twin :=
  ⟨twins.id_eq, twins.kind_eq, twins.inputs_eq⟩

/-- Connected nodes of two requests that stand alike in both, with all that they read. -/
structure Shares (first second : Request) (inside : String → Prop) : Prop where
  alike : Alike first second inside
  closed : ∀ {reader id}, inside reader → ReadsValue first.nodes first.edges reader id → inside id
  connected : ∀ {id}, inside id → Connected first.nodes first.edges id
  connected_too : ∀ {id}, inside id → Connected second.nodes second.edges id

/-- The requests have the same month at each place up to the given one. -/
def SameMonths (first second : Request) (place : Nat) : Prop :=
  ∀ earlier ≤ place, ∃ month, first.months[earlier]? = some month ∧
    second.months[earlier]? = some month

theorem sameMonths_of_isPrefix (longer : first.months <+: second.months)
    (before : place < first.months.length) : SameMonths first second place := by
  intro earlier atMost
  have inside := Nat.lt_of_le_of_lt atMost before
  exact ⟨_, List.getElem?_eq_getElem inside, List.prefix_iff_getElem?.mp longer earlier inside⟩

theorem sameMonths_of_eq (months_eq : first.months = second.months)
    (before : place < first.months.length) : SameMonths first second place :=
  sameMonths_of_isPrefix (months_eq ▸ List.prefix_refl _) before

/-- Solutions of two requests agree on the nodes that the requests share. -/
theorem Solves.agree (solves : first.Solves policy values)
    (otherSolves : second.Solves policy others) (wellFormed : WellFormed first.nodes first.edges)
    (distinct : IdsDistinct second.nodes) (shares : Shares first second inside)
    (dated : SameMonths first second place) : ∀ node ∈ first.nodes, inside node.id →
      values node.id place = others node.id place := by
  apply solves.relate otherSolves keptByOperators_eq wellFormed distinct shares.closed
    shares.connected shares.connected_too
  intro earlier atMost
  obtain ⟨month, here, there⟩ := dated earlier atMost
  refine ⟨month, month, here, there, ?_⟩
  intro node member held
  obtain ⟨twin, twinMember, twins⟩ := shares.alike node member held
  refine ⟨twin, twinMember, twins.counterpart, ?_⟩
  apply supplied_of_values keptByOperators_eq
  intro id named offset
  exact (twins.series_eq id named month offset).symm

/-- Two solutions agree on the nodes that lead to a metric. -/
theorem Solves.unique (wellFormed : WellFormed request.nodes request.edges)
    (first : request.Solves policy values) (second : request.Solves policy others) (place : Nat)
    (inside : place < request.months.length) : ∀ node ∈ request.nodes,
      Connected request.nodes request.edges node.id →
        values node.id place = others node.id place := by
  have shares : Shares request request (Connected request.nodes request.edges) :=
    ⟨fun node member _ => ⟨node, member, twins_of_eq rfl rfl node⟩, wellFormed.connected_of_reads,
      fun held => held, fun held => held⟩
  exact first.agree second wellFormed wellFormed.ids_distinct shares (sameMonths_of_eq rfl inside)

end Request
end MonthlyForecast
