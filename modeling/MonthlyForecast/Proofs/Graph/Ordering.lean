import MonthlyForecast.Proofs.Graph.Component

/-! The order of metrics as a whole. For any dependencies, also repeated ones and those of
nodes that are no listed metrics, either all nodes are put in order or the nodes of one strong
component are named; which of the two happens depends on the cycles alone. -/
namespace MonthlyForecast.Precedence

/-- The listed metrics and all ends of dependencies, each once and behind its sources. -/
structure Sorts (precedence : Precedence) (order : List NodeIndex) : Prop where
  nodup : order.Nodup
  mem_iff : ∀ node, node ∈ order ↔ node ∈ precedence.metrics ∨
    ∃ other, precedence.Before node other ∨ precedence.Before other node
  source_first : ∀ source dependent, precedence.Before source dependent →
    order.idxOf source < order.idxOf dependent

variable {precedence : Precedence} {order : List NodeIndex} {source dependent : NodeIndex}

/-- In an order that reversed is settled, sources stand before their dependents. -/
theorem source_mem_of_settled {earlier later : List NodeIndex}
    (settled : Settled precedence.predecessors (earlier ++ dependent :: later).reverse)
    (before : precedence.Before source dependent) : source ∈ earlier := by
  rw [List.reverse_append, List.reverse_cons, List.append_assoc, List.singleton_append] at settled
  exact List.mem_reverse.mp (settled.split (mem_predecessors_iff.mpr before))

theorem idxOf_lt_of_settled (distinct : order.Nodup)
    (settled : Settled precedence.predecessors order.reverse) (member : dependent ∈ order)
    (before : precedence.Before source dependent) :
    order.idxOf source < order.idxOf dependent := by
  obtain ⟨earlier, later, rfl⟩ := List.append_of_mem member
  have stands := source_mem_of_settled settled before
  have fresh : dependent ∉ earlier := fun among =>
    List.disjoint_of_nodup_append distinct among List.mem_cons_self
  rw [List.idxOf_append_of_mem stands, List.idxOf_append_of_notMem fresh, List.idxOf_cons_self]
  exact Nat.lt_add_right 0 (List.idxOf_lt_length_of_mem stands)

theorem sorts_of_order_eq_ok (ordered : precedence.order = .ok order) :
    precedence.Sorts order := by
  obtain ⟨distinct, complete, settled⟩ := order_eq_ok ordered
  refine ⟨distinct, fun node => (complete node).trans mem_nodes_iff, ?_⟩
  intro source dependent before
  have member := (complete dependent).mpr before.dependent_mem
  exact idxOf_lt_of_settled distinct settled member before

/-- All nodes are sorted exactly if no node comes before itself, and else the nodes of a strong
component are given. -/
theorem order_decided (metrics : List NodeIndex) (dependencies : List Dependency) :
    let precedence : Precedence := ⟨metrics, dependencies⟩
    ((∃ order, precedence.order = .ok order) ↔ Acyclic precedence.Before) ∧
      (∀ order, precedence.order = .ok order → precedence.Sorts order) ∧
      ∀ group, precedence.order = .error group → StrongComponent precedence.Before group :=
  ⟨order_ok_iff_acyclic, fun _ => sorts_of_order_eq_ok, fun _ => order_eq_error⟩

example : (Precedence.mk [3, 1] [⟨3, 1⟩, ⟨1, 1⟩, ⟨7, 3⟩, ⟨3, 1⟩]).order.toOption =
    some [7, 3, 1] := by
  decide +kernel

end MonthlyForecast.Precedence
