import MonthlyForecast.Graph.Node

/-! Arithmetic on values that may be missing. Only finite doubles are values: a
result that is not finite, and a division by zero, is missing. An operator combines
its inputs from left to right, and one missing input makes the result missing. -/
namespace MonthlyForecast

def finite? (value : Float) : Option Float :=
  if value.isFinite then some value else none

theorem finite?_eq_some_iff {value result : Float} :
    finite? value = some result ↔ value.isFinite ∧ result = value := by
  simp only [finite?, Option.ite_none_right_eq_some, Option.some.injEq, eq_comm]

theorem bind_finite?_eq_some_iff {value : Option Float} {number : Float} :
    value.bind finite? = some number ↔ value = some number ∧ number.isFinite := by
  simp only [Option.bind_eq_some_iff, finite?_eq_some_iff]
  constructor
  · rintro ⟨_, given, finite, rfl⟩
    exact ⟨given, finite⟩
  · rintro ⟨given, finite⟩
    exact ⟨number, given, finite, rfl⟩

namespace Operation

def apply (operation : Operation) (left right : Float) : Option Float :=
  match operation with
  | add => finite? (left + right)
  | subtract => finite? (left - right)
  | multiply => finite? (left * right)
  | divide => if right == 0 then none else finite? (left / right)
  | power => finite? (left.pow right)

/-- Combines a further value into an accumulated one. -/
def applyNext (operation : Operation) (accumulated : Float) (value : Option Float) :
    Option Float :=
  (value.bind finite?).bind (operation.apply accumulated)

/-- Combines values from left to right; missing for no values. -/
def combine (operation : Operation) : List (Option Float) → Option Float
  | [] => none
  | first :: rest => (first.bind finite?).bind fun start => rest.foldlM operation.applyNext start

end Operation
end MonthlyForecast
