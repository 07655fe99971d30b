import Mathlib
import MonthlyForecast.Evaluation.Formula

/-! What an operator makes of its inputs. The arithmetic of doubles gives every list of numbers
a chain of accumulated values, which can run through infinities and come back from them. An
operator gives the end of that chain exactly if every number and every value of the chain is
finite and no number that divides is zero. -/
namespace MonthlyForecast

/-- Positive or negative zero. -/
def IsZero (number : Float) : Prop :=
  number = 0 ∨ number = -0

/-- A double that compares equal to zero is one of the two zeros. -/
theorem beq_zero_iff {number : Float} : number == 0 ↔ IsZero number := by
  rw [Float.beq_iff_ne_nan_and_eq, IsZero]
  constructor
  · rintro ⟨_, _, same | ⟨same, _⟩ | ⟨same, _⟩⟩
    · exact .inl same
    · exact .inl same
    · exact .inr same
  · rintro (rfl | rfl) <;> decide

namespace Operation

/-- The operation in the arithmetic of doubles, with all its results. -/
def onDoubles (operation : Operation) (left right : Float) : Float :=
  match operation with
  | add => left + right
  | subtract => left - right
  | multiply => left * right
  | divide => left / right
  | power => left.pow right

/-- The values accumulated from left to right: the first number, and then what each further
number makes of the value before it. -/
def chain (operation : Operation) (first : Float) (rest : List Float) : List Float :=
  rest.scanl operation.onDoubles first

/-- Combining the numbers never leaves the finite doubles. -/
structure StaysFinite (operation : Operation) (first : Float) (rest : List Float) : Prop where
  numbers : ∀ number ∈ first :: rest, number.isFinite
  divisors : operation = divide → ∀ divisor ∈ rest, ¬ IsZero divisor
  accumulated : ∀ value ∈ operation.chain first rest, value.isFinite

variable {operation : Operation} {first left right result : Float} {rest : List Float}
  {value : Option Float} {values : List (Option Float)}

theorem chain_cons : operation.chain first (right :: rest) =
    first :: operation.chain (operation.onDoubles first right) rest :=
  List.scanl_cons

theorem mem_chain : first ∈ operation.chain first rest :=
  List.mem_of_head? List.head?_scanl

theorem getLast?_chain_cons : (operation.chain first (right :: rest)).getLast? =
    (operation.chain (operation.onDoubles first right) rest).getLast? := by
  rw [chain_cons, List.getLast?_cons_of_ne_nil (List.ne_nil_of_mem mem_chain)]

theorem staysFinite_nil : operation.StaysFinite first [] ↔ first.isFinite := by
  constructor
  · intro stays
    exact stays.numbers first List.mem_cons_self
  · intro finite
    exact ⟨by simpa using finite, by simp, by simpa [chain] using finite⟩

/-- One step, and then the numbers that are left from its result on. -/
theorem staysFinite_cons : operation.StaysFinite first (right :: rest) ↔
    first.isFinite ∧ right.isFinite ∧ (operation = divide → ¬ IsZero right) ∧
      operation.StaysFinite (operation.onDoubles first right) rest := by
  constructor
  · rintro ⟨numbers, divisors, accumulated⟩
    simp only [chain_cons, List.forall_mem_cons] at numbers divisors accumulated
    obtain ⟨firstFinite, rightFinite, restFinite⟩ := numbers
    obtain ⟨_, later⟩ := accumulated
    have nextFinite := later _ mem_chain
    exact ⟨firstFinite, rightFinite, fun divides => (divisors divides).1,
      ⟨List.forall_mem_cons.mpr ⟨nextFinite, restFinite⟩, fun divides => (divisors divides).2,
        later⟩⟩
  · rintro ⟨firstFinite, rightFinite, divisor, numbers, divisors, accumulated⟩
    have restFinite := (List.forall_mem_cons.mp numbers).2
    refine ⟨?_, ?_, ?_⟩
    · simp only [List.forall_mem_cons]
      exact ⟨firstFinite, rightFinite, restFinite⟩
    · intro divides
      exact List.forall_mem_cons.mpr ⟨divisor divides, divisors divides⟩
    · rw [chain_cons]
      exact List.forall_mem_cons.mpr ⟨firstFinite, accumulated⟩

theorem apply_eq_some_iff : operation.apply left right = some result ↔
    (operation = divide → ¬ IsZero right) ∧ (operation.onDoubles left right).isFinite ∧
      result = operation.onDoubles left right := by
  cases operation with
  | add | subtract | multiply | power => simp [apply, onDoubles, finite?_eq_some_iff]
  | divide =>
    simp only [apply, onDoubles, Option.ite_none_left_eq_some, beq_zero_iff, finite?_eq_some_iff,
      forall_const]

theorem applyNext_eq_some_iff : operation.applyNext left value = some result ↔
    ∃ right, value = some right ∧ right.isFinite ∧ operation.apply left right = some result := by
  rw [applyNext, Option.bind_eq_some_iff]
  simp only [bind_finite?_eq_some_iff, and_assoc]

/-- From a finite number on, combining reaches the end of the chain if it stays finite. -/
theorem foldlM_applyNext_eq_some_iff (finite : first.isFinite) :
    values.foldlM operation.applyNext first = some result ↔
      ∃ rest, values = rest.map some ∧ operation.StaysFinite first rest ∧
        (operation.chain first rest).getLast? = some result := by
  induction values generalizing first with
  | nil =>
    simp only [List.foldlM_nil, Option.pure_def, Option.some.injEq]
    constructor
    · rintro rfl
      exact ⟨[], rfl, staysFinite_nil.mpr finite, rfl⟩
    · rintro ⟨rest, given, _, last⟩
      obtain rfl := List.map_eq_nil_iff.mp given.symm
      exact Option.some.inj last
  | cons value values ih =>
    simp only [List.foldlM_cons, Option.bind_eq_bind, Option.bind_eq_some_iff,
      applyNext_eq_some_iff, apply_eq_some_iff]
    constructor
    · rintro ⟨_, ⟨right, rfl, rightFinite, divisor, nextFinite, rfl⟩, later⟩
      obtain ⟨rest, rfl, stays, last⟩ := (ih nextFinite).mp later
      exact ⟨right :: rest, rfl, staysFinite_cons.mpr ⟨finite, rightFinite, divisor, stays⟩,
        getLast?_chain_cons.trans last⟩
    · rintro ⟨rest, given, stays, last⟩
      obtain ⟨right, rest, rfl, rfl, rfl⟩ := List.map_eq_cons_iff.mp given.symm
      obtain ⟨_, rightFinite, divisor, later⟩ := staysFinite_cons.mp stays
      have nextFinite := later.accumulated _ mem_chain
      exact ⟨_, ⟨right, rfl, rightFinite, divisor, nextFinite, rfl⟩,
        (ih nextFinite).mpr ⟨rest, rfl, later, getLast?_chain_cons.symm.trans last⟩⟩

/-- Values combine to the end of the chain of their numbers. -/
theorem combine_eq_some_iff : operation.combine values = some result ↔
    ∃ first rest, values = (first :: rest).map some ∧ operation.StaysFinite first rest ∧
      (operation.chain first rest).getLast? = some result := by
  cases values with
  | nil => simp [combine]
  | cons value values =>
    rw [combine, Option.bind_eq_some_iff]
    simp only [bind_finite?_eq_some_iff]
    constructor
    · rintro ⟨first, ⟨rfl, finite⟩, later⟩
      obtain ⟨rest, rfl, stays, last⟩ := (foldlM_applyNext_eq_some_iff finite).mp later
      exact ⟨first, rest, rfl, stays, last⟩
    · rintro ⟨first, rest, given, stays, last⟩
      obtain ⟨rfl, rfl⟩ := List.cons.inj given
      have finite := stays.numbers first List.mem_cons_self
      exact ⟨first, ⟨rfl, finite⟩,
        (foldlM_applyNext_eq_some_iff finite).mpr ⟨rest, rfl, stays, last⟩⟩

theorem isFinite_of_combine (combined : operation.combine values = some result) :
    result.isFinite := by
  obtain ⟨first, rest, _, stays, last⟩ := combine_eq_some_iff.mp combined
  exact stays.accumulated result (List.mem_of_getLast? last)

theorem exists_finite_of_combine (combined : operation.combine values = some result)
    (member : value ∈ values) : ∃ number, value = some number ∧ number.isFinite := by
  obtain ⟨first, rest, rfl, stays, _⟩ := combine_eq_some_iff.mp combined
  obtain ⟨number, among, rfl⟩ := List.mem_map.mp member
  exact ⟨number, rfl, stays.numbers number among⟩

/-- Combining can stop after any value and go on from the result. -/
theorem combine_append (value : Option Float) (values more : List (Option Float)) :
    operation.combine (value :: values ++ more) =
      (operation.combine (value :: values)).bind fun result =>
        operation.combine (some result :: more) := by
  have whole : operation.combine (value :: values ++ more) =
      (operation.combine (value :: values)).bind fun result =>
        more.foldlM operation.applyNext result := by
    simp only [List.cons_append, combine, List.foldlM_append, Option.bind_eq_bind,
      Option.bind_assoc]
  rw [whole]
  -- The result is finite, so it passes the filter on the first of the values that follow.
  apply Option.bind_congr
  intro result combined
  have passes : finite? result = some result :=
    finite?_eq_some_iff.mpr ⟨isFinite_of_combine combined, rfl⟩
  simp only [combine, Option.bind_some, passes]

/-- An operator gives the end of the chain of its inputs if combining them stays finite, and
nothing otherwise. An input that is no finite number leaves it without a result, and the
result of some first inputs can stand in their place. -/
theorem combine_exact (operation : Operation) :
    (∀ values result, operation.combine values = some result ↔
      ∃ first rest, values = (first :: rest).map some ∧ operation.StaysFinite first rest ∧
        (operation.chain first rest).getLast? = some result) ∧
      (∀ values result, operation.combine values = some result → result.isFinite) ∧
      (∀ values : List (Option Float),
        (∃ value ∈ values, ∀ number, value = some number → ¬ number.isFinite) →
          operation.combine values = none) ∧
      ∀ value values more, operation.combine (value :: values ++ more) =
        (operation.combine (value :: values)).bind fun result =>
          operation.combine (some result :: more) := by
  refine ⟨fun _ _ => combine_eq_some_iff, fun _ _ => isFinite_of_combine, ?_, combine_append⟩
  rintro values ⟨value, member, noNumber⟩
  rw [Option.eq_none_iff_forall_ne_some]
  intro result combined
  obtain ⟨number, given, finite⟩ := exists_finite_of_combine combined member
  exact noNumber number given finite

/-- Negative zero does not divide, and an infinity is no divisor though its quotient is zero. -/
example : divide.combine [some 6, some 2, some (-0)] = none ∧
    divide.combine [some 6, some 2, some (1 / 0)] = none ∧
    divide.combine [some 6, some 2, some 4] = some 0.75 := by
  decide +kernel

end Operation
end MonthlyForecast
