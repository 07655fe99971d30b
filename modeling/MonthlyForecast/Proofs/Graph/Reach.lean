import Mathlib.Data.List.Nodup
import Mathlib.Logic.Relation
import MonthlyForecast.Graph.Reach

/-! What a search by `gather` finds: the nodes that a pending node reaches, each once. The
nodes that remain bound the search; where they hold the successors of all their members,
they bound nothing else. -/
namespace MonthlyForecast
open Relation

/-- A step to a successor that is still among the given nodes. -/
def StepWithin (next : NodeIndex → List NodeIndex) (remaining : List NodeIndex)
    (node successor : NodeIndex) : Prop :=
  successor ∈ next node ∧ successor ∈ remaining

variable {next : NodeIndex → List NodeIndex} {remaining pending : List NodeIndex}
  {node start : NodeIndex}

/-- A path that does not end at the node need not pass it, if it may start behind it. -/
theorem path_without (distinct : remaining.Nodup) {first other : NodeIndex}
    (among : first ∈ pending) (inside : first ∈ remaining)
    (path : ReflTransGen (StepWithin next remaining) first other) :
    other = node ∨ ∃ start ∈ next node ++ pending, start ∈ remaining.erase node ∧
      ReflTransGen (StepWithin next (remaining.erase node)) start other := by
  induction path with
  | refl =>
    by_cases same : first = node
    · exact Or.inl same
    · exact Or.inr ⟨first, List.mem_append_right _ among,
        distinct.mem_erase_iff.mpr ⟨same, inside⟩, .refl⟩
  | @tail middle last _ step ih =>
    by_cases same : last = node
    · exact Or.inl same
    have kept : last ∈ remaining.erase node := distinct.mem_erase_iff.mpr ⟨same, step.2⟩
    rcases ih with rfl | ⟨start, origin, startInside, before⟩
    · exact Or.inr ⟨last, List.mem_append_left _ step.1, kept, .refl⟩
    · exact Or.inr ⟨start, origin, startInside, before.tail ⟨step.1, kept⟩⟩

theorem mem_gather_iff (distinct : remaining.Nodup) :
    node ∈ gather next remaining pending ↔ ∃ start ∈ pending, start ∈ remaining ∧
      ReflTransGen (StepWithin next remaining) start node := by
  fun_induction gather next remaining pending with
  | case1 remaining pending none =>
    simp only [List.not_mem_nil, false_iff, not_exists, not_and]
    intro start among inside
    simpa [inside] using List.find?_eq_none.mp none start among
  | case2 remaining pending found takes ih =>
    have inside : found ∈ remaining := List.contains_iff_mem.mp (List.find?_some takes)
    have among : found ∈ pending := List.mem_of_find?_eq_some takes
    rw [List.mem_cons, ih (distinct.erase found)]
    constructor
    · rintro (rfl | ⟨start, origin, startInside, path⟩)
      · exact ⟨node, among, inside, .refl⟩
      · have path : ReflTransGen (StepWithin next remaining) start node :=
          path.lift id fun _ _ step => ⟨step.1, List.mem_of_mem_erase step.2⟩
        have startInside := List.mem_of_mem_erase startInside
        rcases List.mem_append.mp origin with follows | earlier
        · exact ⟨found, among, inside, path.head ⟨follows, startInside⟩⟩
        · exact ⟨start, earlier, startInside, path⟩
    · rintro ⟨start, origin, startInside, path⟩
      exact path_without distinct origin startInside path

theorem gather_nodup (distinct : remaining.Nodup) : (gather next remaining pending).Nodup := by
  fun_induction gather next remaining pending with
  | case1 => exact List.nodup_nil
  | case2 remaining pending found takes ih =>
    refine List.nodup_cons.mpr ⟨?_, ih (distinct.erase found)⟩
    rw [mem_gather_iff (distinct.erase found)]
    -- Nothing that remains without the node leads back to it.
    rintro ⟨start, _, startInside, path⟩
    have gone : found ∉ remaining.erase found := distinct.not_mem_erase
    rcases path.cases_tail with rfl | ⟨_, _, step⟩
    · exact gone startInside
    · exact gone step.2

/-- Among nodes that hold their successors the search finds all that can be reached. -/
theorem mem_gather_iff_reachable (distinct : remaining.Nodup)
    (closed : ∀ node ∈ remaining, next node ⊆ remaining) (within : pending ⊆ remaining) :
    node ∈ gather next remaining pending ↔ ∃ start ∈ pending,
      ReflTransGen (fun node successor => successor ∈ next node) start node := by
  rw [mem_gather_iff distinct]
  constructor
  · rintro ⟨start, among, _, path⟩
    exact ⟨start, among, path.lift id fun _ _ step => step.1⟩
  · rintro ⟨start, among, path⟩
    have inside := within among
    refine ⟨start, among, inside, ?_⟩
    have stays : ReflTransGen (StepWithin next remaining) start node ∧ node ∈ remaining := by
      induction path with
      | refl => exact ⟨.refl, inside⟩
      | tail _ follows ih =>
        have kept := closed _ ih.2 follows
        exact ⟨ih.1.tail ⟨follows, kept⟩, kept⟩
    exact stays.1

end MonthlyForecast
