import Mathlib.Data.Fintype.EquivFin
import Mathlib.Logic.Basic
import Mathlib.Logic.Relation
import MonthlyForecast.Graph.Basic

/-! Orders in which the successors of every node come after it, as a depth-first search
leaves them behind. Such an order has no way back, so it refutes cycles among its
nodes. Where there are cycles, a successor that does not come after its node leads back
to it. -/
namespace MonthlyForecast
open Relation

/-- No path leads from a node back to it. -/
def Acyclic {α : Type} (related : α → α → Prop) : Prop :=
  ∀ node, ¬ TransGen related node node

variable {α : Type} {related : α → α → Prop} {first second : α}

theorem Acyclic.wellFounded [Finite α] (acyclic : Acyclic related) : WellFounded related := by
  have irreflexive : Std.Irrefl (TransGen related) := ⟨acyclic⟩
  exact Subrelation.wf (fun step => .single step)
    (Finite.wellFounded_of_trans_of_irrefl (TransGen related))

/-- The open nodes of a search lead to its current node; a step keeps that, with the node
itself open. -/
theorem leads_cons {opened : List α} {node next : α}
    (leads : ∀ other ∈ opened, TransGen related other node) (step : related node next) :
    ∀ other ∈ node :: opened, TransGen related other next :=
  List.forall_mem_cons.mpr ⟨.single step, fun other among => (leads other among).tail step⟩

/-- Steps from a node to itself can be left out of a path. -/
theorem reflTransGen_proper (path : ReflTransGen related first second) :
    ReflTransGen (fun node next => related node next ∧ node ≠ next) first second := by
  induction path with
  | refl => exact .refl
  | @tail middle last _ step ih =>
    by_cases same : middle = last
    · exact same ▸ ih
    · exact ih.tail ⟨step, same⟩

theorem transGen_proper (path : TransGen related first second) (other : first ≠ second) :
    TransGen (fun node next => related node next ∧ node ≠ next) first second :=
  (reflTransGen_iff_eq_or_transGen.mp (reflTransGen_proper path.to_reflTransGen)).resolve_left
    other.symm

/-- A cycle passes through two different nodes exactly if it needs no step from a node to
itself. -/
theorem exists_cycle_through_two_iff :
    (∃ first second, first ≠ second ∧ TransGen related first second ∧
        TransGen related second first) ↔
      ¬ Acyclic fun node next => related node next ∧ node ≠ next := by
  simp only [Acyclic, not_forall, not_not]
  constructor
  · rintro ⟨first, second, other, there, back⟩
    exact ⟨first, (transGen_proper there other).trans (transGen_proper back other.symm)⟩
  · rintro ⟨first, cycle⟩
    obtain ⟨second, step, back⟩ := TransGen.head'_iff.mp cycle
    have back : ReflTransGen related second first := back.lift id fun _ _ step => step.1
    exact ⟨first, second, step.2, .single step.1,
      (reflTransGen_iff_eq_or_transGen.mp back).resolve_left step.2⟩

/-- Every node's successors come after it. -/
def Settled (next : NodeIndex → List NodeIndex) : List NodeIndex → Prop
  | [] => True
  | node :: rest => next node ⊆ rest ∧ Settled next rest

namespace Settled

variable {next : NodeIndex → List NodeIndex} {order : List NodeIndex} {node other : NodeIndex}

theorem successors_mem (settled : Settled next order) (member : node ∈ order) :
    next node ⊆ order := by
  induction order with
  | nil => contradiction
  | cons first rest ih =>
    intro successor follows
    rcases List.mem_cons.mp member with rfl | later
    · exact List.mem_cons_of_mem _ (settled.1 follows)
    · exact List.mem_cons_of_mem _ (ih settled.2 later follows)

theorem reachable_mem (settled : Settled next order) (member : node ∈ order)
    (path : ReflTransGen (fun node successor => successor ∈ next node) node other) :
    other ∈ order := by
  induction path with
  | refl => exact member
  | tail _ follows ih => exact settled.successors_mem ih follows

theorem split {before after : List NodeIndex} (settled : Settled next (before ++ node :: after)) :
    next node ⊆ after := by
  induction before with
  | nil => exact settled.1
  | cons first rest ih => exact ih settled.2

/-- Fewer successors leave a settled order settled. -/
theorem mono {fewer : NodeIndex → List NodeIndex} (settled : Settled next order)
    (within : ∀ node, fewer node ⊆ next node) : Settled fewer order := by
  induction order with
  | nil => trivial
  | cons node rest ih => exact ⟨List.Subset.trans (within node) settled.1, ih settled.2⟩

/-- A node of a settled order lies on no cycle. -/
theorem no_cycle (settled : Settled next order) (member : node ∈ order) :
    ¬ TransGen (fun node successor => successor ∈ next node) node node := by
  induction order with
  | nil => contradiction
  | cons first rest ih =>
    intro cycle
    by_cases later : node ∈ rest
    · exact ih settled.2 later cycle
    · obtain rfl := (List.mem_cons.mp member).resolve_right later
      obtain ⟨successor, follows, back⟩ := TransGen.head'_iff.mp cycle
      exact later (settled.2.reachable_mem (settled.1 follows) back)

end Settled

/-- Every node's successors come after it or lead back to it. -/
def Unwound (next : NodeIndex → List NodeIndex) : List NodeIndex → Prop
  | [] => True
  | node :: rest =>
    (∀ successor ∈ next node, successor ∈ rest ∨
      ReflTransGen (fun node successor => successor ∈ next node) successor node) ∧
    Unwound next rest

namespace Unwound

variable {next : NodeIndex → List NodeIndex} {order : List NodeIndex} {node successor : NodeIndex}

theorem settled (unwound : Unwound next order)
    (acyclic : Acyclic fun node successor => successor ∈ next node) : Settled next order := by
  induction order with
  | nil => trivial
  | cons node rest ih =>
    refine ⟨?_, ih unwound.2⟩
    intro successor follows
    rcases unwound.1 successor follows with after | back
    · exact after
    · exact absurd (TransGen.head' follows back) (acyclic node)

theorem split {before after : List NodeIndex} (unwound : Unwound next (before ++ node :: after))
    (follows : successor ∈ next node) : successor ∈ after ∨
      ReflTransGen (fun node successor => successor ∈ next node) successor node := by
  induction before with
  | nil => exact unwound.1 successor follows
  | cons first rest ih => exact ih unwound.2

end Unwound
end MonthlyForecast
