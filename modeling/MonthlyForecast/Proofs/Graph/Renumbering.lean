import Mathlib.Data.List.Basic
import Mathlib.Order.Hom.Basic
import MonthlyForecast.Graph.Precedence
import MonthlyForecast.Proofs.Outcome

/-! The order of metrics under other numbers. The search compares numbers for equality and
the group that it reports is sorted by number, so numbers that keep their order, with gaps
or without, give the same order of metrics or report the same group. -/
namespace MonthlyForecast

variable {f : Nat ↪o Nat} {node : NodeIndex} {nodes remaining pending : List NodeIndex}

@[simp] theorem beq_renumber (f : Nat ↪o Nat) (node other : NodeIndex) :
    (f node == f other) = (node == other) := by
  rw [Bool.eq_iff_iff, beq_iff_eq, beq_iff_eq, f.injective.eq_iff]

@[simp] theorem mem_renumber_iff : f node ∈ nodes.map f ↔ node ∈ nodes :=
  List.mem_map_of_injective f.injective

theorem eraseDups_renumber (f : Nat ↪o Nat) (nodes : List NodeIndex) :
    (nodes.map f).eraseDups = nodes.eraseDups.map f := by
  induction size : nodes.length using Nat.strongRecOn generalizing nodes with
  | ind length ih =>
    cases nodes with
    | nil => rfl
    | cons first rest =>
      have shorter := List.length_filter_le (fun other => !other == first) rest
      rw [List.length_cons] at size
      have kept : (fun other => !other == f first) ∘ f = fun other => !other == first := by
        funext other
        simp
      rw [List.map_cons, List.eraseDups_cons, List.eraseDups_cons, List.filter_map, kept,
        ih _ (by omega) _ rfl, List.map_cons]

theorem find?_renumber (f : Nat ↪o Nat) (pending remaining : List NodeIndex) :
    (pending.map f).find? (remaining.map f).contains =
      (pending.find? remaining.contains).map f := by
  have contains : (remaining.map f).contains ∘ f = remaining.contains := by
    funext node
    rw [Function.comp_apply, Bool.eq_iff_iff, List.contains_iff_mem, List.contains_iff_mem,
      mem_renumber_iff]
  rw [List.find?_map, contains]

theorem gather_of_none {next : NodeIndex → List NodeIndex}
    (stops : pending.find? remaining.contains = none) : gather next remaining pending = [] := by
  rw [gather]
  split
  · rfl
  · rename_i taken found
    cases found.symm.trans stops

theorem gather_of_some {next : NodeIndex → List NodeIndex}
    (takes : pending.find? remaining.contains = some node) :
    gather next remaining pending =
      node :: gather next (remaining.erase node) (next node ++ pending) := by
  rw [gather]
  split
  · rename_i found
    cases found.symm.trans takes
  · rename_i taken found
    cases found.symm.trans takes
    rfl

/-- What a search by other numbers finds. -/
theorem gather_renumber {next other : NodeIndex → List NodeIndex}
    (steps : ∀ node, other (f node) = (next node).map f) (remaining pending : List NodeIndex) :
    gather other (remaining.map f) (pending.map f) = (gather next remaining pending).map f := by
  fun_induction gather next remaining pending with
  | case1 remaining pending stops =>
    have stopsToo := find?_renumber f pending remaining
    rw [stops, Option.map_none] at stopsToo
    rw [gather_of_none stopsToo, List.map_nil]
  | case2 remaining pending found takes ih =>
    have takesToo := find?_renumber f pending remaining
    rw [takes, Option.map_some] at takesToo
    rw [gather_of_some takesToo, steps, ← List.map_append, ← List.map_erase f.injective, ih,
      List.map_cons]

def Dependency.renumber (f : Nat ↪o Nat) (dependency : Dependency) : Dependency :=
  ⟨f dependency.source, f dependency.dependent⟩

def Departure.renumber (f : Nat ↪o Nat) (search : Departure) : Departure :=
  ⟨search.discovered.map f, search.departed.map f⟩

namespace Precedence

def renumber (f : Nat ↪o Nat) (precedence : Precedence) : Precedence :=
  ⟨precedence.metrics.map f, precedence.dependencies.map (Dependency.renumber f)⟩

variable (f : Nat ↪o Nat) (precedence : Precedence)

theorem proper_renumber :
    (precedence.renumber f).proper = precedence.proper.map (Dependency.renumber f) := by
  have kept : (fun dependency : Dependency => dependency.source != dependency.dependent) ∘
      Dependency.renumber f = fun dependency => dependency.source != dependency.dependent := by
    funext dependency
    simp [Dependency.renumber, bne]
  simp only [proper, renumber, List.filter_map, kept]

theorem nodes_renumber : (precedence.renumber f).nodes = precedence.nodes.map f := by
  rw [nodes, nodes, proper_renumber, ← eraseDups_renumber]
  simp only [renumber, List.map_append, List.flatMap_map, List.map_flatMap, Dependency.renumber,
    List.map_cons, List.map_nil]

theorem successors_renumber (node : NodeIndex) :
    (precedence.renumber f).successors (f node) = (precedence.successors node).map f := by
  rw [successors, successors, proper_renumber, ← eraseDups_renumber]
  simp only [List.filter_map, List.map_map, Function.comp_def, Dependency.renumber, beq_renumber]

theorem predecessors_renumber (node : NodeIndex) :
    (precedence.renumber f).predecessors (f node) = (precedence.predecessors node).map f := by
  rw [predecessors, predecessors, proper_renumber, ← eraseDups_renumber]
  simp only [List.filter_map, List.map_map, Function.comp_def, Dependency.renumber, beq_renumber]

theorem departEach_renumber {depth : Nat}
    (each : ∀ node search, (precedence.renumber f).departFrom depth (f node) (search.renumber f) =
      (precedence.departFrom depth node search).renumber f)
    (nodes : List NodeIndex) (search : Departure) :
    (nodes.map f).foldl (fun search node => (precedence.renumber f).departFrom depth node search)
        (search.renumber f) =
      (nodes.foldl (fun search node => precedence.departFrom depth node search) search).renumber
        f :=
  foldl_map_hom (Departure.renumber f) (fun search node => each node search) nodes search

theorem departFrom_renumber (depth : Nat) (node : NodeIndex) (search : Departure) :
    (precedence.renumber f).departFrom depth (f node) (search.renumber f) =
      (precedence.departFrom depth node search).renumber f := by
  induction depth generalizing node search with
  | zero => rfl
  | succ depth ih =>
    unfold departFrom
    by_cases found : node ∈ search.discovered
    · have foundToo : f node ∈ (search.renumber f).discovered := mem_renumber_iff.mpr found
      rw [if_pos found, if_pos foundToo]
    · have newToo : f node ∉ (search.renumber f).discovered := fun old =>
        found (mem_renumber_iff.mp old)
      have searched := departEach_renumber f precedence ih (precedence.successors node).reverse
        ⟨node :: search.discovered, search.departed⟩
      rw [if_neg found, if_neg newToo, successors_renumber, ← List.map_reverse]
      simp only [Departure.renumber, List.map_cons] at searched ⊢
      rw [searched]

theorem searchOrder_renumber :
    (precedence.renumber f).searchOrder = precedence.searchOrder.map f := by
  have searched := departEach_renumber f precedence
    (departFrom_renumber f precedence precedence.nodes.length) precedence.nodes ⟨[], []⟩
  rw [searchOrder, searchOrder, nodes_renumber, List.length_map]
  exact congrArg Departure.departed searched

theorem awaitedSource?_renumber (placed nodes : List NodeIndex) :
    (precedence.renumber f).awaitedSource? (placed.map f) (nodes.map f) =
      (precedence.awaitedSource? placed nodes).map f := by
  induction nodes generalizing placed with
  | nil => rfl
  | cons node rest ih =>
    have waiting : ((precedence.renumber f).predecessors (f node)).filter (· ∉ placed.map f) =
        ((precedence.predecessors node).filter (· ∉ placed)).map f := by
      rw [predecessors_renumber, List.filter_map]
      simp only [Function.comp_def, mem_renumber_iff]
    simp only [List.map_cons, awaitedSource?, waiting, List.getLast?_map]
    cases ((precedence.predecessors node).filter (· ∉ placed)).getLast? with
    | none => exact ih (node :: placed)
    | some source => rfl

theorem component_renumber (node : NodeIndex) :
    (precedence.renumber f).component (f node) = (precedence.component node).map f := by
  have after : gather (precedence.renumber f).successors (precedence.nodes.map f) [f node] =
      (gather precedence.successors precedence.nodes [node]).map f :=
    gather_renumber (successors_renumber f precedence) precedence.nodes [node]
  have before : gather (precedence.renumber f).predecessors (precedence.nodes.map f) [f node] =
      (gather precedence.predecessors precedence.nodes [node]).map f :=
    gather_renumber (predecessors_renumber f precedence) precedence.nodes [node]
  simp only [component, nodes_renumber, after, before, List.filter_map, Function.comp_def,
    mem_renumber_iff]
  symm
  apply List.map_mergeSort
  intro first _ second _
  simp only [f.le_iff_le]

/-- Numbers that keep their order give the same order of metrics. -/
theorem order_renumber :
    (precedence.renumber f).order =
      (precedence.order.map (List.map f)).mapError (List.map f) := by
  have awaited := awaitedSource?_renumber f precedence [] precedence.searchOrder
  rw [List.map_nil] at awaited
  rw [order, order, searchOrder_renumber, awaited]
  cases precedence.awaitedSource? [] precedence.searchOrder with
  | none => rfl
  | some source => exact congrArg Except.error (component_renumber f precedence source)

end Precedence
end MonthlyForecast
