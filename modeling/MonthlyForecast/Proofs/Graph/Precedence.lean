import Mathlib.Data.List.Perm.Subperm
import MonthlyForecast.Graph.Precedence
import MonthlyForecast.Proofs.Graph.Settled
import MonthlyForecast.Proofs.Outcome

/-! An evaluation order exists exactly if no node waits for itself. The search leaves
every node once. Without cycles it leaves a node after all its dependents, so the
reversed order puts sources first; that order is given only if it does. -/
namespace MonthlyForecast
open Relation

namespace Precedence

variable {precedence : Precedence} {source dependent node : NodeIndex}

/-- The dependent reads the source, another node. -/
def Before (precedence : Precedence) (source dependent : NodeIndex) : Prop :=
  ⟨source, dependent⟩ ∈ precedence.dependencies ∧ source ≠ dependent

theorem mem_proper_iff :
    ⟨source, dependent⟩ ∈ precedence.proper ↔ precedence.Before source dependent := by
  simp only [proper, Before, List.mem_filter, bne_iff_ne]

theorem mem_successors_iff :
    dependent ∈ precedence.successors source ↔ precedence.Before source dependent := by
  rw [successors, List.mem_eraseDups, ← mem_proper_iff]
  simp only [List.mem_map, List.mem_filter, beq_iff_eq]
  constructor
  · rintro ⟨⟨_, _⟩, ⟨member, rfl⟩, rfl⟩
    exact member
  · exact fun member => ⟨_, ⟨member, rfl⟩, rfl⟩

theorem mem_predecessors_iff :
    source ∈ precedence.predecessors dependent ↔ precedence.Before source dependent := by
  rw [predecessors, List.mem_eraseDups, ← mem_proper_iff]
  simp only [List.mem_map, List.mem_filter, beq_iff_eq]
  constructor
  · rintro ⟨⟨_, _⟩, ⟨member, rfl⟩, rfl⟩
    exact member
  · exact fun member => ⟨_, ⟨member, rfl⟩, rfl⟩

theorem successors_eq_before :
    (fun node successor => successor ∈ precedence.successors node) = precedence.Before := by
  funext node successor
  exact propext mem_successors_iff

theorem predecessors_eq_swap :
    (fun node source => source ∈ precedence.predecessors node) =
      Function.swap precedence.Before := by
  funext node source
  exact propext mem_predecessors_iff

theorem mem_nodes_iff :
    node ∈ precedence.nodes ↔ node ∈ precedence.metrics ∨
      ∃ other, precedence.Before node other ∨ precedence.Before other node := by
  rw [nodes, List.mem_eraseDups, List.mem_append]
  apply or_congr Iff.rfl
  simp only [List.mem_flatMap, List.mem_cons, List.not_mem_nil, or_false, ← mem_proper_iff]
  constructor
  · rintro ⟨⟨source, dependent⟩, member, rfl | rfl⟩
    · exact ⟨dependent, Or.inl member⟩
    · exact ⟨source, Or.inr member⟩
  · rintro ⟨other, member | member⟩
    · exact ⟨_, member, Or.inl rfl⟩
    · exact ⟨_, member, Or.inr rfl⟩

theorem Before.source_mem (before : precedence.Before source dependent) :
    source ∈ precedence.nodes :=
  mem_nodes_iff.mpr (Or.inr ⟨dependent, Or.inl before⟩)

theorem Before.dependent_mem (before : precedence.Before source dependent) :
    dependent ∈ precedence.nodes :=
  mem_nodes_iff.mpr (Or.inr ⟨source, Or.inr before⟩)

end Precedence

/-- A search in progress: the discovered nodes are those that it has left, each once,
and those that are still open. -/
structure Departure.Progress (precedence : Precedence) (opened : List NodeIndex)
    (search : Departure) : Prop where
  discovered_iff : ∀ node, node ∈ search.discovered ↔ node ∈ search.departed ∨ node ∈ opened
  apart : ∀ node ∈ search.departed, node ∉ opened
  departed_nodup : search.departed.Nodup
  departed_nodes : search.departed ⊆ precedence.nodes

/-- What a stretch of the search leaves in place. -/
structure Departure.Extends (precedence : Precedence) (before after : Departure) : Prop where
  departed : before.departed ⊆ after.departed
  unwound : Unwound precedence.successors before.departed →
    Unwound precedence.successors after.departed

namespace Departure

variable {precedence : Precedence} {opened : List NodeIndex} {before middle after : Departure}

theorem Extends.refl (precedence : Precedence) (search : Departure) :
    Extends precedence search search :=
  ⟨fun _ member => member, fun unwound => unwound⟩

theorem Extends.trans (first : Extends precedence before middle)
    (second : Extends precedence middle after) : Extends precedence before after where
  departed := fun _ member => second.departed (first.departed member)
  unwound := fun unwound => second.unwound (first.unwound unwound)

theorem Progress.discovered_subset (start : Progress precedence opened before)
    (finish : Progress precedence opened after) (extension : Extends precedence before after) :
    before.discovered ⊆ after.discovered := by
  intro node discovered
  rw [finish.discovered_iff]
  exact ((start.discovered_iff node).mp discovered).imp_left fun left => extension.departed left

theorem Progress.open_fresh {node : NodeIndex} {search : Departure}
    (progress : Progress precedence opened search) (fresh : node ∉ search.discovered) :
    Progress precedence (node :: opened)
      { search with discovered := node :: search.discovered } where
  discovered_iff := by
    intro other
    simp only [List.mem_cons, progress.discovered_iff]
    tauto
  apart := by
    intro other left
    have inside : other ∈ search.discovered := (progress.discovered_iff other).mpr (Or.inl left)
    rw [List.mem_cons, not_or]
    exact ⟨fun same => fresh (same ▸ inside), progress.apart other left⟩
  departed_nodup := progress.departed_nodup
  departed_nodes := progress.departed_nodes

theorem Progress.leave {node : NodeIndex} {search : Departure}
    (progress : Progress precedence (node :: opened) search) (fresh : node ∉ opened)
    (inside : node ∈ precedence.nodes) :
    Progress precedence opened { search with departed := node :: search.departed } where
  discovered_iff := by
    intro other
    simp only [progress.discovered_iff, List.mem_cons]
    tauto
  apart := by
    intro other left
    rcases List.mem_cons.mp left with rfl | left
    · exact fresh
    · exact fun opened => progress.apart other left (List.mem_cons_of_mem _ opened)
  departed_nodup :=
    List.nodup_cons.mpr ⟨fun left => progress.apart node left List.mem_cons_self,
      progress.departed_nodup⟩
  departed_nodes := List.cons_subset.mpr ⟨inside, progress.departed_nodes⟩

end Departure

namespace Precedence

variable {precedence : Precedence} {node : NodeIndex}

/-- Searching from a node discovers it. Each open node leads to the node, and the depth
suffices for the nodes that are not open. -/
theorem departFrom_spec (depth : Nat) (opened : List NodeIndex) (node : NodeIndex)
    (search : Departure) (progress : search.Progress precedence opened)
    (inside : node ∈ precedence.nodes) (openedDistinct : opened.Nodup)
    (openedInside : opened ⊆ precedence.nodes)
    (leads : ∀ other ∈ opened, TransGen precedence.Before other node)
    (enough : precedence.nodes.length ≤ depth + opened.length) :
    let result := precedence.departFrom depth node search
    result.Progress precedence opened ∧ search.Extends precedence result ∧
      node ∈ result.discovered := by
  induction depth generalizing opened node search with
  | zero =>
    have opened_all : node ∈ opened := by
      by_contra fresh
      have distinct : (node :: opened).Nodup := List.nodup_cons.mpr ⟨fresh, openedDistinct⟩
      have within : node :: opened ⊆ precedence.nodes :=
        List.cons_subset.mpr ⟨inside, openedInside⟩
      have := (distinct.subperm within).length_le
      simp only [List.length_cons] at this
      omega
    exact ⟨progress, .refl precedence search,
      (progress.discovered_iff node).mpr (Or.inr opened_all)⟩
  | succ depth ih =>
    simp only [departFrom]
    split
    · rename_i discovered
      exact ⟨progress, .refl precedence search, discovered⟩
    · rename_i fresh
      have notOpened : node ∉ opened := fun member =>
        fresh ((progress.discovered_iff node).mpr (Or.inr member))
      generalize folded : (precedence.successors node).reverse.foldl _ _ = following
      have successors : following.Progress precedence (node :: opened) ∧
          search.Extends precedence following ∧
          ∀ successor ∈ (precedence.successors node).reverse,
            successor ∈ following.discovered := by
        rw [← folded]
        apply foldl_invariant (fun done state => state.Progress precedence (node :: opened) ∧
          search.Extends precedence state ∧ ∀ successor ∈ done, successor ∈ state.discovered)
        · exact ⟨progress.open_fresh fresh, ⟨fun _ left => left, fun unwound => unwound⟩, by simp⟩
        · rintro done successor state follows ⟨stateProgress, extension, doneDiscovered⟩
          have before := mem_successors_iff.mp (List.mem_reverse.mp follows)
          obtain ⟨nextProgress, further, discovered⟩ := ih (node :: opened) successor state
            stateProgress before.dependent_mem (List.nodup_cons.mpr ⟨notOpened, openedDistinct⟩)
            (List.cons_subset.mpr ⟨inside, openedInside⟩)
            (leads_cons leads before) (by simp only [List.length_cons]; omega)
          have kept := stateProgress.discovered_subset nextProgress further
          exact ⟨nextProgress, extension.trans further, List.forall_mem_append.mpr
            ⟨fun other member => kept (doneDiscovered other member),
              List.forall_mem_singleton.mpr discovered⟩⟩
      obtain ⟨stateProgress, extension, allDiscovered⟩ := successors
      refine ⟨stateProgress.leave notOpened inside, ⟨?_, ?_⟩,
        (stateProgress.discovered_iff node).mpr (Or.inr List.mem_cons_self)⟩
      · intro other left
        exact List.mem_cons_of_mem _ (extension.departed left)
      · intro unwound
        refine ⟨?_, extension.unwound unwound⟩
        intro successor follows
        have discovered := allDiscovered successor (List.mem_reverse.mpr follows)
        -- a successor that the search has not left is open, hence leads to the node
        rcases (stateProgress.discovered_iff successor).mp discovered with left | opened
        · exact Or.inl left
        · rw [successors_eq_before]
          rcases List.mem_cons.mp opened with rfl | opened
          · exact Or.inr .refl
          · exact Or.inr (leads successor opened).to_reflTransGen

/-- The search leaves every node once. -/
theorem searchOrder_spec (precedence : Precedence) :
    precedence.searchOrder.Nodup ∧
      (∀ node, node ∈ precedence.searchOrder ↔ node ∈ precedence.nodes) ∧
      Unwound precedence.successors precedence.searchOrder := by
  unfold searchOrder
  generalize folded : precedence.nodes.foldl _ _ = final
  have whole : final.Progress precedence [] ∧ Departure.Extends precedence ⟨[], []⟩ final ∧
      ∀ node ∈ precedence.nodes, node ∈ final.discovered := by
    rw [← folded]
    apply foldl_invariant (fun done state => state.Progress precedence [] ∧
      Departure.Extends precedence ⟨[], []⟩ state ∧ ∀ node ∈ done, node ∈ state.discovered)
    · exact ⟨⟨by simp, by simp, List.nodup_nil, by simp⟩, .refl precedence _, by simp⟩
    · rintro done node state member ⟨progress, extension, doneDiscovered⟩
      obtain ⟨nextProgress, further, discovered⟩ := departFrom_spec precedence.nodes.length []
        node state progress member List.nodup_nil (by simp) (by simp) (by simp)
      have kept := progress.discovered_subset nextProgress further
      exact ⟨nextProgress, extension.trans further, List.forall_mem_append.mpr
        ⟨fun other member => kept (doneDiscovered other member),
          List.forall_mem_singleton.mpr discovered⟩⟩
  obtain ⟨progress, extension, allDiscovered⟩ := whole
  refine ⟨progress.departed_nodup, ?_, extension.unwound trivial⟩
  intro node
  constructor
  · exact fun left => progress.departed_nodes left
  · intro member
    simpa using (progress.discovered_iff node).mp (allDiscovered node member)

/-! The check of the order found. -/

theorem settled_of_awaitedSource?_eq_none {placed rest : List NodeIndex}
    (settled : Settled precedence.predecessors placed)
    (none : precedence.awaitedSource? placed rest = none) :
    Settled precedence.predecessors (rest.reverse ++ placed) := by
  induction rest generalizing placed with
  | nil => simpa using settled
  | cons node rest ih =>
    unfold awaitedSource? at none
    split at none
    · contradiction
    · rename_i noneAwaited
      have ready : precedence.predecessors node ⊆ placed := by
        intro source member
        by_contra missing
        have empty := List.getLast?_eq_none_iff.mp noneAwaited
        have := List.filter_eq_nil_iff.mp empty source member
        simp [missing] at this
      have placedSettled : Settled precedence.predecessors (node :: placed) := ⟨ready, settled⟩
      simpa using ih placedSettled none

theorem awaitedSource?_eq_none {placed rest : List NodeIndex}
    (distinct : rest.Nodup) (settled : Settled precedence.successors rest)
    (complete : ∀ node ∈ rest, ∀ source ∈ precedence.predecessors node,
      source ∈ placed ∨ source ∈ rest) :
    precedence.awaitedSource? placed rest = none := by
  induction rest generalizing placed with
  | nil => rfl
  | cons node rest ih =>
    have ⟨fresh, restDistinct⟩ := List.nodup_cons.mp distinct
    have ready : precedence.predecessors node ⊆ placed := by
      intro source member
      have before := mem_predecessors_iff.mp member
      have follows := mem_successors_iff.mpr before
      rcases complete node List.mem_cons_self source member with earlier | later
      · exact earlier
      · rcases List.mem_cons.mp later with rfl | later
        · exact absurd rfl before.2
        · exact absurd (settled.2.successors_mem later follows) fresh
    have empty : (precedence.predecessors node).filter (· ∉ placed) = [] := by
      rw [List.filter_eq_nil_iff]
      intro source member
      simpa using ready member
    simp only [awaitedSource?, empty, List.getLast?_nil]
    apply ih restDistinct settled.2
    intro other member source reads
    rcases complete other (List.mem_cons_of_mem _ member) source reads with earlier | later
    · exact Or.inl (List.mem_cons_of_mem _ earlier)
    · rcases List.mem_cons.mp later with rfl | later
      · exact Or.inl List.mem_cons_self
      · exact Or.inr later

/-- A given order holds every node once, with its sources before it. -/
theorem order_eq_ok {order : List NodeIndex} (ordered : precedence.order = .ok order) :
    order.Nodup ∧ (∀ node, node ∈ order ↔ node ∈ precedence.nodes) ∧
      Settled precedence.predecessors order.reverse := by
  unfold Precedence.order at ordered
  obtain ⟨distinct, complete, _⟩ := searchOrder_spec precedence
  split at ordered
  · rename_i none
    cases ordered
    have start : Settled precedence.predecessors [] := trivial
    refine ⟨distinct, complete, ?_⟩
    simpa using settled_of_awaitedSource?_eq_none start none
  · contradiction

/-- An order is given exactly if no node comes before itself. -/
theorem order_ok_iff_acyclic :
    (∃ order, precedence.order = .ok order) ↔ Acyclic precedence.Before := by
  constructor
  · rintro ⟨order, ordered⟩ node cycle
    obtain ⟨_, complete, settled⟩ := order_eq_ok ordered
    obtain ⟨_, before, _⟩ := TransGen.head'_iff.mp cycle
    have member := List.mem_reverse.mpr ((complete node).mpr before.source_mem)
    apply settled.no_cycle member
    rw [predecessors_eq_swap, transGen_swap]
    exact cycle
  · intro acyclic
    obtain ⟨distinct, complete, unwound⟩ := searchOrder_spec precedence
    have none : precedence.awaitedSource? [] precedence.searchOrder = none := by
      apply awaitedSource?_eq_none distinct (unwound.settled (successors_eq_before ▸ acyclic))
      intro node _ source member
      exact Or.inr ((complete source).mpr (mem_predecessors_iff.mp member).source_mem)
    exact ⟨precedence.searchOrder, by simp only [Precedence.order, none]⟩

end Precedence
end MonthlyForecast
