import Mathlib.Logic.Relation
import MonthlyForecast.Graph.Reach
import MonthlyForecast.Proofs.Graph.Adjacency

/-! Which nodes lead to given ones: those with a path of links to one of them, from
whichever packed form the links are read. The search keeps its pending nodes in a queue and
may queue a node once for every link out of it. Each of its rounds uses up one queued node and
queues a node only for a link that no round has used before, so there are no more rounds than
targets and links together, also where links form cycles. -/
namespace MonthlyForecast
open Relation

namespace QueueSearch

/-- Nothing but the targets and what they lead to is found or queued, and nothing of it is
forgotten: what a found node leads to in one step has been found or is queued. -/
structure Progress (next : NodeIndex → List NodeIndex) (targets : List NodeIndex)
    (search : QueueSearch) : Prop where
  distinct : search.found.Nodup
  targets_held : ∀ target ∈ targets, target ∈ search.found ∨ target ∈ search.queue
  steps_held : ∀ node ∈ search.found, ∀ successor ∈ next node,
    successor ∈ search.found ∨ successor ∈ search.queue
  reached : ∀ node, node ∈ search.found ∨ node ∈ search.queue →
    ∃ target ∈ targets, ReflTransGen (fun node successor => successor ∈ next node) target node

variable {next : NodeIndex → List NodeIndex} {targets : List NodeIndex} {search : QueueSearch}
  {node : NodeIndex} {rounds : Nat}

theorem round_of_nil (empty : search.queue = []) : search.round next = search := by
  obtain ⟨found, queue⟩ := search
  cases empty
  rfl

theorem Progress.round (progress : Progress next targets search) :
    Progress next targets (search.round next) := by
  obtain ⟨found, _ | ⟨node, queue⟩⟩ := search
  · exact progress
  obtain ⟨distinct, targetsHeld, stepsHeld, reached⟩ := progress
  simp only [QueueSearch.round]
  split
  · rename_i known
    have kept : ∀ other, other ∈ found ∨ other ∈ node :: queue → other ∈ found ∨ other ∈ queue := by
      rintro other (earlier | pending)
      · exact Or.inl earlier
      · rcases List.mem_cons.mp pending with rfl | pending
        · exact Or.inl known
        · exact Or.inr pending
    exact ⟨distinct, fun target member => kept _ (targetsHeld target member),
      fun other member successor follows => kept _ (stepsHeld other member successor follows),
      fun other member => reached other (member.imp_right (List.mem_cons_of_mem _))⟩
  · rename_i fresh
    have kept : ∀ other, other ∈ found ∨ other ∈ node :: queue →
        other ∈ node :: found ∨ other ∈ queue ++ next node := by
      rintro other (earlier | pending)
      · exact Or.inl (List.mem_cons_of_mem _ earlier)
      · rcases List.mem_cons.mp pending with rfl | pending
        · exact Or.inl List.mem_cons_self
        · exact Or.inr (List.mem_append_left _ pending)
    refine ⟨List.nodup_cons.mpr ⟨fresh, distinct⟩,
      fun target member => kept _ (targetsHeld target member), ?_, ?_⟩
    · intro other member successor follows
      rcases List.mem_cons.mp member with rfl | earlier
      · exact Or.inr (List.mem_append_right _ follows)
      · exact kept _ (stepsHeld other earlier successor follows)
    · obtain ⟨start, among, path⟩ := reached node (Or.inr List.mem_cons_self)
      rintro other (member | member)
      · rcases List.mem_cons.mp member with rfl | earlier
        · exact ⟨start, among, path⟩
        · exact reached other (Or.inl earlier)
      · rcases List.mem_append.mp member with pending | follows
        · exact reached other (Or.inr (List.mem_cons_of_mem _ pending))
        · exact ⟨start, among, path.tail follows⟩

theorem progress_after (next : NodeIndex → List NodeIndex) (targets : List NodeIndex)
    (rounds : Nat) : Progress next targets (after next targets rounds) := by
  induction rounds with
  | zero =>
    exact ⟨List.nodup_nil, fun _ => Or.inr, by simp [after],
      fun node member => ⟨node, by simpa [after] using member, .refl⟩⟩
  | succ rounds ih => exact ih.round

/-- With an empty queue all that the targets lead to has been found. -/
theorem Progress.mem_found_iff (progress : Progress next targets search)
    (done : search.queue = []) : node ∈ search.found ↔ ∃ target ∈ targets,
      ReflTransGen (fun node successor => successor ∈ next node) target node := by
  constructor
  · exact fun member => progress.reached node (Or.inl member)
  · rintro ⟨target, among, path⟩
    induction path with
    | refl => simpa [done] using progress.targets_held target among
    | tail _ follows ih => simpa [done] using progress.steps_held _ ih _ follows

end QueueSearch

namespace Graph

variable {graph : Graph} {targets : List NodeIndex} {node : NodeIndex} {search : QueueSearch}
  {rounds : Nat}

/-- What a search against the links has yet to do: look at the queued nodes, and queue the
sources of the links into nodes that it has not found. -/
def workLeft (graph : Graph) (search : QueueSearch) : Nat :=
  search.queue.length + graph.links.countP (·.target ∉ search.found)

theorem countP_target_of_fresh {found : List NodeIndex} (fresh : node ∉ found) :
    graph.links.countP (·.target ∉ found) =
      (graph.parents node).length + graph.links.countP (·.target ∉ node :: found) := by
  rw [parents, List.length_map, ← List.countP_eq_length_filter]
  induction graph.links with
  | nil => rfl
  | cons link rest ih =>
    rw [List.countP_cons, List.countP_cons, List.countP_cons, ih]
    by_cases into : link.target = node
    · simp [into, fresh]
      omega
    · simp [into]
      omega

/-- A round does one piece of the work. -/
theorem workLeft_round (pending : search.queue ≠ []) :
    graph.workLeft (search.round graph.parents) + 1 = graph.workLeft search := by
  obtain ⟨found, _ | ⟨node, queue⟩⟩ := search
  · exact absurd rfl pending
  simp only [QueueSearch.round]
  split
  · simp only [workLeft, List.length_cons]
    omega
  · rename_i fresh
    simp only [workLeft, List.length_cons, List.length_append, countP_target_of_fresh fresh]
    omega

theorem queue_after_eq_nil (enough : targets.length + graph.links.length ≤ rounds) :
    (QueueSearch.after graph.parents targets rounds).queue = [] := by
  have done : ∀ rounds, (QueueSearch.after graph.parents targets rounds).queue = [] ∨
      graph.workLeft (.after graph.parents targets rounds) + rounds =
        targets.length + graph.links.length := by
    intro rounds
    induction rounds with
    | zero => exact Or.inr (by simp [workLeft, QueueSearch.after])
    | succ rounds ih =>
      rw [QueueSearch.after]
      by_cases empty : (QueueSearch.after graph.parents targets rounds).queue = []
      · exact Or.inl (by rw [QueueSearch.round_of_nil empty, empty])
      · have := ih.resolve_left empty
        have := graph.workLeft_round empty
        exact Or.inr (by omega)
  rcases done rounds with empty | left
  · exact empty
  · have : (QueueSearch.after graph.parents targets rounds).queue.length = 0 := by
      simp only [workLeft] at left
      omega
    exact List.length_eq_zero_iff.mp this

theorem mem_parents_eq_swap (graph : Graph) :
    (fun node parent => parent ∈ graph.parents node) = Function.swap graph.Linked := by
  funext node parent
  exact propext mem_parents_iff

/-- More rounds than the search needs change nothing. -/
theorem after_eq (enough : targets.length + graph.links.length ≤ rounds) :
    QueueSearch.after graph.parents targets rounds = ⟨graph.leadingTo targets, []⟩ := by
  obtain ⟨more, rfl⟩ := Nat.exists_eq_add_of_le enough
  clear enough
  induction more with
  | zero =>
    have done := graph.queue_after_eq_nil (Nat.le_refl (targets.length + graph.links.length))
    exact congrArg (QueueSearch.mk _) done
  | succ more ih => rw [← Nat.add_assoc, QueueSearch.after, ih, QueueSearch.round_of_nil rfl]

theorem leadingTo_nodup (graph : Graph) (targets : List NodeIndex) :
    (graph.leadingTo targets).Nodup :=
  (QueueSearch.progress_after ..).distinct

theorem mem_leadingTo_iff :
    node ∈ graph.leadingTo targets ↔
      ∃ target ∈ targets, ReflTransGen graph.Linked node target := by
  have progress := QueueSearch.progress_after graph.parents targets
    (targets.length + graph.links.length)
  rw [leadingTo, progress.mem_found_iff (queue_after_eq_nil (Nat.le_refl _)), mem_parents_eq_swap]
  simp only [reflTransGen_swap]

/-- The search back from some nodes of a graph finds exactly the nodes with a path to one of
them, each once, whether a path is read from the chains of targets or from the blocks of
sources. However links run, it comes to its end in a bounded number of rounds. -/
theorem leadingTo_exact (nodes : List Node) (edges : List Edge) (targets : List NodeIndex) :
    let graph := Graph.ofLists nodes edges
    let adjacency := Adjacency.ofGraph graph
    (graph.leadingTo targets).Nodup ∧
      (∀ node, node ∈ graph.leadingTo targets ↔ ∃ target ∈ targets,
        ReflTransGen (fun source target => target ∈ adjacency.targetsOf source) node target) ∧
      (∀ node, node ∈ graph.leadingTo targets ↔ ∃ target ∈ targets,
        ReflTransGen (fun source target => source ∈ adjacency.sourcesOf target) node target) ∧
      ∀ rounds, targets.length + graph.links.length ≤ rounds →
        QueueSearch.after adjacency.sourcesOf targets rounds =
          ⟨graph.leadingTo targets, []⟩ := by
  intro graph adjacency
  have resolved : graph.Resolved := ofLists_resolved nodes edges
  have forwards : (fun source target => target ∈ adjacency.targetsOf source) = graph.Linked := by
    funext source target
    exact propext (Adjacency.mem_targetsOf_iff resolved)
  have backwards : (fun source target => source ∈ adjacency.sourcesOf target) = graph.Linked := by
    funext source target
    exact propext (Adjacency.mem_sourcesOf_iff resolved)
  have sources : adjacency.sourcesOf = graph.parents :=
    funext (Adjacency.sourcesOf_ofGraph resolved)
  rw [forwards, backwards, sources]
  exact ⟨leadingTo_nodup graph targets, fun _ => mem_leadingTo_iff, fun _ => mem_leadingTo_iff,
    fun _ => after_eq⟩

/-- A price and a demand that depend on each other lead to a revenue, and a tax does not. -/
example :
    (Graph.ofLists
      [⟨"price", .operator .divide ["demand"], none⟩, ⟨"demand", .operator .add ["price"], none⟩,
        ⟨"revenue", .operator .multiply ["price", "demand"], none⟩,
        ⟨"tax", .constant "Tax" 2, none⟩]
      [⟨"a", "price", "demand"⟩, ⟨"b", "demand", "price"⟩, ⟨"c", "price", "revenue"⟩,
        ⟨"d", "demand", "revenue"⟩]).leadingTo [2, 2] = [1, 0, 2] := by
  decide +kernel

end Graph
end MonthlyForecast
