import MonthlyForecast.Proofs.Graph.SimpleCycles

/-! Which nodes the listed cycles name. A node is named exactly if links lead from it back to
it past nodes that the search has not left by the time it enters the node; what it has left by
then is told from the links and the order of starts and children. A node all of whose cycles
run through nodes left before stays unnamed, but no cycle is passed over: each has a link that
ends a listed one. -/
namespace MonthlyForecast
open Relation

namespace Graph

/-- The node occurs in a listed cycle. -/
def Named (graph : Graph) (node : NodeIndex) : Prop :=
  ∃ cycle ∈ graph.cycles, node ∈ cycle

/-- Links lead from the start to the node without meeting an open node. -/
def Reaches (graph : Graph) (opened : List NodeIndex) (start node : NodeIndex) : Prop :=
  start ∉ opened ∧
    ReflTransGen (fun source target => graph.Linked source target ∧ target ∉ opened) start node

/-- A search from the starts, one after another, while some nodes are open: it has left the
first node by the time it enters the second one. -/
inductive LeftBefore (graph : Graph) :
    List NodeIndex → List NodeIndex → NodeIndex → NodeIndex → Prop where
  /-- The first node is found from a start that does not lead to the second one. -/
  | found {opened starts : List NodeIndex} {start other node : NodeIndex}
      (misses : ¬ graph.Reaches opened start node) (finds : graph.Reaches opened start other) :
      LeftBefore graph opened (start :: starts) other node
  /-- A start that leads to neither decides nothing. -/
  | later {opened starts : List NodeIndex} {start other node : NodeIndex}
      (misses : ¬ graph.Reaches opened start node)
      (left : LeftBefore graph opened starts other node) :
      LeftBefore graph opened (start :: starts) other node
  /-- On the way from a start to the second node its children decide. -/
  | through {opened starts : List NodeIndex} {start other node : NodeIndex}
      (apart : start ≠ node) (finds : graph.Reaches opened start node)
      (left : LeftBefore graph (start :: opened) (graph.children start) other node) :
      LeftBefore graph opened (start :: starts) other node

/-- Links lead from the node back to it past nodes that are not left before it is entered. -/
def Recurs (graph : Graph) (node : NodeIndex) : Prop :=
  TransGen (fun source target => graph.Linked source target ∧
    ¬ graph.LeftBefore [] graph.indices target node) node node

/-- The children of a node to which no link has been listed at the end of a cycle. -/
def unlisted (graph : Graph) (cycles : List (List NodeIndex)) (node : NodeIndex) :
    List NodeIndex :=
  (graph.children node).filter fun child => ∀ cycle ∈ cycles, ¬ [node, child] <:+ cycle

variable {graph : Graph} {opened starts path cycle : List NodeIndex}
  {start node other target child : NodeIndex}

/-! Paths past open nodes. -/

theorem reaches_self (fresh : node ∉ opened) : graph.Reaches opened node node :=
  ⟨fresh, .refl⟩

theorem Reaches.fresh (reaches : graph.Reaches opened start node) : node ∉ opened := by
  rcases reaches.2.cases_tail with rfl | ⟨_, _, _, fresh⟩
  · exact reaches.1
  · exact fresh

theorem Reaches.step (reaches : graph.Reaches opened start node) (linked : graph.Linked node other)
    (fresh : other ∉ opened) : graph.Reaches opened start other :=
  ⟨reaches.1, reaches.2.tail ⟨linked, fresh⟩⟩

/-- A path need not come back to its start. -/
theorem reaches_iff_below (fresh : start ∉ opened) :
    graph.Reaches opened start node ↔ node = start ∨
      ∃ child ∈ graph.children start, graph.Reaches (start :: opened) child node := by
  constructor
  · rintro ⟨_, steps⟩
    induction steps with
    | refl => exact Or.inl rfl
    | @tail middle last _ step ih =>
      by_cases back : last = start
      · exact Or.inl back
      have apart : last ∉ start :: opened := by
        simp [back, step.2]
      rcases ih with rfl | ⟨child, follows, below⟩
      · exact Or.inr ⟨last, mem_children_iff.mpr step.1, reaches_self apart⟩
      · exact Or.inr ⟨child, follows, below.step step.1 apart⟩
  · rintro (rfl | ⟨child, follows, apart, steps⟩)
    · exact reaches_self fresh
    · refine ⟨fresh, .head ⟨mem_children_iff.mp follows, ?_⟩ ?_⟩
      · exact fun member => apart (List.mem_cons_of_mem _ member)
      · exact steps.lift id fun _ _ step =>
          ⟨step.1, fun member => step.2 (List.mem_cons_of_mem _ member)⟩

theorem leftBefore_iff_of_misses (misses : ¬ graph.Reaches opened start node) :
    graph.LeftBefore opened (start :: starts) other node ↔
      graph.Reaches opened start other ∨ graph.LeftBefore opened starts other node := by
  constructor
  · rintro (⟨_, finds⟩ | ⟨_, left⟩ | ⟨_, finds, _⟩)
    · exact Or.inl finds
    · exact Or.inr left
    · exact absurd finds misses
  · rintro (finds | left)
    · exact .found misses finds
    · exact .later misses left

theorem leftBefore_iff_below (apart : start ≠ node) (finds : graph.Reaches opened start node) :
    graph.LeftBefore opened (start :: starts) other node ↔
      graph.LeftBefore (start :: opened) (graph.children start) other node := by
  constructor
  · rintro (⟨misses, _⟩ | ⟨misses, _⟩ | ⟨_, _, left⟩)
    · exact absurd finds misses
    · exact absurd finds misses
    · exact left
  · exact .through apart finds

theorem not_leftBefore_start (fresh : start ∉ opened) :
    ¬ graph.LeftBefore opened (start :: starts) other start := by
  rintro (⟨misses, _⟩ | ⟨misses, _⟩ | ⟨apart, _, _⟩)
  · exact misses (reaches_self fresh)
  · exact misses (reaches_self fresh)
  · exact apart rfl

/-! Closed paths. -/

theorem closePath_subset (onPath : target ∈ path) : closePath path target ⊆ path := by
  intro node member
  simp only [closePath, List.cons_append, List.mem_cons, List.mem_append, List.mem_reverse,
    List.not_mem_nil, or_false] at member
  rcases member with rfl | among | rfl
  · exact onPath
  · exact (List.takeWhile_sublist _).subset among
  · exact onPath

theorem closePath_subset_cons (apart : node ≠ target) :
    closePath path target ⊆ closePath (node :: path) target := by
  intro other
  simp only [closePath, List.takeWhile_cons, bne_iff_ne.mpr apart, if_true]
  simp only [List.cons_append, List.mem_cons, List.mem_append, List.mem_reverse,
    List.not_mem_nil, or_false]
  tauto

theorem latest_mem_closePath : node ∈ closePath (node :: path) target := by
  by_cases same : node = target <;> simp [closePath, same]

theorem suffix_closePath : [node, target] <:+ closePath (node :: path) target := by
  by_cases same : node = target
  · simp [closePath, same]
  · refine ⟨target :: (path.takeWhile (· != target)).reverse, ?_⟩
    simp [closePath, same]

/-- From every node of a simple cycle links lead back to it along the cycle. -/
theorem SimpleCycle.transGen (simple : graph.SimpleCycle cycle) (member : node ∈ cycle) :
    TransGen (fun source target => graph.Linked source target ∧ target ∈ cycle) node node := by
  obtain ⟨first, between, rfl, _, chain⟩ := simple
  have paths : (first :: between ++ [first]).Pairwise (TransGen fun source target =>
      graph.Linked source target ∧ target ∈ first :: between ++ [first]) := by
    rw [← List.isChain_iff_pairwise]
    exact (List.IsChain.iff_mem.mp chain).imp fun _ _ step => .single ⟨step.2.2, step.2.1⟩
  rw [List.pairwise_append, List.pairwise_cons] at paths
  obtain ⟨⟨forwards, _⟩, _, back⟩ := paths
  have around := back first List.mem_cons_self first List.mem_cons_self
  rcases List.mem_append.mp member with inner | last
  · rcases List.mem_cons.mp inner with rfl | inner
    · exact around
    · exact (back node (List.mem_cons_of_mem _ inner) first List.mem_cons_self).trans
        (forwards node inner)
  · exact List.mem_singleton.mp last ▸ around

/-- As long as a search from the starts goes on, what it has left when it enters a node is
what it has left now and what it still leaves before. -/
def Foretold (graph : Graph) (path starts : List NodeIndex) (search : CycleSearch) : Prop :=
  ∀ node ∉ search.finished, (∃ start ∈ starts, graph.Reaches path start node) →
    ∀ other, graph.LeftBefore [] graph.indices other node ↔
      other ∈ search.finished ∨ graph.LeftBefore path starts other node

end Graph

/-- A search under way. What it has left leads only to that and to the open nodes, and nothing
that it had left when an open node was entered is open now. -/
structure CycleSearch.Underway (graph : Graph) (path : List NodeIndex) (search : CycleSearch) :
    Prop where
  opened : graph.OpenPath path
  progress : search.Progress graph path
  closed : ∀ node ∈ search.finished, ∀ child, graph.Linked node child →
    child ∈ search.finished ∨ child ∈ path
  settled : Settled (graph.unlisted search.cycles) search.finished
  entered : ∀ node ∈ path, ∀ other, graph.LeftBefore [] graph.indices other node →
    other ∈ search.finished
  together : ∀ cycle ∈ search.cycles, ∀ node ∈ cycle, ∀ other ∈ cycle,
    ¬ graph.LeftBefore [] graph.indices other node

/-- What a search from the starts does while the nodes of the path are open. -/
structure CycleSearch.Searched (graph : Graph) (path starts : List NodeIndex)
    (before after : CycleSearch) : Prop where
  underway : after.Underway graph path
  finished_iff : ∀ node, node ∈ after.finished ↔
    node ∈ before.finished ∨ ∃ start ∈ starts, graph.Reaches path start node
  kept : before.cycles ⊆ after.cycles
  /-- A start that is open closes a cycle. -/
  closes : ∀ start ∈ starts, start ∈ path → Graph.closePath path start ∈ after.cycles
  /-- So does a link from a node that is found to an open one. -/
  reopens : ∀ node ∈ after.finished, node ∉ before.finished → ∀ target ∈ path,
    graph.Linked node target → ∃ cycle ∈ after.cycles, Graph.closePath path target ⊆ cycle
  named : ∀ node ∈ after.finished, node ∉ before.finished → graph.Recurs node →
    ∃ cycle ∈ after.cycles, node ∈ cycle

namespace CycleSearch

variable {graph : Graph} {path starts later : List NodeIndex} {start node child : NodeIndex}
  {search before middle after : CycleSearch} {depth : Nat}

theorem unlisted_mono {cycles more : List (List NodeIndex)} (kept : cycles ⊆ more)
    (node : NodeIndex) : graph.unlisted more node ⊆ graph.unlisted cycles node := by
  intro child
  simp only [Graph.unlisted, List.mem_filter, decide_eq_true_eq]
  exact fun ⟨follows, never⟩ => ⟨follows, fun cycle among => never cycle (kept among)⟩

theorem Underway.reached (underway : search.Underway graph path) (left : start ∈ search.finished)
    (reaches : graph.Reaches path start node) : node ∈ search.finished := by
  obtain ⟨_, steps⟩ := reaches
  induction steps with
  | refl => exact left
  | tail _ step ih => exact (underway.closed _ ih _ step.1).resolve_right step.2

/-- A link back into the open path. -/
theorem Underway.close (underway : search.Underway graph (node :: path))
    (linked : graph.Linked node start) (onPath : start ∈ node :: path) :
    Searched graph (node :: path) [start] search
      { search with cycles := search.cycles ++ [Graph.closePath (node :: path) start] } where
  underway :=
    { opened := underway.opened
      progress := underway.progress.close (underway.opened.simpleCycle_closePath linked onPath)
      closed := underway.closed
      settled := underway.settled.mono (unlisted_mono (List.subset_append_left _ _))
      entered := underway.entered
      together := by
        refine List.forall_mem_append.mpr ⟨underway.together, List.forall_mem_singleton.mpr ?_⟩
        intro first among second among' left
        exact underway.progress.apart _
          (underway.entered first (Graph.closePath_subset onPath among) second left)
          (Graph.closePath_subset onPath among') }
  finished_iff := by
    intro other
    have off : ¬ graph.Reaches (node :: path) start other := fun reaches => reaches.1 onPath
    simp [off]
  kept := List.subset_append_left _ _
  closes := by simp
  reopens := fun _ left fresh => absurd left fresh
  named := fun _ left fresh => absurd left fresh

/-- A start that has been left already. -/
theorem Underway.pass (underway : search.Underway graph path) (left : start ∈ search.finished) :
    Searched graph path [start] search search where
  underway := underway
  finished_iff := by
    intro node
    simp only [List.mem_singleton, exists_eq_left]
    exact ⟨Or.inl, fun found => found.elim id (underway.reached left)⟩
  kept := List.Subset.refl _
  closes := by
    intro other member onPath
    obtain rfl := List.mem_singleton.mp member
    exact absurd onPath (underway.progress.apart other left)
  reopens := fun _ left fresh => absurd left fresh
  named := fun _ left fresh => absurd left fresh

theorem Underway.rest (underway : search.Underway graph path) :
    Searched graph path [] search search where
  underway := underway
  finished_iff := by simp
  kept := List.Subset.refl _
  closes := by simp
  reopens := fun _ left fresh => absurd left fresh
  named := fun _ left fresh => absurd left fresh

theorem Searched.trans (first : Searched graph path [start] before middle)
    (others : Searched graph path starts middle after) :
    Searched graph path (start :: starts) before after where
  underway := others.underway
  finished_iff := by
    intro node
    rw [others.finished_iff, first.finished_iff]
    simp [or_assoc]
  kept := List.Subset.trans first.kept others.kept
  closes := by
    refine List.forall_mem_cons.mpr ⟨fun onPath => ?_, others.closes⟩
    exact others.kept (first.closes start List.mem_cons_self onPath)
  reopens := by
    intro node left fresh target onPath linked
    by_cases found : node ∈ middle.finished
    · obtain ⟨cycle, among, within⟩ := first.reopens node found fresh target onPath linked
      exact ⟨cycle, others.kept among, within⟩
    · exact others.reopens node left found target onPath linked
  named := by
    intro node left fresh recurs
    by_cases found : node ∈ middle.finished
    · obtain ⟨cycle, among, within⟩ := first.named node found fresh recurs
      exact ⟨cycle, others.kept among, within⟩
    · exact others.named node left found recurs

end CycleSearch

namespace Graph

variable {graph : Graph} {path starts later : List NodeIndex} {start node child : NodeIndex}
  {search before middle after : CycleSearch} {depth : Nat}

/-- After the first start, the others. -/
theorem Foretold.tail (foretold : graph.Foretold path (start :: starts) before)
    (searched : CycleSearch.Searched graph path [start] before after) :
    graph.Foretold path starts after := by
  rintro node fresh ⟨other, among, reaches⟩ left
  have finished_iff := fun node => by simpa using searched.finished_iff node
  obtain ⟨notBefore, misses⟩ := not_or.mp (mt (finished_iff node).mpr fresh)
  rw [foretold node notBefore ⟨other, List.mem_cons_of_mem _ among, reaches⟩,
    leftBefore_iff_of_misses misses, finished_iff, or_assoc]

/-- What has been left when the search enters a start is what was left before it. -/
theorem Foretold.head (foretold : graph.Foretold path (start :: starts) search)
    (fresh : start ∉ search.finished) (offPath : start ∉ path) (other : NodeIndex) :
    graph.LeftBefore [] graph.indices other start ↔ other ∈ search.finished := by
  rw [foretold start fresh ⟨start, List.mem_cons_self, reaches_self offPath⟩]
  exact or_iff_left (not_leftBefore_start offPath)

/-- Below a start, its children. -/
theorem Foretold.enter (foretold : graph.Foretold path (start :: starts) search)
    (offPath : start ∉ path) : graph.Foretold (start :: path) (graph.children start) search := by
  rintro node fresh ⟨child, follows, below⟩ other
  have reaches := (reaches_iff_below offPath).mpr (Or.inr ⟨child, follows, below⟩)
  have apart : start ≠ node := fun same => below.fresh (same ▸ List.mem_cons_self)
  rw [foretold node fresh ⟨start, List.mem_cons_self, reaches⟩, leftBefore_iff_below apart reaches]

end Graph

namespace CycleSearch

variable {graph : Graph} {path starts later : List NodeIndex} {node : NodeIndex}
  {search before after : CycleSearch} {step : CycleSearch → NodeIndex → CycleSearch}

theorem Searched.foldl
    (searches : ∀ start ∈ starts, ∀ later state, Underway graph path state →
      graph.Foretold path (start :: later) state →
      Searched graph path [start] state (step state start))
    (underway : before.Underway graph path) (foretold : graph.Foretold path starts before) :
    Searched graph path starts before (starts.foldl step before) := by
  induction starts generalizing before with
  | nil => exact underway.rest
  | cons start rest ih =>
    have first := searches start List.mem_cons_self rest before underway foretold
    exact first.trans (ih (fun other among => searches other (List.mem_cons_of_mem _ among))
      first.underway (foretold.tail first))

/-- A new node becomes the latest open one. -/
theorem Underway.enter (underway : search.Underway graph path)
    (opened : graph.OpenPath (node :: path)) (fresh : node ∉ search.finished)
    (foretold : graph.Foretold path (node :: later) search) :
    search.Underway graph (node :: path) where
  opened := opened
  progress := underway.progress.enter fresh
  closed := fun other left child linked =>
    (underway.closed other left child linked).imp_right (List.mem_cons_of_mem _)
  settled := underway.settled
  entered := by
    have offPath := (List.nodup_cons.mp opened.distinct).1
    exact List.forall_mem_cons.mpr
      ⟨fun other => (foretold.head fresh offPath other).mp, underway.entered⟩
  together := underway.together

/-- The children of the latest open node are all left or open. -/
theorem Searched.child_left (searched : Searched graph path (graph.children node) before after)
    {child : NodeIndex} (linked : graph.Linked node child) :
    child ∈ after.finished ∨ child ∈ path := by
  by_cases onPath : child ∈ path
  · exact Or.inr onPath
  · exact Or.inl ((searched.finished_iff child).mpr
      (Or.inr ⟨child, Graph.mem_children_iff.mpr linked, Graph.reaches_self onPath⟩))

/-- The first node that a walk from the latest open node finds open again closes a cycle
through the latter. -/
theorem Searched.walk
    (searched : Searched graph (node :: path) (graph.children node) before after)
    {last : NodeIndex} (walk : TransGen (fun source target =>
      graph.Linked source target ∧ target ∉ before.finished) node last) :
    (∃ cycle ∈ after.cycles, node ∈ cycle) ∨ last ∈ after.finished ∧ last ∉ before.finished := by
  induction walk with
  | @single child step =>
    rcases searched.child_left step.1 with left | onPath
    · exact Or.inr ⟨left, step.2⟩
    · exact Or.inl ⟨_, searched.closes child (Graph.mem_children_iff.mpr step.1) onPath,
        Graph.latest_mem_closePath⟩
  | @tail middle child _ step ih =>
    rcases ih with named | ⟨found, fresh⟩
    · exact Or.inl named
    · rcases searched.underway.closed middle found child step.1 with left | onPath
      · exact Or.inr ⟨left, step.2⟩
      · obtain ⟨cycle, among, within⟩ := searched.reopens middle found fresh child onPath step.1
        exact Or.inl ⟨cycle, among, within Graph.latest_mem_closePath⟩

/-- Leaving the latest open node keeps the state of the search. A child that is open has closed
a cycle with the link to it, so the links that are still unlisted lead to what is left. -/
theorem Searched.underway_leave (opened : graph.OpenPath path)
    (searched : Searched graph (node :: path) (graph.children node) before after) :
    { after with finished := node :: after.finished : CycleSearch }.Underway graph path where
  opened := opened
  progress := searched.underway.progress.leave searched.underway.opened
  closed := by
    have here (child : NodeIndex) (known : child ∈ after.finished ∨ child ∈ node :: path) :
        child ∈ node :: after.finished ∨ child ∈ path := by
      simp only [List.mem_cons] at known ⊢
      tauto
    refine List.forall_mem_cons.mpr ⟨fun child linked => ?_, fun other left child linked => ?_⟩
    · exact here child (searched.child_left linked)
    · exact here child (searched.underway.closed other left child linked)
  settled := by
    refine ⟨fun child among => ?_, searched.underway.settled⟩
    obtain ⟨follows, never⟩ := List.mem_filter.mp among
    refine (searched.child_left (Graph.mem_children_iff.mp follows)).resolve_right ?_
    intro onPath
    exact of_decide_eq_true never _ (searched.closes child follows onPath) Graph.suffix_closePath
  entered := fun other among earlier left => List.mem_cons_of_mem _
    (searched.underway.entered other (List.mem_cons_of_mem _ among) earlier left)
  together := searched.underway.together

/-- The latest open node is left once its children have been searched. -/
theorem Searched.leave (underway : before.Underway graph path)
    (fresh : node ∉ before.finished) (foretold : graph.Foretold path (node :: later) before)
    (searched : Searched graph (node :: path) (graph.children node) before after) :
    Searched graph path [node] before { after with finished := node :: after.finished } := by
  have offPath : node ∉ path := (List.nodup_cons.mp searched.underway.opened.distinct).1
  have notLeft : node ∉ after.finished :=
    fun left => searched.underway.progress.apart node left List.mem_cons_self
  exact {
    underway := searched.underway_leave underway.opened
    finished_iff := by
      intro other
      simp only [List.mem_cons, searched.finished_iff, List.not_mem_nil, or_false, exists_eq_left,
        Graph.reaches_iff_below offPath]
      tauto
    kept := searched.kept
    closes := List.forall_mem_singleton.mpr fun onPath => absurd onPath offPath
    reopens := by
      intro source left new target onPath linked
      have apart : node ≠ target := fun same => offPath (same ▸ onPath)
      rcases List.mem_cons.mp left with rfl | below
      · exact ⟨_, searched.closes target (Graph.mem_children_iff.mpr linked)
          (List.mem_cons_of_mem _ onPath), Graph.closePath_subset_cons apart⟩
      · obtain ⟨cycle, among, within⟩ := searched.reopens source below new target
          (List.mem_cons_of_mem _ onPath) linked
        exact ⟨cycle, among, List.Subset.trans (Graph.closePath_subset_cons apart) within⟩
    named := by
      intro other left new recurs
      rcases List.mem_cons.mp left with rfl | below
      · -- What is left before the node is entered is what the search had left then, so the walk
        -- back stays among what is found now and comes upon an open node.
        refine (searched.walk (recurs.lift id fun _ target step => ⟨step.1, ?_⟩)).resolve_right
          fun again => notLeft again.1
        exact fun earlier => step.2 ((foretold.head fresh offPath target).mpr earlier)
      · exact searched.named other below new recurs }

end CycleSearch

namespace Graph

variable {graph : Graph} {path later : List NodeIndex} {node : NodeIndex} {search : CycleSearch}

theorem searchFrom_searched (resolved : graph.Resolved) (depth : Nat)
    (opened : graph.OpenPath (node :: path)) (underway : search.Underway graph path)
    (fresh : node ∉ search.finished) (foretold : graph.Foretold path (node :: later) search)
    (enough : graph.size ≤ depth + path.length) :
    CycleSearch.Searched graph path [node] search (graph.searchFrom depth path node search) := by
  induction depth generalizing path node search later with
  | zero =>
    have := opened.length_le
    simp only [List.length_cons] at this
    omega
  | succ depth ih =>
    simp only [searchFrom]
    have offPath := (List.nodup_cons.mp opened.distinct).1
    refine .leave underway fresh foretold (.foldl ?_ (underway.enter opened fresh foretold)
      (foretold.enter offPath))
    intro child follows rest state sofar ahead
    have linked := mem_children_iff.mp follows
    split
    · rename_i onPath
      exact sofar.close linked onPath
    · rename_i offPath
      split
      · rename_i finished
        exact sofar.pass finished
      · rename_i unfinished
        exact ih (opened.extend resolved linked offPath) sofar unfinished ahead
          (by simp only [List.length_cons]; omega)

theorem cycleSearch_searched (resolved : graph.Resolved) :
    CycleSearch.Searched graph [] graph.indices ⟨[], []⟩ graph.cycleSearch := by
  refine .foldl ?_ ?_ ?_
  · intro node member rest state sofar ahead
    have inside : node < graph.size := List.mem_range.mp member
    split
    · rename_i finished
      exact sofar.pass finished
    · rename_i unfinished
      have opened : graph.OpenPath [node] := ⟨by simp, by simpa using inside, .singleton node⟩
      exact searchFrom_searched resolved graph.size opened sofar unfinished ahead (by simp)
  · exact
      { opened := ⟨by simp, by simp, .nil⟩
        progress := ⟨by simp, List.nodup_nil, by simp, by simp⟩
        closed := by simp
        settled := trivial
        entered := by simp
        together := by simp }
  · intro node _ _ other
    simp

/-- The nodes of a listed cycle are those that links lead back to past nodes that the search
has not left before it enters them. -/
theorem named_iff_recurs (resolved : graph.Resolved) : graph.Named node ↔ graph.Recurs node := by
  have searched := cycleSearch_searched resolved
  constructor
  · rintro ⟨cycle, listed, member⟩
    have simple := (cycleSearch_progress resolved).simple cycle listed
    refine (simple.transGen member).lift id fun _ target step => ⟨step.1, ?_⟩
    exact searched.underway.together cycle listed node member target step.2
  · intro recurs
    obtain ⟨child, step, _⟩ := TransGen.head'_iff.mp recurs
    have inside : node ∈ graph.indices := List.mem_range.mpr (resolved.links_inside step.1).1
    exact searched.named node ((cycleSearch_extends resolved).2 node inside) (by simp) recurs

/-- No cycle goes without a link that ends a listed one. -/
theorem unlisted_acyclic (resolved : graph.Resolved) :
    Acyclic fun source target => graph.Linked source target ∧
      ∀ cycle ∈ graph.cycles, ¬ [source, target] <:+ cycle := by
  have searched := cycleSearch_searched resolved
  intro node around
  obtain ⟨child, step, _⟩ := TransGen.head'_iff.mp around
  have inside : node ∈ graph.indices := List.mem_range.mpr (resolved.links_inside step.1).1
  have left := (cycleSearch_extends resolved).2 node inside
  refine searched.underway.settled.no_cycle left (around.lift id fun source target step => ?_)
  simp only [unlisted, List.mem_filter, decide_eq_true_eq]
  exact ⟨mem_children_iff.mpr step.1, step.2⟩

/-- A listed cycle names a node exactly if links lead from the node back to it past nodes that
the search has not left before it enters the node. A node that lies only on other cycles is not
named, yet a link of each of these ends a listed cycle. -/
theorem cycles_name (nodes : List Node) (edges : List Edge) :
    let graph := Graph.ofLists nodes edges
    (∀ node, graph.Named node ↔ graph.Recurs node) ∧
      Acyclic fun source target => graph.Linked source target ∧
        ∀ cycle ∈ graph.cycles, ¬ [source, target] <:+ cycle := by
  intro graph
  have resolved : graph.Resolved := ofLists_resolved nodes edges
  exact ⟨fun _ => named_iff_recurs resolved, unlisted_acyclic resolved⟩

/-- Not every node on a cycle is named. The search goes from the price to the cost, whose way
back it lists, and leaves the cost; the wage, searched next, leads to the cost only. -/
theorem not_forall_on_cycle_named :
    ¬ ∀ nodes edges, let graph := Graph.ofLists nodes edges
      ∀ node, TransGen graph.Linked node node → graph.Named node := by
  intro holds
  let graph := Graph.ofLists
    [⟨"price", .operator .add ["cost"], none⟩,
      ⟨"cost", .operator .add ["wage", "price"], none⟩,
      ⟨"wage", .operator .add ["price"], none⟩]
    [⟨"a", "price", "wage"⟩, ⟨"b", "wage", "cost"⟩, ⟨"c", "cost", "price"⟩,
      ⟨"d", "price", "cost"⟩]
  have links : graph.links = [⟨0, 2⟩, ⟨2, 1⟩, ⟨1, 0⟩, ⟨0, 1⟩] := by decide +kernel
  have listed : graph.cycles = [[0, 1, 0]] := by decide +kernel
  have around : TransGen graph.Linked 2 2 := by
    have toCost : graph.Linked 2 1 := by simp [Linked, links]
    have toPrice : graph.Linked 1 0 := by simp [Linked, links]
    have toWage : graph.Linked 0 2 := by simp [Linked, links]
    exact ((TransGen.single toCost).tail toPrice).tail toWage
  obtain ⟨cycle, among, member⟩ := holds _ _ 2 around
  rw [listed] at among
  simp_all

end Graph
end MonthlyForecast
