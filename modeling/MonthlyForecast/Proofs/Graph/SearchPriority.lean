import MonthlyForecast.Proofs.Graph.Ordering

/-! Which of the admissible orders is given. The search starts from the metrics in their
order and from the successors of a node in the opposite one, and what it leaves first
stands last. An earlier place in the list of metrics therefore does not put a metric
first: without any dependencies the order is the reversed list. -/
namespace MonthlyForecast
open Relation

theorem eraseDups_eq_self {nodes : List NodeIndex} (distinct : nodes.Nodup) :
    nodes.eraseDups = nodes := by
  induction nodes with
  | nil => rfl
  | cons first rest ih =>
    obtain ⟨fresh, restDistinct⟩ := List.nodup_cons.mp distinct
    have kept : rest.filter (fun other => !other == first) = rest := by
      rw [List.filter_eq_self]
      intro other member
      have other : other ≠ first := fun same => fresh (same ▸ member)
      simpa using other
    rw [List.eraseDups_cons, kept, ih restDistinct]

namespace Precedence

/-- The node is the other one or comes before it by a chain of dependencies. -/
abbrev Leads (precedence : Precedence) : NodeIndex → NodeIndex → Prop :=
  ReflTransGen precedence.Before

/-- The first node stands ahead of the second once the search has started from the given
nodes, one after another. -/
inductive Ahead (precedence : Precedence) : List NodeIndex → NodeIndex → NodeIndex → Prop where
  /-- A start that leads to neither node decides nothing. -/
  | skip {start : NodeIndex} {starts : List NodeIndex} {first second : NodeIndex}
      (notFirst : ¬ precedence.Leads start first) (notSecond : ¬ precedence.Leads start second)
      (ahead : Ahead precedence starts first second) :
      Ahead precedence (start :: starts) first second
  /-- What only a later start leads to is left later and stands ahead. -/
  | later {start other : NodeIndex} {starts : List NodeIndex} {first second : NodeIndex}
      (notFirst : ¬ precedence.Leads start first) (toSecond : precedence.Leads start second)
      (among : other ∈ starts) (toFirst : precedence.Leads other first) :
      Ahead precedence (start :: starts) first second
  /-- A start stands ahead of all that it leads to. -/
  | root {start : NodeIndex} {starts : List NodeIndex} {second : NodeIndex}
      (apart : start ≠ second) (toSecond : precedence.Leads start second) :
      Ahead precedence (start :: starts) start second
  /-- Between nodes that one start leads to, the search from its successors decides. -/
  | within {start : NodeIndex} {starts : List NodeIndex} {first second : NodeIndex}
      (fromFirst : start ≠ first) (toFirst : precedence.Leads start first)
      (fromSecond : start ≠ second) (toSecond : precedence.Leads start second)
      (ahead : Ahead precedence (precedence.successors start).reverse first second) :
      Ahead precedence (start :: starts) first second

/-- All sources of the node are placed. -/
def ReadyAfter (precedence : Precedence) (placed : List NodeIndex) (node : NodeIndex) : Prop :=
  ∀ source, precedence.Before source node → source ∈ placed

/-- Every place holds the metric that is listed first among those not placed before it
whose sources are. -/
def InListOrder (precedence : Precedence) (order : List NodeIndex) : Prop :=
  ∀ placed node rest, order = placed ++ node :: rest →
    precedence.ReadyAfter placed node ∧
      ∀ other ∈ precedence.metrics, other ∉ placed → precedence.ReadyAfter placed other →
        precedence.metrics.idxOf node ≤ precedence.metrics.idxOf other

variable {precedence : Precedence} {starts opened order : List NodeIndex}
  {start node first second : NodeIndex} {depth : Nat}

/-- No two nodes stand ahead of each other, whether or not there are cycles. -/
theorem Ahead.asymm (ahead : precedence.Ahead starts first second) :
    ¬ precedence.Ahead starts second first := by
  induction ahead with
  | skip notFirst notSecond _ ih =>
    rintro (⟨_, _, back⟩ | ⟨_, toFirst, _⟩ | ⟨_, toFirst⟩ | ⟨_, toSecond⟩)
    · exact ih back
    · exact notFirst toFirst
    · exact notFirst toFirst
    · exact notSecond toSecond
  | later notFirst toSecond =>
    rintro (⟨notSecond⟩ | ⟨notSecond⟩ | ⟨_, toFirst⟩ | ⟨_, _, _, toFirst⟩)
    · exact notSecond toSecond
    · exact notSecond toSecond
    · exact notFirst toFirst
    · exact notFirst toFirst
  | root apart toSecond =>
    rintro (⟨notSecond⟩ | ⟨notSecond⟩ | _ | ⟨_, _, away⟩)
    · exact notSecond toSecond
    · exact notSecond toSecond
    · exact apart rfl
    · exact away rfl
  | within fromFirst toFirst fromSecond toSecond _ ih =>
    rintro (⟨notSecond⟩ | ⟨notSecond⟩ | _ | ⟨_, _, _, _, back⟩)
    · exact notSecond toSecond
    · exact notSecond toSecond
    · exact fromSecond rfl
    · exact ih back

/-- Between nodes that a start leads to, other starts do not matter. -/
theorem Ahead.of_start {others : List NodeIndex} (toFirst : precedence.Leads start first)
    (ahead : precedence.Ahead (start :: starts) first second) :
    precedence.Ahead (start :: others) first second := by
  cases ahead with
  | skip notFirst => exact absurd toFirst notFirst
  | later notFirst => exact absurd toFirst notFirst
  | root apart toSecond => exact .root apart toSecond
  | within fromFirst toFirst fromSecond toSecond ahead =>
    exact .within fromFirst toFirst fromSecond toSecond ahead

end Precedence

/-- The search may go on from another node: its depth suffices for the nodes not open. -/
structure Departure.Underway (precedence : Precedence) (depth : Nat) (opened : List NodeIndex)
    (search : Departure) : Prop where
  progress : search.Progress precedence opened
  unwound : Unwound precedence.successors search.departed
  distinct : opened.Nodup
  inside : opened ⊆ precedence.nodes
  enough : precedence.nodes.length ≤ depth + opened.length

/-- Searching from the starts leaves the block of nodes: all those not left before to
which the starts lead, in the order that the starts decide. -/
structure Departure.Adds (precedence : Precedence) (starts block : List NodeIndex)
    (before after : Departure) : Prop where
  departed_eq : after.departed = block ++ before.departed
  mem_iff : ∀ node, node ∈ block ↔
    node ∉ before.departed ∧ ∃ start ∈ starts, precedence.Leads start node
  ahead : block.Pairwise (precedence.Ahead starts)

namespace Departure

variable {precedence : Precedence} {starts opened block later : List NodeIndex}
  {start node other : NodeIndex} {depth : Nat} {search before middle after : Departure}

namespace Underway

theorem departFrom (underway : search.Underway precedence depth opened)
    (inside : node ∈ precedence.nodes)
    (leads : ∀ other ∈ opened, TransGen precedence.Before other node) :
    (precedence.departFrom depth node search).Underway precedence depth opened := by
  obtain ⟨progress, extension, _⟩ := Precedence.departFrom_spec depth opened node search
    underway.progress inside underway.distinct underway.inside leads underway.enough
  exact ⟨progress, extension.unwound underway.unwound, underway.distinct, underway.inside,
    underway.enough⟩

theorem open_fresh (underway : search.Underway precedence (depth + 1) opened)
    (inside : node ∈ precedence.nodes) (fresh : node ∉ search.discovered) :
    Underway precedence depth (node :: opened)
      { search with discovered := node :: search.discovered } where
  progress := underway.progress.open_fresh fresh
  unwound := underway.unwound
  distinct := List.nodup_cons.mpr
    ⟨fun member => fresh ((underway.progress.discovered_iff node).mpr (Or.inr member)),
      underway.distinct⟩
  inside := List.cons_subset.mpr ⟨inside, underway.inside⟩
  enough := by
    have := underway.enough
    simp only [List.length_cons]
    omega

/-- As long as some node is not open, there is depth for it. -/
theorem depth_pos (underway : search.Underway precedence depth opened)
    (inside : node ∈ precedence.nodes) (fresh : node ∉ opened) : 0 < depth := by
  have within : node :: opened ⊆ precedence.nodes :=
    List.cons_subset.mpr ⟨inside, underway.inside⟩
  have := ((List.nodup_cons.mpr ⟨fresh, underway.distinct⟩).subperm within).length_le
  have := underway.enough
  simp only [List.length_cons] at *
  omega

/-- Whatever a node that has been left leads to has been left. -/
theorem departed_of_leads (underway : search.Underway precedence depth opened)
    (acyclic : Acyclic precedence.Before) (left : node ∈ search.departed)
    (path : precedence.Leads node other) : other ∈ search.departed := by
  rw [Precedence.Leads, ← Precedence.successors_eq_before] at path
  exact (underway.unwound.settled (Precedence.successors_eq_before ▸ acyclic)).reachable_mem
    left path

end Underway

namespace Adds

theorem nil (precedence : Precedence) (search : Departure) :
    Adds precedence [] [] search search :=
  ⟨rfl, by simp, .nil⟩

/-- Nothing new is found from a node that the search has left. -/
theorem of_departed (underway : search.Underway precedence depth opened)
    (acyclic : Acyclic precedence.Before) (left : node ∈ search.departed) :
    Adds precedence [node] [] search search where
  departed_eq := rfl
  mem_iff := by
    intro other
    simp only [List.not_mem_nil, List.mem_singleton, exists_eq_left, false_iff, not_and]
    exact fun fresh path => fresh (underway.departed_of_leads acyclic left path)
  ahead := .nil

/-- Search from one start after another. -/
theorem cons (first : Adds precedence [start] block before middle)
    (others : Adds precedence starts later middle after) :
    Adds precedence (start :: starts) (later ++ block) before after where
  departed_eq := by rw [others.departed_eq, first.departed_eq, List.append_assoc]
  mem_iff := by
    intro node
    rw [List.mem_append, others.mem_iff, first.departed_eq, List.mem_append, first.mem_iff]
    simp only [List.mem_cons, List.not_mem_nil, or_false, exists_eq_left, exists_eq_or_imp]
    by_cases earlier : node ∈ before.departed <;>
      by_cases found : precedence.Leads start node <;> simp [earlier, found]
  ahead := by
    have fromStart : ∀ node ∈ block, precedence.Leads start node := by
      intro node member
      simpa using ((first.mem_iff node).mp member).2
    have notFromStart : ∀ node ∈ later, ¬ precedence.Leads start node := by
      intro node member path
      have fresh := ((others.mem_iff node).mp member).1
      rw [first.departed_eq, List.mem_append, not_or] at fresh
      exact fresh.1 ((first.mem_iff node).mpr ⟨fresh.2, start, List.mem_singleton_self start, path⟩)
    rw [List.pairwise_append]
    refine ⟨?_, ?_, ?_⟩
    · apply others.ahead.imp_of_mem
      intro node other member member' ahead
      exact .skip (notFromStart node member) (notFromStart other member') ahead
    · apply first.ahead.imp_of_mem
      intro node other member _ ahead
      exact ahead.of_start (fromStart node member)
    · intro node member other member'
      obtain ⟨_, found, among, path⟩ := (others.mem_iff node).mp member
      exact .later (notFromStart node member) (fromStart other member') among path

/-- A node is left after all that is found from its successors. -/
theorem leave (acyclic : Acyclic precedence.Before) (fresh : node ∉ before.departed)
    (found : Adds precedence (precedence.successors node).reverse block before after) :
    Adds precedence [node] (node :: block) before
      { after with departed := node :: after.departed } where
  departed_eq := by rw [found.departed_eq, List.cons_append]
  mem_iff := by
    intro other
    simp only [List.mem_cons, found.mem_iff, List.mem_reverse, Precedence.mem_successors_iff,
      List.not_mem_nil, or_false, exists_eq_left]
    rw [Precedence.Leads, ReflTransGen.cases_head_iff]
    constructor
    · rintro (rfl | ⟨other, path⟩)
      · exact ⟨fresh, Or.inl rfl⟩
      · exact ⟨other, Or.inr path⟩
    · rintro ⟨other, rfl | path⟩
      · exact Or.inl rfl
      · exact Or.inr ⟨other, path⟩
  ahead := by
    have after : ∀ other ∈ block, precedence.Leads node other ∧ node ≠ other := by
      intro other member
      obtain ⟨_, successor, follows, path⟩ := (found.mem_iff other).mp member
      have before := Precedence.mem_successors_iff.mp (List.mem_reverse.mp follows)
      refine ⟨.head before path, ?_⟩
      rintro rfl
      exact acyclic node (.head' before path)
    rw [List.pairwise_cons]
    constructor
    · exact fun other member => .root (after other member).2 (after other member).1
    · apply found.ahead.imp_of_mem
      intro other last member member' ahead
      exact .within (after other member).2 (after other member).1 (after last member').2
        (after last member').1 ahead

/-- A list of starts, if one start adds its block from any state of the search. -/
theorem foldl (leads : ∀ start ∈ starts, start ∈ precedence.nodes ∧
      ∀ other ∈ opened, TransGen precedence.Before other start)
    (each : ∀ start ∈ starts, ∀ search : Departure, search.Underway precedence depth opened →
      ∃ block, Adds precedence [start] block search (precedence.departFrom depth start search))
    (underway : search.Underway precedence depth opened) :
    ∃ block, Adds precedence starts block search
      (starts.foldl (fun search start => precedence.departFrom depth start search) search) := by
  induction starts generalizing search with
  | nil => exact ⟨[], .nil precedence search⟩
  | cons start starts ih =>
    obtain ⟨⟨inside, above⟩, leads⟩ := List.forall_mem_cons.mp leads
    obtain ⟨first, each⟩ := List.forall_mem_cons.mp each
    obtain ⟨block, added⟩ := first search underway
    obtain ⟨later, addedLater⟩ := ih leads each (underway.departFrom inside above)
    exact ⟨later ++ block, added.cons addedLater⟩

end Adds

end Departure

namespace Precedence

variable {precedence : Precedence} {starts opened order : List NodeIndex}
  {start node first second : NodeIndex} {depth : Nat}

/-- Searching from a node of a graph without cycles. -/
theorem departFrom_adds (acyclic : Acyclic precedence.Before) (depth : Nat)
    (opened : List NodeIndex) (node : NodeIndex) (search : Departure)
    (underway : search.Underway precedence depth opened) (inside : node ∈ precedence.nodes)
    (leads : ∀ other ∈ opened, TransGen precedence.Before other node) :
    ∃ block, Departure.Adds precedence [node] block search
      (precedence.departFrom depth node search) := by
  have notOpened : node ∉ opened := fun member => acyclic node (leads node member)
  induction depth generalizing opened node search with
  | zero => exact absurd (underway.depth_pos inside notOpened) (Nat.lt_irrefl 0)
  | succ depth ih =>
    simp only [departFrom]
    split
    · rename_i discovered
      have left := ((underway.progress.discovered_iff node).mp discovered).resolve_right notOpened
      exact ⟨[], .of_departed underway acyclic left⟩
    · rename_i fresh
      have notLeft : node ∉ search.departed := fun left =>
        fresh ((underway.progress.discovered_iff node).mpr (Or.inl left))
      have next : ∀ successor ∈ (precedence.successors node).reverse,
          successor ∈ precedence.nodes ∧
            ∀ other ∈ node :: opened, TransGen precedence.Before other successor := by
        intro successor follows
        have before := mem_successors_iff.mp (List.mem_reverse.mp follows)
        exact ⟨before.dependent_mem, leads_cons leads before⟩
      obtain ⟨block, added⟩ := Departure.Adds.foldl next
        (fun successor follows state stateUnderway =>
          ih (node :: opened) successor state stateUnderway (next successor follows).1
            (next successor follows).2
            fun member => acyclic successor ((next successor follows).2 successor member))
        (underway.open_fresh inside fresh)
      exact ⟨node :: block, .leave acyclic notLeft ⟨added.departed_eq, added.mem_iff, added.ahead⟩⟩

/-- Without cycles the search puts the nodes in the order that its starts decide. -/
theorem searchOrder_ahead (acyclic : Acyclic precedence.Before) :
    precedence.searchOrder.Pairwise (precedence.Ahead precedence.nodes) := by
  have start : Departure.Underway precedence precedence.nodes.length [] ⟨[], []⟩ :=
    ⟨⟨by simp, by simp, List.nodup_nil, by simp⟩, trivial, List.nodup_nil, by simp, by simp⟩
  obtain ⟨block, added⟩ := Departure.Adds.foldl (fun node member => ⟨member, by simp⟩)
    (fun node member state underway =>
      departFrom_adds acyclic _ [] node state underway member (by simp)) start
  have whole : precedence.searchOrder = block := by
    rw [searchOrder, added.departed_eq, List.append_nil]
  exact whole ▸ added.ahead

theorem searchOrder_of_order {order : List NodeIndex} (ordered : precedence.order = .ok order) :
    precedence.searchOrder = order := by
  unfold Precedence.order at ordered
  split at ordered
  · exact Except.ok.inj ordered
  · contradiction

/-- Where all dependencies are between listed metrics, these are all nodes. -/
theorem nodes_eq_metrics (distinct : precedence.metrics.Nodup)
    (among : ∀ dependency ∈ precedence.dependencies,
      dependency.source ∈ precedence.metrics ∧ dependency.dependent ∈ precedence.metrics) :
    precedence.nodes = precedence.metrics := by
  have known : (precedence.proper.flatMap fun dependency =>
      [dependency.source, dependency.dependent]).removeAll precedence.metrics = [] := by
    rw [List.removeAll, List.filter_eq_nil_iff]
    intro node member
    obtain ⟨dependency, proper, ends⟩ := List.mem_flatMap.mp member
    obtain ⟨source, dependent⟩ := among dependency (List.mem_filter.mp proper).1
    rcases List.mem_pair.mp ends with rfl | rfl
    · simpa using source
    · simpa using dependent
  rw [nodes, List.eraseDups_append, known, eraseDups_eq_self distinct]
  exact List.append_nil _

/-- Only one order of the nodes agrees with the starts. -/
theorem eq_of_pairwise_ahead {others : List NodeIndex} (same : order.Perm others)
    (ahead : order.Pairwise (precedence.Ahead starts))
    (ahead' : others.Pairwise (precedence.Ahead starts)) : order = others :=
  same.eq_of_pairwise (fun _ _ _ _ forth back => absurd back forth.asymm) ahead ahead'

/-- Without dependencies later starts stand ahead. -/
theorem reverse_pairwise_ahead (independent : ∀ source dependent,
    ¬ precedence.Before source dependent) (distinct : starts.Nodup) :
    starts.reverse.Pairwise (precedence.Ahead starts) := by
  have leads_iff : ∀ {node other}, precedence.Leads node other ↔ other = node :=
    reflTransGen_iff_eq fun _ => independent _ _
  induction starts with
  | nil => exact .nil
  | cons start starts ih =>
    obtain ⟨fresh, distinct⟩ := List.nodup_cons.mp distinct
    have apart : ∀ node ∈ starts, ¬ precedence.Leads start node := by
      intro node member path
      exact fresh (leads_iff.mp path ▸ member)
    rw [List.reverse_cons, List.pairwise_append]
    refine ⟨?_, List.pairwise_singleton _ _, ?_⟩
    · apply (ih distinct).imp_of_mem
      intro first second member member' ahead
      exact .skip (apart first (List.mem_reverse.mp member))
        (apart second (List.mem_reverse.mp member')) ahead
    · intro first member second last
      rw [List.mem_reverse] at member
      rw [List.mem_singleton.mp last]
      exact .later (apart first member) .refl member .refl

/-- Nodes stand in list order exactly if an earlier listed metric waits wherever a later
listed one stands ahead of it. -/
theorem inListOrder_iff (complete : order.Perm precedence.metrics)
    (settled : Settled precedence.predecessors order.reverse)
    (known : ∀ source dependent, precedence.Before source dependent →
      source ∈ precedence.metrics)
    (ahead : order.Pairwise (precedence.Ahead starts)) :
    precedence.InListOrder order ↔
      ∀ first ∈ precedence.metrics, ∀ second ∈ precedence.metrics,
        precedence.metrics.idxOf second < precedence.metrics.idxOf first →
          precedence.Ahead starts first second →
            ∃ source, precedence.Before source second ∧
              (source = first ∨ precedence.Ahead starts first source) := by
  constructor
  · intro inOrder first member second member' listed before
    obtain ⟨placed, rest, rfl⟩ := List.append_of_mem (complete.mem_iff.mpr member)
    obtain ⟨_, behind, across⟩ := List.pairwise_append.mp ahead
    have notPlaced : second ∉ placed := fun earlier =>
      before.asymm (across second earlier first List.mem_cons_self)
    have waits : ¬ precedence.ReadyAfter placed second := fun ready =>
      Nat.not_le.mpr listed ((inOrder placed first rest rfl).2 second member' notPlaced ready)
    simp only [ReadyAfter, not_forall] at waits
    obtain ⟨source, reads, missing⟩ := waits
    have stands := complete.mem_iff.mpr (known source second reads)
    rcases List.mem_cons.mp ((List.mem_append.mp stands).resolve_left missing) with same | later
    · exact ⟨source, reads, Or.inl same⟩
    · exact ⟨source, reads, Or.inr ((List.pairwise_cons.mp behind).1 source later)⟩
  · rintro waits placed node rest rfl
    refine ⟨fun source reads => source_mem_of_settled settled reads, ?_⟩
    intro other member notPlaced ready
    by_contra listed
    rw [Nat.not_le] at listed
    obtain ⟨_, behind, across⟩ := List.pairwise_append.mp ahead
    have stands := complete.mem_iff.mpr member
    have later : other ∈ rest := by
      apply (List.mem_cons.mp ((List.mem_append.mp stands).resolve_left notPlaced)).resolve_left
      rintro rfl
      exact absurd listed (Nat.lt_irrefl _)
    have here : node ∈ precedence.metrics := complete.mem_iff.mp (by simp)
    obtain ⟨source, reads, after⟩ := waits node here other member listed
      ((List.pairwise_cons.mp behind).1 other later)
    have before := across source (ready source reads) node List.mem_cons_self
    rcases after with rfl | after
    · exact before.asymm before
    · exact after.asymm before

/-- Metrics of which none depends on another are in list order as they are listed. -/
theorem inListOrder_metrics (independent : ∀ source dependent,
    ¬ precedence.Before source dependent) (distinct : precedence.metrics.Nodup) :
    precedence.InListOrder precedence.metrics := by
  intro placed node rest whole
  refine ⟨fun source reads => absurd reads (independent source node), ?_⟩
  intro other _ notPlaced _
  rw [whole] at distinct ⊢
  have fresh : node ∉ placed := fun earlier =>
    List.disjoint_of_nodup_append distinct earlier List.mem_cons_self
  rw [List.idxOf_append_of_notMem fresh, List.idxOf_append_of_notMem notPlaced,
    List.idxOf_cons_self]
  omega

/-- The order of metrics with dependencies among them and no cycles. It puts sources first
and between other metrics follows the search from the list of metrics, which turns a list
without dependencies around. It is the list order exactly if an earlier listed metric waits
wherever the search puts a later listed one ahead. -/
theorem order_decided_by_search (precedence : Precedence) (distinct : precedence.metrics.Nodup)
    (among : ∀ dependency ∈ precedence.dependencies,
      dependency.source ∈ precedence.metrics ∧ dependency.dependent ∈ precedence.metrics)
    (acyclic : Acyclic precedence.Before) :
    (∀ order, precedence.order = .ok order ↔ order.Perm precedence.metrics ∧
        order.Pairwise (precedence.Ahead precedence.metrics)) ∧
      ∃ order, precedence.order = .ok order ∧ precedence.Sorts order ∧
        ((∀ source dependent, ¬ precedence.Before source dependent) →
          order = precedence.metrics.reverse) ∧
        (precedence.InListOrder order ↔
          ∀ first ∈ precedence.metrics, ∀ second ∈ precedence.metrics,
            precedence.metrics.idxOf second < precedence.metrics.idxOf first →
              precedence.Ahead precedence.metrics first second →
                ∃ source, precedence.Before source second ∧
                  (source = first ∨ precedence.Ahead precedence.metrics first source)) := by
  obtain ⟨order, ordered⟩ := order_ok_iff_acyclic.mpr acyclic
  have sorts := sorts_of_order_eq_ok ordered
  have nodes := nodes_eq_metrics distinct among
  have complete : order.Perm precedence.metrics := by
    rw [List.perm_ext_iff_of_nodup sorts.nodup distinct]
    exact fun node => nodes ▸ (order_eq_ok ordered).2.1 node
  have ahead : order.Pairwise (precedence.Ahead precedence.metrics) := by
    rw [← searchOrder_of_order ordered]
    exact nodes ▸ searchOrder_ahead acyclic
  have known : ∀ source dependent, precedence.Before source dependent →
      source ∈ precedence.metrics := fun _ _ before => nodes ▸ before.source_mem
  refine ⟨fun others => ⟨?_, ?_⟩, order, ordered, sorts, ?_,
    inListOrder_iff complete (order_eq_ok ordered).2.2 known ahead⟩
  · intro found
    cases ordered.symm.trans found
    exact ⟨complete, ahead⟩
  · rintro ⟨complete', ahead'⟩
    exact eq_of_pairwise_ahead (complete.trans complete'.symm) ahead ahead' ▸ ordered
  · intro independent
    exact eq_of_pairwise_ahead (complete.trans (List.reverse_perm _).symm) ahead
      (reverse_pairwise_ahead independent distinct)

/-- Of three metrics the second reads the first; the third, listed last, comes first. -/
theorem order_decided_by_search_fork :
    let precedence : Precedence := ⟨[2, 0, 1], [⟨2, 0⟩]⟩
    precedence.order = .ok [1, 2, 0] ∧ Acyclic precedence.Before ∧
      [1, 2, 0].Pairwise (precedence.Ahead precedence.metrics) ∧
        ¬ precedence.InListOrder [1, 2, 0] := by
  intro precedence
  have ordered : precedence.order = .ok [1, 2, 0] := by decide +kernel
  have acyclic := order_ok_iff_acyclic.mp ⟨_, ordered⟩
  obtain ⟨exact, _⟩ := order_decided_by_search precedence (by decide) (by decide) acyclic
  refine ⟨ordered, acyclic, ((exact _).mp ordered).2, fun inOrder => ?_⟩
  have first := (inOrder [] 1 [2, 0] rfl).2 2 (by decide) (by decide) (by
    simp [ReadyAfter, Before, precedence])
  exact absurd first (by decide)

/-- Two metrics without dependencies are ordered, but not as they are listed. -/
theorem order_of_two_reversed :
    let precedence : Precedence := ⟨[0, 1], []⟩
    precedence.order = .ok [1, 0] ∧ ¬ precedence.InListOrder [1, 0] ∧
      precedence.InListOrder [0, 1] := by
  intro precedence
  have independent : ∀ source dependent, ¬ precedence.Before source dependent := by
    simp [Before, precedence]
  refine ⟨by decide +kernel, fun inOrder => ?_, inListOrder_metrics independent (by decide)⟩
  have first := (inOrder [] 1 [0] rfl).2 0 (by decide) (by decide)
    fun source reads => absurd reads (independent source 0)
  exact absurd first (by decide)

end Precedence
end MonthlyForecast
