import MonthlyForecast.Proofs.Report.Entries
import MonthlyForecast.Proofs.Report.TraceText
import MonthlyForecast.Proofs.Report.TraceWalk

/-! An audit against the calculation. It fails exactly as the calculation does, and otherwise
its entries show the values of the ledger that the report is made from. The values of an
operator's inputs, whichever trees filled them in, still combine to the operator's own. -/
namespace MonthlyForecast
open Validation MetricTree

/-- What a list gives is told by another list with the same items behind it. -/
theorem filterMap_eq_map_of_forall₂ {α β γ δ : Type} {first : α → γ → Prop} {second : β → γ → Prop}
    {places : List α} {ids : List β} {items : List γ} {shown : α → Option δ} {named : β → δ}
    (standing : List.Forall₂ first places items) (naming : List.Forall₂ second ids items)
    (each : ∀ item id place, first place item → second id item → shown place = some (named id)) :
    places.filterMap shown = ids.map named := by
  induction standing generalizing ids with
  | nil =>
    cases naming
    rfl
  | cons stands _ ih =>
    cases naming with
    | cons found rest =>
      rw [List.filterMap_cons, each _ _ _ stands found, List.map_cons, ih rest]

namespace Request

/-- The entry shows a node of the request: its line has the level, the id and the value, and says
for an operator which inputs with which values, in the declared order, the operation combines to
that value, and for any other node what it stands for. -/
structure Explains (request : Request) (values : Values) (place : Nat) (entry : TraceEntry) :
    Prop where
  value_eq : entry.value = .ready (values entry.node place)
  notPending : valueText (values entry.node place) ≠ "[?]"
  shown : ∃ node ∈ request.nodes, node.id = entry.node ∧
    match node.kind with
    | .operator operation ids =>
      entry.detail = .operator operation (ids.map fun id => (id, .ready (values id place))) ∧
        entry.lineText = entry.fullLine (valueText (values entry.node place))
          (" = " ++ (" " ++ operation.symbol ++ " ").intercalate
            (ids.map fun id => id ++ valueText (values id place))) ∧
        values entry.node place = operation.combine (ids.map fun id => values id place)
    | .data _ variableId offset =>
      entry.lineText = entry.fullLine (valueText (values entry.node place))
        (" -> Data(" ++ variableId ++ shiftText offset.toInt ++ ")")
    | .constant _ value => entry.lineText = entry.fullLine (valueText (values entry.node place))
        (" -> Const(" ++ Decimal.placesText value ++ ")")
    | .seed sourceMetricId => entry.lineText = entry.fullLine (valueText (values entry.node place))
        (" -> " ++ sourceMetricId ++ ".prev()")
    | .metric attributes =>
      entry.lineText = entry.fullLine (valueText (values entry.node place))
          (" -> Metric(" ++ attributes.label ++ ")") ∨
        entry.lineText = entry.fullLine (valueText (values entry.node place))
          (" = " ++ attributes.label) ∨
        entry.lineText = entry.fullLine (valueText (values entry.node place))
          (" = " ++ attributes.label ++ " [FALLBACK]")

/-- The entries of an audit: the root first, in full, and every full entry explained. -/
structure Audits (request : Request) (values : Values) (place : Nat) (metricId : String)
    (entries : List TraceEntry) : Prop where
  root : ∃ first rest, entries = first :: rest ∧ first.IsFull ∧ first.level = 1 ∧
    first.rails = [] ∧ first.node = metricId
  explains : ∀ entry ∈ entries, entry.IsFull → request.Explains values place entry

variable {request : Request} {policy : Policy} {ledger : Ledger} {trees : List MetricTree}
  {tree : MetricTree} {metricId : String} {date : Date} {i place : Nat} {entry : TraceEntry}

/-- A plan can always be evaluated. -/
theorem plan_outcome (policy : Policy) (request : Request) :
    Outcome (fun plan => ∃ trees ledger, Evaluated policy request trees ledger ∧
        plan = ⟨request.model policy, trees, request.months⟩ ∧ plan.evaluate = .ok ledger)
      (fun _ => True) (request.plan policy) := by
  by_cases reversed : request.endDate.MonthBefore request.startDate
  · rw [plan, range_of_reversed reversed]
    trivial
  by_cases wellFormed : WellFormed request.nodes request.edges
  · rw [plan_of_wellFormed policy reversed wellFormed]
    cases found : schedule (request.model policy).graph with
    | error fault => trivial
    | ok trees =>
      cases resolved : (request.model policy).resolveReferences trees with
      | error fault =>
        simp only [Except.mapError, bind, Except.bind, resolved]
        trivial
      | ok =>
        have scheduled := ((schedule_outcome wellFormed.checked.resolved).of_ok found).1
        obtain ⟨ledger, ran, progress⟩ := Model.exists_run_of_admissible (request.model policy)
          wellFormed.checked scheduled.toForest (Model.admissible_of_scheduled scheduled)
          request.months
        simp only [Except.mapError, bind, Except.bind, resolved]
        refine ⟨trees, ledger, ⟨wellFormed, scheduled, progress⟩, rfl, ?_⟩
        simp only [Plan.evaluate, ran, Except.mapError]
  · rw [plan, range_of_ordered reversed, validGraph_of_malformed wellFormed]
    trivial

theorem report_of_plan {plan : Plan} (policy : Policy) (moment : Timestamp)
    (planned : request.plan policy = .ok plan) (evaluated : plan.evaluate = .ok ledger) :
    request.report policy moment = .ok (plan.model.report ledger plan.trees request.forecastId
      moment (request.nodesIncluded policy)) := by
  rw [report, planned]
  change plan.evaluate >>= _ = _
  rw [evaluated]
  rfl

namespace Evaluated

variable (evaluated : Evaluated policy request trees ledger)
include evaluated

theorem ready_of_inTrees (held : Model.InTrees trees i) (inside : place < request.months.length)
    {id : String} (found : (Graph.ofLists request.nodes request.edges).index? id = some i) :
    ledger.get i place = .ready (request.ledgerValues ledger id place) := by
  obtain ⟨value, ready⟩ := (evaluated.progress.ready_iff i place).mpr ⟨held, inside⟩
  rw [ready, ledgerValues_of_ready found ready]

/-- An operator's slot lists the declared inputs with their values. -/
theorem operands_shown (member : tree ∈ trees) {slot : TreeSlot} (among : slot ∈ tree.slots)
    (inside : place < request.months.length) {operation : Operation} {ids : List String}
    (kind : (Graph.ofLists request.nodes request.edges).kind? slot.node =
      some (.operator operation ids)) :
    (slot.inputs.filterMap fun input => tree.slots[input]?.map fun other =>
        ((Graph.ofLists request.nodes request.edges).idOf other.node,
          ledger.get other.node place)) =
      ids.map fun id => (id, .ready (request.ledgerValues ledger id place)) := by
  obtain ⟨before, after, whole⟩ := List.append_of_mem among
  have kept : before <+: tree.slots := ⟨_, whole.symm⟩
  obtain ⟨_, _, inputs, declared, linked⟩ :=
    (whole ▸ (evaluated.scheduled.built tree member).2.placed).split
  have modelKind : (request.model policy).graph.kind? slot.node = some (.operator operation ids) :=
    kind
  simp only [inputsWithin, modelKind] at declared
  apply filterMap_eq_map_of_forall₂ linked (operands_eq_ok declared)
  rintro input id place stands ⟨found, _⟩
  obtain ⟨other, standing, rfl⟩ := stands.mono kept
  have held : Model.InTrees trees other.node :=
    ⟨tree, member, other, List.mem_of_getElem? standing, rfl⟩
  have named : (Graph.ofLists request.nodes request.edges).idOf other.node = id :=
    Graph.idOf_index? found
  rw [standing, Option.map_some, named, evaluated.ready_of_inTrees held inside found]

theorem explains (member : tree ∈ trees) (inside : place < request.months.length)
    (shows : EntryOf (Graph.ofLists request.nodes request.edges) ledger tree place entry)
    (full : entry.IsFull) : request.Explains (request.ledgerValues ledger) place entry := by
  obtain ⟨position, slot, stands, node_eq, value_eq, detail⟩ := shows
  have among := List.mem_of_getElem? stands
  have held : Model.InTrees trees slot.node := ⟨tree, member, slot, among, rfl⟩
  obtain ⟨node, standing⟩ := Graph.exists_place (Model.inTrees_lt evaluated.scheduled.toForest held)
  have id : (Graph.ofLists request.nodes request.edges).idOf slot.node = node.id :=
    Graph.idOf_of_place standing
  have ready := evaluated.ready_of_inTrees held inside (WellFormed.index?_of_place standing)
  have own : entry.value = .ready (request.ledgerValues ledger entry.node place) := by
    rw [value_eq, node_eq, id, ready]
  refine ⟨own, valueText_ne _, ?_⟩
  have listed := evaluated.wellFormed.mem_iff_place.mpr ⟨_, standing⟩
  have kind : (Graph.ofLists request.nodes request.edges).kind? slot.node = some node.kind :=
    Graph.kind?_of_place standing
  obtain ⟨month, dated⟩ : ∃ month, request.months[place]? = some month :=
    ⟨_, List.getElem?_eq_getElem inside⟩
  have connected := (evaluated.inTrees_iff standing).mp held
  have equation := evaluated.solves node listed connected place month dated
  have named : entry.node = node.id := node_eq.trans id
  refine ⟨node, listed, named.symm, ?_⟩
  have detail := detail full
  unfold traceDetail at detail
  rw [kind] at detail
  unfold Equation at equation
  rw [← named] at equation
  cases shape : node.kind with
  | operator operation ids =>
    rw [shape] at kind equation
    simp only [shape, evaluated.operands_shown member among inside kind] at detail
    refine ⟨detail, ?_, equation⟩
    rw [TraceEntry.lineText, detail, own]
    simp only [List.map_map]
    rfl
  | data | constant | seed =>
    simp only [shape] at detail
    rw [TraceEntry.lineText, detail, own]
    rfl
  | metric attributes =>
    simp only [shape] at detail
    rw [TraceEntry.lineText, own]
    split at detail
    · rw [detail]
      exact Or.inl rfl
    · split at detail
      · rw [detail]
        exact Or.inr (Or.inl rfl)
      · rw [detail]
        exact Or.inr (Or.inr rfl)

omit evaluated in
/-- The tree that is found by an id has the node with that id as its root. -/
theorem tree_of_id
    (found : (((Graph.ofLists request.nodes request.edges).index? metricId).bind fun metric =>
      trees.find? (·.root == metric)) = some tree) :
    tree ∈ trees ∧
      (Graph.ofLists request.nodes request.edges).index? metricId = some tree.root := by
  obtain ⟨i, named, treed⟩ := Option.bind_eq_some_iff.mp found
  have root : tree.root = i := beq_iff_eq.mp (List.find?_some treed :)
  exact ⟨List.mem_of_find?_eq_some treed, root ▸ named⟩

/-- The metrics of the request have a tree, and nothing else has. -/
theorem exists_tree_iff (metricId : String) :
    (∃ tree, (((Graph.ofLists request.nodes request.edges).index? metricId).bind fun metric =>
        trees.find? (·.root == metric)) = some tree) ↔
      ∃ metric ∈ request.nodes, metric.id = metricId ∧ IsMetric metric := by
  rw [evaluated.wellFormed.exists_metric_iff]
  constructor
  · rintro ⟨tree, found⟩
    obtain ⟨member, named⟩ := tree_of_id found
    exact ⟨tree.root, named, (evaluated.scheduled.built tree member).1⟩
  · rintro ⟨i, named, isMetric⟩
    obtain ⟨tree, member, root⟩ := evaluated.scheduled.complete i isMetric
    rw [named, Option.bind_some, ← Option.isSome_iff_exists, List.find?_isSome]
    exact ⟨tree, member, beq_iff_eq.mpr root⟩

theorem label_eq {metric : Node} (member : metric ∈ request.nodes)
    (named : (Graph.ofLists request.nodes request.edges).index? metric.id = some i) :
    (request.model policy).graph.label i = metric.kind.label := by
  obtain ⟨place, stands⟩ := evaluated.wellFormed.mem_iff_place.mp member
  obtain rfl := Option.some.inj (named.symm.trans (WellFormed.index?_of_place stands))
  have kind : (request.model policy).graph.kind? i = some metric.kind := Graph.kind?_of_place stands
  rw [Graph.label, kind]
  rfl

/-- A tree's trace audits its metric. -/
theorem audits (member : tree ∈ trees) (inside : place < request.months.length)
    (named : (Graph.ofLists request.nodes request.edges).index? metricId = some tree.root) :
    request.Audits (request.ledgerValues ledger) place metricId
      (traceEntries (Graph.ofLists request.nodes request.edges) ledger tree place) where
  root := by
    obtain ⟨_, last⟩ := (evaluated.scheduled.built tree member).2.root_stands
    obtain ⟨root, rest, all, full, level, rails, node⟩ := traceEntries_root last
    exact ⟨root, rest, all, full, level, rails, node.trans (Graph.idOf_index? named)⟩
  explains := by
    intro entry among full
    exact evaluated.explains member inside (entryOf_of_mem_traceEntries among) full

end Evaluated

/-- A date's month has a place in the range unless it lies before or after it. -/
theorem exists_place_iff (request : Request) (date : Date) :
    (∃ place, request.months.findIdx? (· == date.startOfMonth) = some place) ↔
      ¬ (date.MonthBefore request.startDate ∨ request.endDate.MonthBefore date) := by
  rw [← Option.isSome_iff_exists, List.findIdx?_isSome, List.any_beq', List.contains_iff_mem,
    months, Date.mem_monthsThrough_iff, not_or, ← Date.monthIndex_lt_iff, ← Date.monthIndex_lt_iff,
    not_lt, not_lt]
  exact and_iff_right rfl

/-- What stands above the entries of an audit. -/
def auditHeading (label : String) (month : Date) : String :=
  "AUDIT TRACE for metric '" ++ label ++ "' @ " ++ month.monthText ++ ":\n" ++
    "--------------------------------------------------\n"

theorem trace_eq_of_dated {graph : Graph} (dated : ledger.months[place]? = some date) :
    tree.trace graph ledger place = auditHeading (graph.label tree.root) date ++
      String.join ((traceEntries graph ledger tree place).map (·.lineText)) := by
  rw [trace, dated, List.map_congr_left fun entry _ => entry.toLine_eq]
  rfl

/-- An audit of a planned request reads the ledger of its report. -/
theorem auditTrace_of_plan {plan : Plan} (planned : request.plan policy = .ok plan)
    (ran : plan.evaluate = .ok ledger) (metricId : String) (date : Date) :
    request.auditTrace policy metricId date = .ok (
      match (plan.model.graph.index? metricId).bind fun metric =>
          plan.trees.find? (·.root == metric), plan.months.findIdx? (· == date.startOfMonth) with
      | some tree, some place => some (tree.trace plan.model.graph ledger place)
      | _, _ => none) := by
  simp only [auditTrace, planned, bind, Except.bind, ran]
  generalize (plan.model.graph.index? metricId).bind _ = tree?
  generalize plan.months.findIdx? _ = place?
  cases tree? <;> cases place? <;> rfl

/-- An audit fails exactly as the calculation does. Otherwise it gives nothing exactly if the
id names no metric or the month lies outside of the range; and what it gives are the lines of
entries for the ledger of the calculation, with the reported forecast at their root. -/
theorem auditTrace_agrees (policy : Policy) (request : Request) (metricId : String) (date : Date)
    (moment : Timestamp) :
    (∀ fault, request.auditTrace policy metricId date = .error fault ↔
        request.report policy moment = .error fault) ∧
      ∀ report, request.report policy moment = .ok report →
        (request.auditTrace policy metricId date = .ok none ↔
          (¬ ∃ metric ∈ request.nodes, metric.id = metricId ∧ IsMetric metric) ∨
            date.MonthBefore request.startDate ∨ request.endDate.MonthBefore date) ∧
        ∀ text, request.auditTrace policy metricId date = .ok (some text) →
          ∃ plan ledger place entry row entries,
            request.plan policy = .ok plan ∧ plan.evaluate = .ok ledger ∧
            request.months[place]? = some date.startOfMonth ∧
            report.metric? metricId = some entry ∧ entry.RowOf date.startOfMonth row ∧
            text = auditHeading entry.label date.startOfMonth ++
              String.join (entries.map (·.lineText)) ∧
            row.forecast = request.ledgerValues ledger metricId place ∧
            request.Audits (request.ledgerValues ledger) place metricId entries := by
  have outcome := plan_outcome policy request
  cases planned : request.plan policy with
  | error fault =>
    have failed : request.report policy moment = .error fault := by
      rw [report, planned]
      rfl
    have audit : request.auditTrace policy metricId date = .error fault := by
      rw [auditTrace, planned]
      rfl
    simp [failed, audit]
  | ok plan =>
    obtain ⟨trees, ledger, evaluated, rfl, ran⟩ := outcome.of_ok planned
    have reported := report_of_plan policy moment planned ran
    have audit := auditTrace_of_plan planned ran metricId date
    have treed_iff := evaluated.exists_tree_iff metricId
    have placed_iff := exists_place_iff request date
    rw [reported, audit]
    refine ⟨by simp, ?_⟩
    rintro _ ⟨⟩
    cases treed : ((request.model policy).graph.index? metricId).bind fun metric =>
        trees.find? (·.root == metric) with
    | none =>
      have absent := mt treed_iff.mpr fun ⟨_, found⟩ => nomatch treed.symm.trans found
      exact ⟨iff_of_true rfl (Or.inl absent), nofun⟩
    | some tree =>
      cases placed : request.months.findIdx? (· == date.startOfMonth) with
      | none =>
        have outside := mt placed_iff.mpr fun ⟨_, found⟩ => nomatch placed.symm.trans found
        exact ⟨iff_of_true rfl (Or.inr (not_not.mp outside)), nofun⟩
      | some place =>
        obtain ⟨member, named⟩ := Evaluated.tree_of_id treed
        have known := treed_iff.mp ⟨tree, treed⟩
        have within := placed_iff.mp ⟨place, placed⟩
        refine ⟨iff_of_false nofun (not_or.mpr ⟨not_not.mpr known, within⟩), ?_⟩
        rintro _ ⟨⟩
        obtain ⟨metric, among, rfl, isMetric⟩ := known
        obtain ⟨inside, same, _⟩ := List.findIdx?_eq_some_iff_getElem.mp placed
        have dated : request.months[place]? = some date.startOfMonth :=
          List.getElem?_eq_some_iff.mpr ⟨inside, beq_iff_eq.mp same⟩
        refine ⟨_, ledger, place, _, _, _, rfl, ran, dated,
          evaluated.metric?_report_eq among isMetric .., metricEntry_rowOf dated, ?_, rfl,
          evaluated.audits member inside named⟩
        rw [trace_eq_of_dated (evaluated.months_eq ▸ dated), evaluated.label_eq among named]
        rfl

end Request
end MonthlyForecast
