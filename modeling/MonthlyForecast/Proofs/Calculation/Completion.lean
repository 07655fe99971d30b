import MonthlyForecast.Calculation
import MonthlyForecast.Proofs.Calculation.Relations
import MonthlyForecast.Proofs.Calendar.Months
import MonthlyForecast.Proofs.Evaluation.References

/-! How a calculation ends. Each ending is told by the request alone, in the order in which
the steps of a calculation check it; a request that passes all checks is reported.
Nothing is said about which cycle or variable a fault names. -/
namespace MonthlyForecast
open Validation MetricTree

/-- A metric, or a node that leads to one, names a variable that is not given. -/
def VariableMissing (request : Request) : Prop :=
  ∃ node ∈ request.nodes, Connected request.nodes request.edges node.id ∧
    ∃ id, node.kind.Names id ∧ ¬ ∃ entry ∈ request.variableList, entry.id = id

namespace Request

/-- What the request evaluates if its graph is valid. -/
def model (request : Request) (policy : Policy) : Model :=
  ⟨.ofLists request.nodes request.edges, .ofVariables request.variableList, policy⟩

variable {request : Request} {policy : Policy} {moment : Timestamp} {trees : List MetricTree}

/-- Trees are scheduled unless metrics read each other in a cycle. -/
theorem schedule_cases (policy : Policy) (wellFormed : WellFormed request.nodes request.edges) :
    ReadCycle request.nodes request.edges ∧
        (∃ group, schedule (request.model policy).graph = .error (.metricCycle group)) ∨
      ¬ ReadCycle request.nodes request.edges ∧
        ∃ trees, schedule (request.model policy).graph = .ok trees ∧
          Scheduled (request.model policy).graph trees := by
  have outcome := schedule_outcome (Graph.ofLists_resolved request.nodes request.edges)
  rw [wellFormed.readCycle_iff, not_not]
  cases found : schedule (request.model policy).graph with
  | ok trees =>
    obtain ⟨scheduled, acyclic⟩ := outcome.of_ok found
    exact Or.inr ⟨acyclic, trees, rfl, scheduled⟩
  | error fault =>
    rcases outcome.of_error found with ⟨_, _, unbuildable⟩ | ⟨⟨group, rfl⟩, cyclic⟩
    · exact absurd unbuildable (wellFormed.checked.not_unbuildable fault)
    · exact Or.inl ⟨cyclic, group, rfl⟩

/-- The trees name an unknown variable exactly if the request misses one. -/
theorem exists_unknownAt_iff (wellFormed : WellFormed request.nodes request.edges)
    (scheduled : Scheduled (request.model policy).graph trees) :
    (∃ node, Model.InTrees trees node ∧ ∃ id, (request.model policy).UnknownAt node id) ↔
      VariableMissing request := by
  simp only [wellFormed.checked.inTrees_iff scheduled, Model.UnknownAt]
  constructor
  · rintro ⟨i, leads, id, kind, found, names, unknown⟩
    obtain ⟨node, place, rfl⟩ := Graph.exists_place_of_kind? found
    refine ⟨node, wellFormed.mem_iff_place.mpr ⟨i, place⟩,
      (wellFormed.connected_iff (WellFormed.index?_of_place place)).mpr leads, id, names, ?_⟩
    exact fun given => unknown (SeriesTable.contains_ofVariables_iff.mpr given)
  · rintro ⟨node, member, connected, id, names, missing⟩
    obtain ⟨i, place⟩ := wellFormed.mem_iff_place.mp member
    refine ⟨i, (wellFormed.connected_iff (WellFormed.index?_of_place place)).mp connected, id,
      node.kind, Graph.kind?_of_place place, names, ?_⟩
    exact fun known => missing (SeriesTable.contains_ofVariables_iff.mp known)

/-- References are resolved unless the request misses a variable. -/
theorem references_cases (wellFormed : WellFormed request.nodes request.edges)
    (scheduled : Scheduled (request.model policy).graph trees) :
    VariableMissing request ∧ (∃ variableId nodeId,
        (request.model policy).resolveReferences trees =
          .error (.unknownVariable variableId nodeId)) ∨
      ¬ VariableMissing request ∧ (request.model policy).resolveReferences trees = .ok () := by
  have sources : Model.SourcesFound (request.model policy).graph trees :=
    wellFormed.checked.sourcesFound trees
  have outcome := Model.resolveReferences_outcome sources
  rw [← exists_unknownAt_iff wellFormed scheduled]
  cases found : (request.model policy).resolveReferences trees with
  | ok =>
    refine Or.inr ⟨?_, rfl⟩
    rintro ⟨node, held, id, unknown⟩
    exact outcome.of_ok found node held id unknown
  | error fault =>
    obtain ⟨node, held, id, unknown, rfl⟩ := outcome.of_error found
    exact Or.inl ⟨⟨node, held, id, unknown⟩, id, _, rfl⟩

/-- The months of the request's range. -/
def months (request : Request) : List Date :=
  request.startDate.startOfMonth.monthsThrough request.endDate.startOfMonth

def nodesIncluded (request : Request) (policy : Policy) : Bool :=
  request.includeNodeResults.getD policy.includeNodeResults

theorem range_of_reversed (reversed : request.endDate.MonthBefore request.startDate) :
    request.range = .error (.invalidRange request.startDate.startOfMonth
      request.endDate.startOfMonth) := by
  have before :
      request.endDate.startOfMonth.monthIndex < request.startDate.startOfMonth.monthIndex :=
    Date.monthIndex_lt_iff.mpr reversed
  simp only [range, if_pos before]

theorem range_of_ordered (ordered : ¬ request.endDate.MonthBefore request.startDate) :
    request.range = .ok (request.startDate.startOfMonth, request.endDate.startOfMonth) := by
  have notBefore :
      ¬ request.endDate.startOfMonth.monthIndex < request.startDate.startOfMonth.monthIndex :=
    fun before => ordered (Date.monthIndex_lt_iff.mp before)
  simp only [range, if_neg notBefore]

/-- Requests with one range have the same months. -/
theorem months_eq_of_range {first second : Request} (ranges : first.range = second.range) :
    first.months = second.months := by
  have ends : first.startDate.startOfMonth = second.startDate.startOfMonth ∧
      first.endDate.startOfMonth = second.endDate.startOfMonth := by
    simp only [range] at ranges
    split at ranges <;> split at ranges <;> simp_all
  rw [months, months, ends.1, ends.2]

theorem validGraph_of_malformed (malformed : ¬ WellFormed request.nodes request.edges) :
    request.validGraph = .error (.invalidGraph (verdict request.nodes request.edges).errors) := by
  rw [← isValid_iff_wellFormed] at malformed
  simp only [validGraph, if_neg malformed]

theorem validGraph_of_wellFormed (wellFormed : WellFormed request.nodes request.edges) :
    request.validGraph = .ok (.ofLists request.nodes request.edges) := by
  rw [← isValid_iff_wellFormed] at wellFormed
  simp only [validGraph, if_pos wellFormed]

/-- What remains to be planned once the range and the graph are accepted. -/
theorem plan_of_wellFormed (policy : Policy)
    (ordered : ¬ request.endDate.MonthBefore request.startDate)
    (wellFormed : WellFormed request.nodes request.edges) :
    request.plan policy =
      (schedule (request.model policy).graph).mapError .build >>= fun trees =>
        ((request.model policy).resolveReferences trees).mapError .data >>= fun _ =>
          pure ⟨request.model policy, trees, request.months⟩ := by
  unfold plan
  rw [range_of_ordered ordered, validGraph_of_wellFormed wellFormed]
  rfl

theorem report_of_reversed (policy : Policy) (moment : Timestamp)
    (reversed : request.endDate.MonthBefore request.startDate) :
    request.report policy moment = .error (.invalidRange request.startDate.startOfMonth
      request.endDate.startOfMonth) := by
  unfold report plan
  rw [range_of_reversed reversed]
  rfl

/-- What a request comes to once its range and its graph are accepted. -/
theorem report_of_wellFormed (policy : Policy) (moment : Timestamp)
    (ordered : ¬ request.endDate.MonthBefore request.startDate)
    (wellFormed : WellFormed request.nodes request.edges) :
    request.report policy moment =
      (schedule (request.model policy).graph).mapError .build >>= fun trees =>
        ((request.model policy).resolveReferences trees).mapError .data >>= fun _ =>
          ((request.model policy).run trees request.months).mapError .evaluation >>= fun ledger =>
            pure ((request.model policy).report ledger trees request.forecastId moment
              (request.nodesIncluded policy)) := by
  unfold report
  rw [plan_of_wellFormed policy ordered wellFormed]
  simp only [bind_assoc, pure_bind]
  rfl

theorem report_of_malformed (policy : Policy) (moment : Timestamp)
    (ordered : ¬ request.endDate.MonthBefore request.startDate)
    (malformed : ¬ WellFormed request.nodes request.edges) :
    request.report policy moment =
      .error (.invalidGraph (verdict request.nodes request.edges).errors) := by
  unfold report plan
  rw [range_of_ordered ordered, validGraph_of_malformed malformed]
  rfl

/-- A request with the trees of its graph and the ledger of their run. -/
structure Evaluated (policy : Policy) (request : Request) (trees : List MetricTree)
    (ledger : Ledger) : Prop where
  wellFormed : WellFormed request.nodes request.edges
  scheduled : Scheduled (request.model policy).graph trees
  progress : (request.model policy).Progress request.months
    (fun node place => Model.InTrees trees node ∧ place < request.months.length) ledger

section Accepted

variable (policy : Policy) (moment : Timestamp)
  (ordered : ¬ request.endDate.MonthBefore request.startDate)
  (wellFormed : WellFormed request.nodes request.edges)
include ordered wellFormed

theorem report_of_unscheduled {fault : BuildFault}
    (failed : schedule (request.model policy).graph = .error fault) :
    request.report policy moment = .error (.build fault) := by
  rw [report_of_wellFormed policy moment ordered wellFormed, failed]
  rfl

theorem report_of_unresolved {fault : DataFault}
    (found : schedule (request.model policy).graph = .ok trees)
    (failed : (request.model policy).resolveReferences trees = .error fault) :
    request.report policy moment = .error (.data fault) := by
  rw [report_of_wellFormed policy moment ordered wellFormed, found]
  simp only [Except.mapError, bind, Except.bind, failed]

/-- Once its references are resolved a request is reported. -/
theorem exists_report_of_resolved (found : schedule (request.model policy).graph = .ok trees)
    (resolved : (request.model policy).resolveReferences trees = .ok ()) :
    ∃ ledger, Evaluated policy request trees ledger ∧
      request.report policy moment = .ok ((request.model policy).report ledger trees
        request.forecastId moment (request.nodesIncluded policy)) := by
  have scheduled := ((schedule_outcome wellFormed.checked.resolved).of_ok found).1
  obtain ⟨ledger, ran, progress⟩ := Model.exists_run_of_admissible (request.model policy)
    wellFormed.checked scheduled.toForest (Model.admissible_of_scheduled scheduled) request.months
  refine ⟨ledger, ⟨wellFormed, scheduled, progress⟩, ?_⟩
  rw [report_of_wellFormed policy moment ordered wellFormed, found]
  simp only [Except.mapError, bind, Except.bind, resolved, pure, Except.pure, ran]

end Accepted

/-- A report comes from a run of the trees of the request's graph. -/
theorem report_eq_ok {moment : Timestamp} {report : Report}
    (reported : request.report policy moment = .ok report) :
    ∃ trees ledger, WellFormed request.nodes request.edges ∧
      schedule (request.model policy).graph = .ok trees ∧
      (request.model policy).run trees request.months = .ok ledger ∧
      report = (request.model policy).report ledger trees request.forecastId moment
        (request.nodesIncluded policy) := by
  by_cases reversed : request.endDate.MonthBefore request.startDate
  · rw [report_of_reversed policy moment reversed] at reported
    contradiction
  by_cases wellFormed : WellFormed request.nodes request.edges
  · rw [report_of_wellFormed policy moment reversed wellFormed] at reported
    cases found : schedule (request.model policy).graph with
    | error fault =>
      rw [found] at reported
      contradiction
    | ok trees =>
      simp only [found, Except.mapError, bind, Except.bind] at reported
      cases resolved : (request.model policy).resolveReferences trees with
      | error fault => simp [resolved] at reported
      | ok =>
        cases ran : (request.model policy).run trees request.months with
        | error fault => simp [resolved, ran] at reported
        | ok ledger =>
          simp only [resolved, ran, pure, Except.pure, Except.ok.injEq] at reported
          exact ⟨trees, ledger, wellFormed, rfl, ran, reported.symm⟩
  · rw [report_of_malformed policy moment reversed wellFormed] at reported
    contradiction

theorem evaluated_of_run {ledger : Ledger} (wellFormed : WellFormed request.nodes request.edges)
    (found : schedule (request.model policy).graph = .ok trees)
    (ran : (request.model policy).run trees request.months = .ok ledger) :
    Evaluated policy request trees ledger := by
  have checked : (request.model policy).graph.Checked := wellFormed.checked
  have scheduled := ((schedule_outcome checked.resolved).of_ok found).1
  have outcome := Model.run_checked_outcome checked scheduled.toForest request.months
  exact ⟨wellFormed, scheduled, (outcome.of_ok ran).1⟩

/-- Two accepted requests with the same trees, under other numbers or not, and the same
unresolved references fail alike or are both reported. -/
theorem report_lockstep {first second : Request} (policy : Policy) (moment : Timestamp)
    (ordered : ¬ first.endDate.MonthBefore first.startDate)
    (wellFormed : WellFormed first.nodes first.edges)
    (otherOrdered : ¬ second.endDate.MonthBefore second.startDate)
    (otherWellFormed : WellFormed second.nodes second.edges)
    (renumber : List MetricTree → List MetricTree)
    (schedules : schedule (second.model policy).graph =
      (schedule (first.model policy).graph).map renumber)
    (references : ∀ trees, (second.model policy).resolveReferences (renumber trees) =
      (first.model policy).resolveReferences trees) :
    (∃ fault, first.report policy moment = .error fault ∧
        second.report policy moment = .error fault) ∨
      ∃ trees ledger otherLedger, Evaluated policy first trees ledger ∧
        Evaluated policy second (renumber trees) otherLedger ∧
        first.report policy moment = .ok ((first.model policy).report ledger trees
          first.forecastId moment (first.nodesIncluded policy)) ∧
        second.report policy moment = .ok ((second.model policy).report otherLedger
          (renumber trees) second.forecastId moment (second.nodesIncluded policy)) := by
  cases found : schedule (first.model policy).graph with
  | error fault =>
    rw [found] at schedules
    exact Or.inl ⟨.build fault, report_of_unscheduled policy moment ordered wellFormed found,
      report_of_unscheduled policy moment otherOrdered otherWellFormed schedules⟩
  | ok trees =>
    rw [found] at schedules
    have same := references trees
    cases resolved : (first.model policy).resolveReferences trees with
    | error fault =>
      rw [resolved] at same
      exact Or.inl ⟨.data fault,
        report_of_unresolved policy moment ordered wellFormed found resolved,
        report_of_unresolved policy moment otherOrdered otherWellFormed schedules same⟩
    | ok =>
      rw [resolved] at same
      obtain ⟨ledger, evaluated, reported⟩ :=
        exists_report_of_resolved policy moment ordered wellFormed found resolved
      obtain ⟨otherLedger, otherEvaluated, otherReported⟩ :=
        exists_report_of_resolved policy moment otherOrdered otherWellFormed schedules same
      exact Or.inr ⟨trees, ledger, otherLedger, evaluated, otherEvaluated, reported,
        otherReported⟩

/-- How a calculation ends, with what the request says and what is given. -/
inductive Ends (policy : Policy) (request : Request) (moment : Timestamp) :
    Except Fault Report → Prop where
  | reversed {start stop : Date} (reversed : request.endDate.MonthBefore request.startDate) :
      Ends policy request moment (.error (.invalidRange start stop))
  | malformed {errors : List String} (ordered : ¬ request.endDate.MonthBefore request.startDate)
      (malformed : ¬ WellFormed request.nodes request.edges) :
      Ends policy request moment (.error (.invalidGraph errors))
  | cyclic {group : List String} (ordered : ¬ request.endDate.MonthBefore request.startDate)
      (wellFormed : WellFormed request.nodes request.edges)
      (cyclic : ReadCycle request.nodes request.edges) :
      Ends policy request moment (.error (.build (.metricCycle group)))
  | missing {variableId nodeId : String}
      (ordered : ¬ request.endDate.MonthBefore request.startDate)
      (wellFormed : WellFormed request.nodes request.edges)
      (acyclic : ¬ ReadCycle request.nodes request.edges) (missing : VariableMissing request) :
      Ends policy request moment (.error (.data (.unknownVariable variableId nodeId)))
  | reported {trees : List MetricTree} {ledger : Ledger}
      (ordered : ¬ request.endDate.MonthBefore request.startDate)
      (wellFormed : WellFormed request.nodes request.edges)
      (acyclic : ¬ ReadCycle request.nodes request.edges) (known : ¬ VariableMissing request)
      (scheduled : Scheduled (request.model policy).graph trees)
      (progress : (request.model policy).Progress request.months
        (fun node place => Model.InTrees trees node ∧ place < request.months.length) ledger) :
      Ends policy request moment (.ok ((request.model policy).report ledger trees
        request.forecastId moment (request.nodesIncluded policy)))

theorem report_ends (policy : Policy) (request : Request) (moment : Timestamp) :
    Ends policy request moment (request.report policy moment) := by
  by_cases reversed : request.endDate.MonthBefore request.startDate
  · rw [report_of_reversed policy moment reversed]
    exact .reversed reversed
  by_cases wellFormed : WellFormed request.nodes request.edges
  · rcases schedule_cases policy wellFormed with ⟨cyclic, group, failed⟩ |
      ⟨acyclic, trees, found, scheduled⟩
    · rw [report_of_unscheduled policy moment reversed wellFormed failed]
      exact .cyclic reversed wellFormed cyclic
    rcases references_cases wellFormed scheduled with ⟨missing, variableId, nodeId, failed⟩ |
      ⟨known, resolved⟩
    · rw [report_of_unresolved policy moment reversed wellFormed found failed]
      exact .missing reversed wellFormed acyclic missing
    · obtain ⟨ledger, evaluated, reported⟩ :=
        exists_report_of_resolved policy moment reversed wellFormed found resolved
      rw [reported]
      exact .reported reversed wellFormed acyclic known scheduled evaluated.progress
  · rw [report_of_malformed policy moment reversed wellFormed]
    exact .malformed reversed wellFormed

/-- The faults of a request, as opposed to those of a calculation gone wrong. -/
def Expected : Fault → Prop
  | .invalidRange .. | .invalidGraph _ | .build (.metricCycle _)
  | .data (.unknownVariable ..) => True
  | .build _ | .data _ | .evaluation _ => False

/-- A calculation ends in one of five ways, each exactly if the request gives the reason
and no earlier one; every other fault is impossible. -/
theorem report_classified (policy : Policy) (request : Request) (moment : Timestamp) :
    let result := request.report policy moment
    let reversed := request.endDate.MonthBefore request.startDate
    let wellFormed := WellFormed request.nodes request.edges
    let cyclic := ReadCycle request.nodes request.edges
    let missing := VariableMissing request
    ((∃ start stop, result = .error (.invalidRange start stop)) ↔ reversed) ∧
      ((∃ errors, result = .error (.invalidGraph errors)) ↔ ¬ reversed ∧ ¬ wellFormed) ∧
      ((∃ group, result = .error (.build (.metricCycle group))) ↔
        ¬ reversed ∧ wellFormed ∧ cyclic) ∧
      ((∃ variableId nodeId, result = .error (.data (.unknownVariable variableId nodeId))) ↔
        ¬ reversed ∧ wellFormed ∧ ¬ cyclic ∧ missing) ∧
      ((∃ report, result = .ok report) ↔ ¬ reversed ∧ wellFormed ∧ ¬ cyclic ∧ ¬ missing) ∧
      ∀ fault, result = .error fault → Expected fault := by
  have ends := report_ends policy request moment
  generalize request.report policy moment = result at ends
  cases ends with
  | reversed reversed => simp [reversed, Expected]
  | malformed ordered malformed => simp [ordered, malformed, Expected]
  | cyclic ordered wellFormed cyclic => simp [ordered, wellFormed, cyclic, Expected]
  | missing ordered wellFormed acyclic missing =>
    simp [ordered, wellFormed, acyclic, missing, Expected]
  | reported ordered wellFormed acyclic known => simp [ordered, wellFormed, acyclic, known]

end Request
end MonthlyForecast
