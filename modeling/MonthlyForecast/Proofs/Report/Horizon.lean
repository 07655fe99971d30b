import MonthlyForecast.Proofs.Report.Entries

/-! A longer horizon. Every check before the run looks at the graph and the variables alone,
so a request ends in the same way up to a later date. The months of the shorter range come
first in the longer one and a node reads no later month than its own, so what is reported
for them stays as it is. -/
namespace MonthlyForecast
open Validation MetricTree

/-- The longer entry begins with the rows of the shorter one. -/
structure MetricReport.ExtendedBy (entry longer : MetricReport) : Prop where
  id_eq : longer.metricNodeId = entry.metricNodeId
  label_eq : longer.label = entry.label
  values_prefix : entry.values <+: longer.values

structure NodeReport.ExtendedBy (entry longer : NodeReport) : Prop where
  id_eq : longer.nodeId = entry.nodeId
  type_eq : longer.nodeType = entry.nodeType
  owner_eq : longer.metricNodeId = entry.metricNodeId
  values_prefix : entry.values <+: longer.values

/-- The longer report has the same entries in the same order, each with further rows. -/
structure Report.ExtendedBy (report longer : Report) : Prop where
  forecastId_eq : longer.forecastId = report.forecastId
  calculatedAt_eq : longer.calculatedAt = report.calculatedAt
  metrics : List.Forall₂ MetricReport.ExtendedBy report.metrics longer.metrics
  nodes : Option.Rel (List.Forall₂ NodeReport.ExtendedBy) report.allNodes longer.allNodes

/-- Both calculations fail alike, or the second report extends the first. -/
inductive Extends : Except Fault Report → Except Fault Report → Prop where
  | failed (fault : Fault) : Extends (.error fault) (.error fault)
  | reported {report longer : Report} (extended : report.ExtendedBy longer) :
      Extends (.ok report) (.ok longer)

namespace Request

/-- The request up to another end. -/
def upTo (request : Request) (later : Date) : Request :=
  { request with endDate := later }

variable {request : Request} {policy : Policy} {trees : List MetricTree} {ledger others : Ledger}
  {later : Date}

theorem twins_upTo (request : Request) (later : Date) :
    ∀ node, Twins request (request.upTo later) node node :=
  twins_of_eq rfl rfl

theorem months_isPrefix (after : ¬ later.MonthBefore request.endDate) :
    request.months <+: (request.upTo later).months :=
  Date.monthsThrough_isPrefix after

section Extended

variable (evaluated : Evaluated policy request trees ledger)
  (after : ¬ later.MonthBefore request.endDate)
  (other : Evaluated policy (request.upTo later) trees others)
include evaluated after other

theorem values_upTo {place : Nat} {month : Date} (dated : request.months[place]? = some month) :
    ∀ node ∈ request.nodes, Connected request.nodes request.edges node.id →
      request.ledgerValues ledger node.id place =
        (request.upTo later).ledgerValues others node.id place := by
  have shares : Shares request (request.upTo later) (Connected request.nodes request.edges) :=
    ⟨fun node member _ => ⟨node, member, twins_upTo request later node⟩,
      evaluated.wellFormed.connected_of_reads, fun held => held, fun held => held⟩
  have before := (List.getElem?_eq_some_iff.mp dated).1
  exact evaluated.values_eq other shares (sameMonths_of_isPrefix (months_isPrefix after) before)

theorem metricEntry_extended {metric : Node} (member : metric ∈ request.nodes)
    (isMetric : IsMetric metric) :
    (request.metricEntry (request.ledgerValues ledger) metric).ExtendedBy
      ((request.upTo later).metricEntry ((request.upTo later).ledgerValues others) metric) := by
  refine ⟨rfl, rfl, rows_isPrefix (months_isPrefix after) ?_⟩
  intro place month dated
  exact (twins_upTo request later metric).metricMonth_eq
    (values_upTo evaluated after other dated metric member (isMetric.connected member))

theorem nodeEntry_extended {node owner : Node} (member : node ∈ request.nodes)
    (connected : Connected request.nodes request.edges node.id)
    (ownerMember : owner ∈ request.nodes) (isMetric : IsMetric owner) :
    (request.nodeEntry (request.ledgerValues ledger) node owner).ExtendedBy
      ((request.upTo later).nodeEntry ((request.upTo later).ledgerValues others) node owner) := by
  refine ⟨rfl, rfl, rfl, rows_isPrefix (months_isPrefix after) ?_⟩
  intro place month dated
  exact (twins_upTo request later node).nodeMonth_eq (twins_upTo request later owner)
    (values_upTo evaluated after other dated node member connected)
    (values_upTo evaluated after other dated owner ownerMember (isMetric.connected ownerMember))

theorem report_extendedBy (moment : Timestamp) :
    ((request.model policy).report ledger trees request.forecastId moment
      (request.nodesIncluded policy)).ExtendedBy
        (((request.upTo later).model policy).report others trees request.forecastId moment
          (request.nodesIncluded policy)) := by
  have mem_iff_place : ∀ {node}, node ∈ request.nodes ↔ _ := evaluated.wellFormed.mem_iff_place
  refine ⟨rfl, rfl, ?_, ?_⟩
  · rw [other.metrics_report_eq, evaluated.metrics_report_eq, List.forall₂_map_left_iff,
      List.forall₂_map_right_iff]
    apply List.forall₂_same.mpr
    intro metric member
    obtain ⟨among, type⟩ := List.mem_filter.mp member
    exact metricEntry_extended evaluated after other among (beq_iff_eq.mp type)
  · rw [Model.allNodes_report, Model.allNodes_report]
    cases request.nodesIncluded policy with
    | false => exact .none
    | true =>
      apply Option.Rel.some
      rw [Model.nodeEntries, Model.nodeEntries, List.forall₂_map_left_iff,
        List.forall₂_map_right_iff]
      apply List.forall₂_same.mpr
      rintro ⟨i, j⟩ listed
      obtain ⟨node, owner, stands, ownerStands, connected, isMetric⟩ :=
        evaluated.exists_owned listed
      rw [nodeReport_eq evaluated.months_eq stands ownerStands,
        nodeReport_eq other.months_eq stands ownerStands]
      exact nodeEntry_extended evaluated after other (mem_iff_place.mpr ⟨i, stands⟩) connected
        (mem_iff_place.mpr ⟨j, ownerStands⟩) isMetric

end Extended

/-- Up to a later date a request ends in the same way, and a report begins with the rows of
the shorter one. -/
theorem report_extended (policy : Policy) (request : Request) (moment : Timestamp) (later : Date)
    (ordered : ¬ request.endDate.MonthBefore request.startDate)
    (after : ¬ later.MonthBefore request.endDate) :
    Extends (request.report policy moment)
      ({ request with endDate := later }.report policy moment) := by
  have laterOrdered : ¬ later.MonthBefore request.startDate := by
    rw [← Date.monthIndex_lt_iff] at ordered after ⊢
    omega
  change Extends _ ((request.upTo later).report policy moment)
  by_cases wellFormed : WellFormed request.nodes request.edges
  · have otherWellFormed : WellFormed (request.upTo later).nodes (request.upTo later).edges :=
      wellFormed
    have schedules : schedule ((request.upTo later).model policy).graph =
        (schedule (request.model policy).graph).map id := by
      rw [Except.map_id]
      rfl
    rcases report_lockstep policy moment ordered wellFormed laterOrdered otherWellFormed id
      schedules (fun _ => rfl) with ⟨fault, failed, otherFailed⟩ |
        ⟨trees, ledger, others, evaluated, otherEvaluated, reported, otherReported⟩
    · rw [failed, otherFailed]
      exact .failed fault
    · rw [reported, otherReported]
      exact .reported (report_extendedBy evaluated after otherEvaluated moment)
  · have otherMalformed : ¬ WellFormed (request.upTo later).nodes (request.upTo later).edges :=
      wellFormed
    rw [report_of_malformed policy moment ordered wellFormed,
      report_of_malformed policy moment laterOrdered otherMalformed]
    exact .failed _

/-- A day half a year after the end of the request that grows. -/
def growthLater : Date :=
  ⟨2025, 8, 20, by decide⟩

theorem report_extended_growth :
    ¬ growthRequest.endDate.MonthBefore growthRequest.startDate ∧
      ¬ growthLater.MonthBefore growthRequest.endDate ∧
      Extends (growthRequest.report growthPolicy growthMoment)
        ({ growthRequest with endDate := growthLater }.report growthPolicy growthMoment) := by
  have ordered : ¬ growthRequest.endDate.MonthBefore growthRequest.startDate := by
    unfold Date.MonthBefore
    decide
  have after : ¬ growthLater.MonthBefore growthRequest.endDate := by
    unfold Date.MonthBefore
    decide
  exact ⟨ordered, after,
    report_extended growthPolicy growthRequest growthMoment growthLater ordered after⟩

end Request
end MonthlyForecast
