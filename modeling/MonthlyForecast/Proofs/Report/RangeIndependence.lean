import MonthlyForecast.Proofs.Calculation.ReadSet

/-! One graph over two ranges. A seed looks back to the first month of its range; every other
node looks at dates only. So a metric that reads no seed has the same row for a date in every
range that holds it, and one that reads constants alone has one forecast throughout. -/
namespace MonthlyForecast
open Validation

namespace Request

/-- No seed is among the nodes that the metric's values are computed from. -/
def Seedless (request : Request) (metric : String) : Prop :=
  ∀ node ∈ request.nodes, ReadSet request.nodes request.edges metric node.id →
    ∀ source, node.kind ≠ .seed source

/-- The metric's values are computed from constants by operators and by metrics that use an
input. -/
def Unvarying (request : Request) (metric : String) : Prop :=
  ∀ node ∈ request.nodes, ReadSet request.nodes request.edges metric node.id →
    match node.kind with
    | .constant .. | .operator .. => True
    | .metric attributes => ¬ attributes.FallsBack request.edges node.id
    | .data .. | .seed _ => False

variable {request first second : Request} {policy otherPolicy : Policy}
  {trees otherTrees : List MetricTree} {ledger otherLedger : Ledger} {values : Values}
  {metric : Node} {date month otherMonth : Date} {place otherPlace : Nat}

theorem Unvarying.seedless {id : String} (unvarying : request.Unvarying id) :
    request.Seedless id := by
  intro node member read source kind
  have impossible := unvarying node member read
  rw [kind] at impossible
  exact impossible

/-- The range of a report is not empty. -/
theorem exists_first_month {moment : Timestamp} {report : Report}
    (reported : request.report policy moment = .ok report) :
    ∃ month, request.months[0]? = some month := by
  have ends := report_ends policy request moment
  rw [reported] at ends
  cases ends with
  | reported ordered =>
    rw [← Date.monthIndex_lt_iff, not_lt] at ordered
    have start : request.startDate.startOfMonth ∈ request.months :=
      Date.mem_monthsThrough_iff.mpr ⟨rfl, le_refl _, ordered⟩
    exact ⟨_, List.getElem?_eq_getElem (List.length_pos_of_mem start)⟩

/-- Two evaluations of one graph over the same variables. The ranges are free, and so is what a
seed gives in the first month. -/
structure Reranged (policy otherPolicy : Policy) (first second : Request) : Prop where
  nodes_eq : second.nodes = first.nodes
  edges_eq : second.edges = first.edges
  variables_eq : second.variableList = first.variableList
  fallback_eq : otherPolicy.fallbackSource = policy.fallbackSource

namespace Reranged

variable (reranged : Reranged policy otherPolicy first second)
  (one : Evaluated policy first trees ledger)
  (other : Evaluated otherPolicy second otherTrees otherLedger)
  (member : metric ∈ first.nodes) (isMetric : IsMetric metric)
include reranged

theorem series_eq : second.series = first.series := by
  rw [series, series, reranged.variables_eq]

include one other member isMetric

/-- Without seeds a metric's forecasts agree wherever the two months supply the same. -/
theorem forecast_eq (seedless : first.Seedless metric.id)
    (here : first.months[place]? = some month)
    (there : second.months[otherPlace]? = some otherMonth)
    (data : ∀ node ∈ first.nodes, ReadSet first.nodes first.edges metric.id node.id →
      ∀ name id offset, node.kind = .data name id offset →
        first.series.value? id month offset.toInt = second.series.value? id otherMonth offset.toInt)
    (fallback : ∀ node ∈ first.nodes, ReadSet first.nodes first.edges metric.id node.id →
      ∀ attributes, node.kind = .metric attributes → attributes.FallsBack first.edges node.id →
        fallbackOf policy first.series attributes month =
          fallbackOf otherPolicy second.series attributes otherMonth) :
    first.ledgerValues ledger metric.id place =
      second.ledgerValues otherLedger metric.id otherPlace := by
  have connected : ∀ {id}, ReadSet first.nodes first.edges metric.id id →
      Connected first.nodes first.edges id :=
    fun read => one.wellFormed.connected_of_readSet (isMetric.connected member) read
  have connectedToo : ∀ {id}, ReadSet first.nodes first.edges metric.id id →
      Connected second.nodes second.edges id := by
    rw [reranged.nodes_eq, reranged.edges_eq]
    exact connected
  have counterparts : ∀ node ∈ first.nodes, ReadSet first.nodes first.edges metric.id node.id →
      ∃ twin ∈ second.nodes, Counterpart first second node twin := by
    intro node member _
    exact ⟨node, reranged.nodes_eq ▸ member, rfl, rfl, fun _ _ _ => by rw [reranged.edges_eq]⟩
  exact one.solves.relate_seedless other.solves keptByOperators_eq one.wellFormed
    (fun read reads => read.tail reads) connected connectedToo here there counterparts seedless
    data fallback metric member .refl

/-- A date of both ranges supplies the same. -/
theorem metricMonth_eq (seedless : first.Seedless metric.id)
    (here : first.months[place]? = some date) (there : second.months[otherPlace]? = some date) :
    first.metricMonth (first.ledgerValues ledger) metric date place =
      second.metricMonth (second.ledgerValues otherLedger) metric date otherPlace := by
  have forecast := reranged.forecast_eq one other member isMetric seedless here there
    (fun _ _ _ _ _ _ _ => by rw [reranged.series_eq])
    (fun _ _ _ _ _ _ => by simp only [fallbackOf, reranged.series_eq, reranged.fallback_eq])
  simp only [metricMonth, forecast, reranged.series_eq]

/-- Constants give every month the same. -/
theorem forecast_eq_of_unvarying (unvarying : first.Unvarying metric.id)
    (here : first.months[place]? = some month)
    (there : second.months[otherPlace]? = some otherMonth) :
    first.ledgerValues ledger metric.id place =
      second.ledgerValues otherLedger metric.id otherPlace := by
  apply reranged.forecast_eq one other member isMetric unvarying.seedless here there
  · intro node among read _ _ _ kind
    have impossible := unvarying node among read
    rw [kind] at impossible
    contradiction
  · intro node among read _ kind fallsBack
    have uses := unvarying node among read
    rw [kind] at uses
    exact absurd fallsBack uses

end Reranged

/-- A metric that reads no seed has one row for each date that two ranges share, and one that
reads constants alone has the same forecast at every date of both. -/
theorem report_reranged (policy otherPolicy : Policy) (first second : Request)
    (moment otherMoment : Timestamp) (report other : Report) (metric : Node)
    (reported : first.report policy moment = .ok report)
    (otherReported : second.report otherPolicy otherMoment = .ok other)
    (reranged : Reranged policy otherPolicy first second) (member : metric ∈ first.nodes)
    (isMetric : IsMetric metric) :
    ∃ entry otherEntry, report.metric? metric.id = some entry ∧
      other.metric? metric.id = some otherEntry ∧
      (first.Seedless metric.id → ∀ date ∈ first.months, date ∈ second.months →
        ∃ row, entry.RowOf date row ∧ otherEntry.RowOf date row) ∧
      (first.Unvarying metric.id →
        ∃ value, ∀ row ∈ entry.values ++ otherEntry.values, row.forecast = value) := by
  obtain ⟨trees, ledger, one, rfl⟩ := exists_evaluated reported
  obtain ⟨otherTrees, otherLedger, two, rfl⟩ := exists_evaluated otherReported
  have otherMember : metric ∈ second.nodes := reranged.nodes_eq ▸ member
  refine ⟨_, _, one.metric?_report_eq member isMetric ..,
    two.metric?_report_eq otherMember isMetric .., ?_, ?_⟩
  · intro seedless date inside insideToo
    obtain ⟨place, here⟩ := List.mem_iff_getElem?.mp inside
    obtain ⟨otherPlace, there⟩ := List.mem_iff_getElem?.mp insideToo
    refine ⟨_, metricEntry_rowOf here, ?_⟩
    rw [reranged.metricMonth_eq one two member isMetric seedless here there]
    exact metricEntry_rowOf there
  · intro unvarying
    obtain ⟨month, start⟩ := exists_first_month reported
    have same : Reranged policy policy first first := ⟨rfl, rfl, rfl, rfl⟩
    refine ⟨first.ledgerValues ledger metric.id 0, List.forall_mem_append.mpr ⟨?_, ?_⟩⟩
    · intro row shown
      obtain ⟨place, here, forecast⟩ := exists_place_of_row shown
      rw [forecast, same.forecast_eq_of_unvarying one one member isMetric unvarying start here]
    · intro row shown
      obtain ⟨place, there, forecast⟩ := exists_place_of_row shown
      rw [forecast, reranged.forecast_eq_of_unvarying one two member isMetric unvarying start there]

/-- A fee from constants, a yield from the fee and the price of the month after, and the yield
of the month before. -/
def yieldRequest (start stop : Date) : Request where
  forecastId := "yield"
  nodes := [⟨"base", .constant "Base" 2, none⟩, ⟨"rate", .constant "Rate" 3, none⟩,
    ⟨"product", .operator .multiply ["base", "rate"], none⟩,
    ⟨"fee", .metric ⟨"Fee", some "plan", none, true⟩, none⟩,
    ⟨"price", .data "Price" "prices" 1, none⟩,
    ⟨"margin", .operator .subtract ["price", "fee"], none⟩,
    ⟨"yield", .metric ⟨"Yield", none, some "past", true⟩, none⟩, ⟨"last", .seed "yield", none⟩,
    ⟨"before", .metric ⟨"Before", none, none, true⟩, none⟩]
  edges := [⟨"a", "base", "product"⟩, ⟨"b", "rate", "product"⟩, ⟨"c", "product", "fee"⟩,
    ⟨"d", "fee", "margin"⟩, ⟨"e", "price", "margin"⟩, ⟨"f", "margin", "yield"⟩,
    ⟨"g", "last", "before"⟩]
  variableList := [⟨"plan", "Plan", .budget, "", []⟩, ⟨"past", "Past", .actual, "", []⟩,
    ⟨"prices", "Prices", .input, "", [⟨⟨2028, 3, 1, by decide⟩, some 9⟩]⟩]
  startDate := start
  endDate := stop
  includeNodeResults := none

/-- The first two months of a year. -/
def winterRequest : Request :=
  yieldRequest ⟨2028, 1, 31, by decide⟩ ⟨2028, 2, 1, by decide⟩

/-- The second month of the year and the two after it. -/
def springRequest : Request :=
  yieldRequest ⟨2028, 2, 29, by decide⟩ ⟨2028, 4, 30, by decide⟩

theorem readSet_winter {reader id : String} {inside : List String} (held : reader ∈ inside)
    (closed : ∀ node ∈ winterRequest.nodes, node.id ∈ inside → ∀ source,
      node.Takes winterRequest.edges source ∨ node.kind = .seed source → source ∈ inside)
    (read : ReadSet winterRequest.nodes winterRequest.edges reader id) : id ∈ inside := by
  induction read with
  | refl => exact held
  | tail _ reads ih =>
    obtain ⟨node, member, rfl, reads⟩ := reads
    exact closed node member ih _ reads

theorem seedless_yield : winterRequest.Seedless "yield" := by
  have inside : ∀ id, ReadSet winterRequest.nodes winterRequest.edges "yield" id →
      id ∈ ["yield", "margin", "price", "fee", "product", "base", "rate"] := by
    intro id
    apply readSet_winter (by decide)
    simp [winterRequest, yieldRequest, Node.Takes, Joined]
  intro node member read
  have := inside _ read
  simp only [winterRequest, yieldRequest, List.mem_cons, List.not_mem_nil, or_false] at member
  rcases member with rfl | rfl | rfl | rfl | rfl | rfl | rfl | rfl | rfl <;> simp_all

theorem unvarying_fee : winterRequest.Unvarying "fee" := by
  have inside : ∀ id, ReadSet winterRequest.nodes winterRequest.edges "fee" id →
      id ∈ ["fee", "product", "base", "rate"] := by
    intro id
    apply readSet_winter (by decide)
    simp [winterRequest, yieldRequest, Node.Takes, Joined]
  intro node member read
  have := inside _ read
  simp only [winterRequest, yieldRequest, List.mem_cons, List.not_mem_nil, or_false] at member
  rcases member with rfl | rfl | rfl | rfl | rfl | rfl | rfl | rfl | rfl <;>
    simp_all [Metric.FallsBack, inputIds, winterRequest, yieldRequest]

/-- The ranges share February, and what a seed gives at the start differs. -/
theorem report_reranged_yield :
    ∃ report other yieldMetric fee february,
      winterRequest.report .standard growthMoment = .ok report ∧
      springRequest.report ⟨.priorHistorical, .budget, false⟩ growthMoment = .ok other ∧
      Reranged .standard ⟨.priorHistorical, .budget, false⟩ winterRequest springRequest ∧
      yieldMetric ∈ winterRequest.nodes ∧ IsMetric yieldMetric ∧ fee ∈ winterRequest.nodes ∧
      IsMetric fee ∧ winterRequest.Seedless yieldMetric.id ∧ winterRequest.Unvarying fee.id ∧
      february ∈ winterRequest.months ∧ february ∈ springRequest.months ∧
      (∃ entry otherEntry, report.metric? yieldMetric.id = some entry ∧
        other.metric? yieldMetric.id = some otherEntry ∧
        ∃ row, entry.RowOf february row ∧ otherEntry.RowOf february row) ∧
      ∃ entry otherEntry, report.metric? fee.id = some entry ∧
        other.metric? fee.id = some otherEntry ∧
        ∃ value, ∀ row ∈ entry.values ++ otherEntry.values, row.forecast = value := by
  have completes : (winterRequest.report .standard growthMoment).toBool = true := by
    decide +kernel
  have otherCompletes :
      (springRequest.report ⟨.priorHistorical, .budget, false⟩ growthMoment).toBool = true := by
    decide +kernel
  obtain ⟨report, reported⟩ := exists_of_toBool completes
  obtain ⟨other, otherReported⟩ := exists_of_toBool otherCompletes
  let february : Date := ⟨2028, 2, 1, by decide⟩
  have inside : february ∈ winterRequest.months := by decide
  have insideToo : february ∈ springRequest.months := by decide
  have reranged : Reranged .standard ⟨.priorHistorical, .budget, false⟩ winterRequest
      springRequest := ⟨rfl, rfl, rfl, rfl⟩
  obtain ⟨yieldMember, yieldIs⟩ : winterRequest.nodes[6] ∈ winterRequest.nodes ∧
      IsMetric winterRequest.nodes[6] := ⟨List.getElem_mem _, rfl⟩
  obtain ⟨feeMember, feeIs⟩ : winterRequest.nodes[3] ∈ winterRequest.nodes ∧
      IsMetric winterRequest.nodes[3] := ⟨List.getElem_mem _, rfl⟩
  obtain ⟨entry, otherEntry, found, otherFound, shared, _⟩ :=
    report_reranged _ _ winterRequest springRequest growthMoment growthMoment report other
      winterRequest.nodes[6] reported otherReported reranged yieldMember yieldIs
  obtain ⟨feeEntry, otherFeeEntry, feeFound, otherFeeFound, _, flat⟩ :=
    report_reranged _ _ winterRequest springRequest growthMoment growthMoment report other
      winterRequest.nodes[3] reported otherReported reranged feeMember feeIs
  exact ⟨report, other, _, _, february, reported, otherReported, reranged, yieldMember, yieldIs,
    feeMember, feeIs, seedless_yield, unvarying_fee, inside, insideToo,
    ⟨entry, otherEntry, found, otherFound, shared seedless_yield february inside insideToo⟩,
    feeEntry, otherFeeEntry, feeFound, otherFeeFound, flat unvarying_fee⟩

end Request
end MonthlyForecast
