import MonthlyForecast.Proofs.Report.Entries

/-! What a metric depends on. The nodes that its values are computed from, directly or
through others, are told by the node and edge lists; a request that has these nodes alike
gives the metric the same columns. Other nodes, edges and variables, the order of the lists
and whatever other metrics are computed from play no part. -/
namespace MonthlyForecast
open Relation Validation MetricTree

/-- The node is the metric, or its values are among those that the metric's are computed
from. -/
def ReadSet (nodes : List Node) (edges : List Edge) (metric : String) : String → Prop :=
  ReflTransGen (ReadsValue nodes edges) metric

theorem Validation.WellFormed.connected_of_readSet {nodes : List Node} {edges : List Edge}
    {metric id : String} (wellFormed : WellFormed nodes edges)
    (connected : Connected nodes edges metric) (read : ReadSet nodes edges metric id) :
    Connected nodes edges id := by
  induction read with
  | refl => exact connected
  | tail _ reads ih => exact wellFormed.connected_of_reads ih reads

namespace Request

variable {first second : Request} {policy : Policy} {node twin : Node} {inside : String → Prop}
  {metric reader id : String}

theorem Twins.takes_iff (twins : Twins first second node twin) :
    twin.Takes second.edges id ↔ node.Takes first.edges id := by
  unfold Node.Takes
  rw [twins.kind_eq, twins.id_eq]
  cases kind : node.kind with
  | metric attributes =>
    apply and_congr_right
    intro used
    rw [← mem_inputIds_iff, twins.inputs_eq attributes kind used, mem_inputIds_iff]
  | data | constant | operator | seed => rfl

/-- Nodes that stand alike read the same. -/
theorem Alike.readsValue_iff (alike : Alike first second inside)
    (distinct : IdsDistinct first.nodes) (otherDistinct : IdsDistinct second.nodes)
    (member : node ∈ first.nodes) (held : inside node.id) :
    ReadsValue second.nodes second.edges node.id id ↔
      ReadsValue first.nodes first.edges node.id id := by
  obtain ⟨twin, twinMember, twins⟩ := alike node member held
  have same : twin.Takes second.edges id ∨ twin.kind = .seed id ↔
      node.Takes first.edges id ∨ node.kind = .seed id := by
    rw [twins.takes_iff, twins.kind_eq]
  constructor
  · rintro ⟨other, among, named, reads⟩
    obtain rfl := List.inj_on_of_nodup_map otherDistinct among twinMember
      (named.trans twins.id_eq.symm)
    exact ⟨node, member, rfl, same.mp reads⟩
  · rintro ⟨other, among, named, reads⟩
    obtain rfl := List.inj_on_of_nodup_map distinct among member named
    exact ⟨twin, twinMember, twins.id_eq, same.mpr reads⟩

/-- A metric reads the same nodes in two requests that have alike what it reads in one. -/
theorem Alike.readSet_iff (alike : Alike first second (ReadSet first.nodes first.edges metric))
    (wellFormed : WellFormed first.nodes first.edges)
    (connected : Connected first.nodes first.edges metric)
    (otherDistinct : IdsDistinct second.nodes) :
    ReadSet second.nodes second.edges metric id ↔ ReadSet first.nodes first.edges metric id := by
  have reads_iff : ∀ {reader id}, ReadSet first.nodes first.edges metric reader →
      (ReadsValue second.nodes second.edges reader id ↔
        ReadsValue first.nodes first.edges reader id) := by
    intro reader id read
    obtain ⟨node, member, rfl⟩ := wellFormed.exists_node_of_connected
      (wellFormed.connected_of_readSet connected read)
    exact alike.readsValue_iff wellFormed.ids_distinct otherDistinct member read
  constructor
  · intro read
    induction read with
    | refl => exact .refl
    | tail _ reads ih => exact ih.tail ((reads_iff ih).mp reads)
  · intro read
    induction read with
    | refl => exact .refl
    | tail before reads ih => exact ih.tail ((reads_iff before).mpr reads)

theorem shares_readSet (alike : Alike first second (ReadSet first.nodes first.edges metric))
    (wellFormed : WellFormed first.nodes first.edges)
    (connected : Connected first.nodes first.edges metric)
    (otherWellFormed : WellFormed second.nodes second.edges)
    (otherConnected : Connected second.nodes second.edges metric) :
    Shares first second (ReadSet first.nodes first.edges metric) where
  alike := alike
  closed := fun read reads => read.tail reads
  connected := fun read => wellFormed.connected_of_readSet connected read
  connected_too := fun read => otherWellFormed.connected_of_readSet otherConnected
    ((alike.readSet_iff wellFormed connected otherWellFormed.ids_distinct).mpr read)

/-- The columns of a metric depend on the nodes of its read set alone. -/
theorem report_noninterference (policy : Policy) (first second : Request)
    (moment otherMoment : Timestamp) (report other : Report) (metric : String)
    (reported : first.report policy moment = .ok report)
    (otherReported : second.report policy otherMoment = .ok other)
    (ranges : first.range = second.range)
    (isMetric : ∃ node ∈ first.nodes, node.id = metric ∧ IsMetric node)
    (alike : Alike first second (ReadSet first.nodes first.edges metric)) :
    (∀ id, ReadSet second.nodes second.edges metric id ↔
        ReadSet first.nodes first.edges metric id) ∧
      ∃ entry, report.metric? metric = some entry ∧ other.metric? metric = some entry := by
  obtain ⟨trees, ledger, evaluated, rfl⟩ := exists_evaluated reported
  obtain ⟨otherTrees, otherLedger, otherEvaluated, rfl⟩ := exists_evaluated otherReported
  obtain ⟨node, member, rfl, isMetric⟩ := isMetric
  obtain ⟨twin, twinMember, twins⟩ := alike node member .refl
  have twinMetric : IsMetric twin := by
    rw [IsMetric, twins.kind_eq]
    exact isMetric
  have connected : Connected first.nodes first.edges node.id := isMetric.connected member
  have otherConnected : Connected second.nodes second.edges node.id :=
    twins.id_eq ▸ twinMetric.connected twinMember
  have shares := shares_readSet alike evaluated.wellFormed connected otherEvaluated.wellFormed
    otherConnected
  have months_eq := months_eq_of_range ranges
  have entries := twins.metricEntry_eq months_eq fun place before =>
    evaluated.values_eq otherEvaluated shares (sameMonths_of_eq months_eq before) node member .refl
  refine ⟨fun id => alike.readSet_iff evaluated.wellFormed connected
    otherEvaluated.wellFormed.ids_distinct, _, evaluated.metric?_report_eq member isMetric .., ?_⟩
  rw [← twins.id_eq, otherEvaluated.metric?_report_eq twinMember twinMetric, entries]

/-- A request in which the total grows as before, beside another metric and without the one
that reads it. -/
def plainGrowthRequest : Request where
  forecastId := "plain"
  nodes := [⟨"rate", .constant "Rate" 1, none⟩, ⟨"price", .data "Price" "prices" 0, none⟩,
    ⟨"revenue", .metric ⟨"Revenue", some "plan", none, true⟩, none⟩,
    ⟨"last", .seed "total", none⟩, ⟨"sum", .operator .add ["last", "rate"], none⟩,
    ⟨"total", .metric ⟨"Total", some "plan", some "actuals", true⟩, none⟩]
  edges := [⟨"a", "price", "revenue"⟩, ⟨"b", "sum", "total"⟩, ⟨"c", "last", "sum"⟩,
    ⟨"d", "rate", "sum"⟩]
  variableList := [⟨"prices", "Prices", .budget, "", []⟩,
    ⟨"actuals", "Actuals", .actual, "", [⟨⟨2024, 12, 24, by decide⟩, some 1.5⟩]⟩,
    ⟨"plan", "Plan", .budget, "", [⟨⟨2025, 2, 7, by decide⟩, some 3⟩]⟩]
  startDate := ⟨2025, 1, 31, by decide⟩
  endDate := ⟨2025, 2, 20, by decide⟩
  includeNodeResults := none

theorem readSet_growth {id : String}
    (read : ReadSet growthRequest.nodes growthRequest.edges "total" id) :
    id ∈ ["total", "sum", "last", "rate"] := by
  induction read with
  | refl => decide
  | tail _ reads ih =>
    obtain ⟨node, member, rfl, reads⟩ := reads
    simp only [growthRequest, List.mem_cons, List.not_mem_nil, or_false] at member
    rcases member with rfl | rfl | rfl | rfl | rfl | rfl <;>
      simp_all [Node.Takes, Joined, growthRequest]

theorem alike_growth : Alike growthRequest plainGrowthRequest
    (ReadSet growthRequest.nodes growthRequest.edges "total") := by
  intro node member read
  have named := readSet_growth read
  have kept : ∀ node ∈ growthRequest.nodes, node.id ∈ ["total", "sum", "last", "rate"] →
      node ∈ plainGrowthRequest.nodes ∧
        inputIds plainGrowthRequest.edges node.id = inputIds growthRequest.edges node.id := by
    decide
  obtain ⟨twinMember, inputs⟩ := kept node member named
  refine ⟨node, twinMember, rfl, rfl, fun _ _ _ => inputs, ?_⟩
  intro variableId names month offset
  have known : variableId ∈ ["plan", "actuals"] := by
    simp only [growthRequest, List.mem_cons, List.not_mem_nil, or_false] at member
    rcases member with rfl | rfl | rfl | rfl | rfl | rfl <;> simp_all [NodeKind.Names]
    exact names.imp Eq.symm Eq.symm
  have lookups : ∀ variableId ∈ ["plan", "actuals"],
      plainGrowthRequest.series.lookup variableId = growthRequest.series.lookup variableId := by
    decide +kernel
  simp only [SeriesTable.value?, lookups variableId known]

theorem report_noninterference_growth :
    ∃ report other, growthRequest.report growthPolicy growthMoment = .ok report ∧
      plainGrowthRequest.report growthPolicy growthMoment = .ok other ∧
      growthRequest.range = plainGrowthRequest.range ∧
      (∃ node ∈ growthRequest.nodes, node.id = "total" ∧ IsMetric node) ∧
      Alike growthRequest plainGrowthRequest
        (ReadSet growthRequest.nodes growthRequest.edges "total") ∧
      (∀ id, ReadSet plainGrowthRequest.nodes plainGrowthRequest.edges "total" id ↔
        ReadSet growthRequest.nodes growthRequest.edges "total" id) ∧
      ∃ entry, report.metric? "total" = some entry ∧ other.metric? "total" = some entry := by
  have completes : (growthRequest.report growthPolicy growthMoment).toBool = true := by
    decide +kernel
  have otherCompletes : (plainGrowthRequest.report growthPolicy growthMoment).toBool = true := by
    decide +kernel
  have ranges : growthRequest.range = plainGrowthRequest.range := by decide
  have isMetric : ∃ node ∈ growthRequest.nodes, node.id = "total" ∧ IsMetric node := by
    unfold IsMetric
    decide
  cases reported : growthRequest.report growthPolicy growthMoment with
  | error fault =>
    rw [reported] at completes
    contradiction
  | ok report =>
    cases otherReported : plainGrowthRequest.report growthPolicy growthMoment with
    | error fault =>
      rw [otherReported] at otherCompletes
      contradiction
    | ok other =>
      exact ⟨report, other, rfl, rfl, ranges, isMetric, alike_growth,
        report_noninterference growthPolicy growthRequest plainGrowthRequest growthMoment
          growthMoment report other "total" reported otherReported ranges isMetric alike_growth⟩

end Request
end MonthlyForecast
