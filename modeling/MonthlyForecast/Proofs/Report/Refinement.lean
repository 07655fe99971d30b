import MonthlyForecast.Proofs.Evaluation.Series
import MonthlyForecast.Proofs.Report.Correspondence

/-! More information. A request may be given further values, and a policy may fill what another
one leaves missing. No operator, fallback or opening value puts a number in the place of a
missing one, so every number of a report stands as it is in the report that knows more. -/
namespace MonthlyForecast
open Validation

/-- A number is kept; what is missing may become one. -/
def RefinedBy (value other : Option Float) : Prop :=
  ∀ number, value = some number → other = some number

theorem RefinedBy.refl (value : Option Float) : RefinedBy value value :=
  fun _ given => given

theorem RefinedBy.of_none (other : Option Float) : RefinedBy none other := by
  intro _ given
  contradiction

theorem RefinedBy.bind {value other : Option Float} {next otherNext : Float → Option Float}
    (refined : RefinedBy value other)
    (each : ∀ number, RefinedBy (next number) (otherNext number)) :
    RefinedBy (value.bind next) (other.bind otherNext) := by
  intro result given
  obtain ⟨number, found, given⟩ := Option.bind_eq_some_iff.mp given
  rw [refined number found, Option.bind_some]
  exact each number result given

/-- An operator combines refined values to a refined one. -/
theorem Operation.combine_refined (operation : Operation) {values others : List (Option Float)}
    (all : List.Forall₂ RefinedBy values others) :
    RefinedBy (operation.combine values) (operation.combine others) := by
  cases all with
  | nil => exact .refl none
  | cons first rest =>
    apply (first.bind fun number => .refl (finite? number)).bind
    intro start
    induction rest generalizing start with
    | nil => exact .refl (some start)
    | cons value _ ih =>
      rw [List.foldlM_cons, List.foldlM_cons]
      exact ((value.bind fun number => .refl (finite? number)).bind
        fun number => .refl (operation.apply start number)).bind ih

theorem keptByOperators_refined : KeptByOperators RefinedBy where
  refl := .refl
  combine := fun operation _ _ all => operation.combine_refined all

/-- Every value of the table is found in the other. -/
def SeriesTable.ExtendedBy (table other : SeriesTable) : Prop :=
  ∀ id month, RefinedBy (table.value? id month 0) (other.value? id month 0)

theorem SeriesTable.ExtendedBy.value?_refined {table other : SeriesTable}
    (extended : table.ExtendedBy other) (id : String) (date : Date) (offset : Int) :
    RefinedBy (table.value? id date offset) (other.value? id date offset) := by
  rw [table.value?_at, other.value?_at]
  cases date.addMonths? offset with
  | none => exact .refl none
  | some month => exact extended id month

/-- A table extends another if it gives each of its recorded values again. -/
theorem SeriesTable.extendedBy_of_recorded {table other : SeriesTable}
    (again : ∀ entry ∈ table, ∀ cell ∈ entry.2,
      cell.2 = none ∨ other.value? entry.1 cell.1 0 = cell.2) : table.ExtendedBy other := by
  intro id date number given
  obtain ⟨month, series, here, entered, recorded⟩ := exists_cell given
  rw [other.value?_at, here]
  simpa using again (id, series) entered (month, some number) recorded

/-- The other policy chooses alike where this one makes a choice. -/
structure Policy.RefinedBy (policy other : Policy) : Prop where
  opening : other.seedOpening = policy.seedOpening ∨ policy.seedOpening = .missing
  fallback : other.fallbackSource = policy.fallbackSource ∨ policy.fallbackSource = .missing

namespace Request

variable {policy otherPolicy : Policy} {first second : Request}

theorem supplied_of_refined {series otherSeries : SeriesTable}
    (extended : series.ExtendedBy otherSeries) (policies : policy.RefinedBy otherPolicy)
    (kind : NodeKind) (month : Date) :
    Supplied RefinedBy policy otherPolicy series otherSeries kind month month := by
  have value : ∀ (kind : NodeKind) id, kind.Names id → ∀ offset,
      RefinedBy (series.value? id month offset) (otherSeries.value? id month offset) :=
    fun _ id _ offset => extended.value?_refined id month offset
  refine ⟨value kind, ?_, ?_⟩
  · intro attributes _
    rcases policies.fallback with same | missing
    · exact related_fallbackOf keptByOperators_refined (value _) same
    · rw [fallbackOf, missing]
      exact .of_none _
  · intro attributes _
    rcases policies.opening with same | missing
    · exact related_openingOf keptByOperators_refined (value _) same
    · rw [openingOf, missing]
      exact .of_none _

/-- Every number of a report stands as it is, for the same id and month, in the report of a
request that provides more values, under a policy that leaves less missing. The entries of nodes
are found again if the second report is to show nodes at all. -/
theorem report_refined (policy otherPolicy : Policy) (first second : Request)
    (moment otherMoment : Timestamp) (report other : Report)
    (reported : first.report policy moment = .ok report)
    (otherReported : second.report otherPolicy otherMoment = .ok other)
    (nodes_eq : second.nodes = first.nodes) (edges_eq : second.edges = first.edges)
    (ranges : first.range = second.range) (extended : first.series.ExtendedBy second.series)
    (policies : policy.RefinedBy otherPolicy) :
    List.Forall₂ (MetricReport.Corresponds Eq RefinedBy) report.metrics other.metrics ∧
      ∀ entries, report.allNodes = some entries → second.nodesIncluded otherPolicy = true →
        ∃ others, other.allNodes = some others ∧
          List.Forall₂ (NodeReport.Corresponds Eq RefinedBy) entries others := by
  have parallel : Parallel Eq RefinedBy policy otherPolicy first second := by
    refine ⟨keptByOperators_refined, nodes_eq, edges_eq, ?_, ?_⟩
    · rw [months_eq_of_range ranges]
      exact List.forall₂_refl _
    · rintro month _ rfl kind
      exact supplied_of_refined extended policies kind month
  exact parallel.reports_correspond reported otherReported

/-- Sales as price times count, and the sales of the month before. -/
def salesRequest (past counts : List SeriesPoint) : Request where
  forecastId := "sales"
  nodes := [⟨"price", .data "Price" "prices" 0, none⟩, ⟨"count", .data "Count" "counts" 0, none⟩,
    ⟨"takings", .operator .multiply ["price", "count"], none⟩,
    ⟨"sales", .metric ⟨"Sales", none, some "past", true⟩, none⟩, ⟨"last", .seed "sales", none⟩,
    ⟨"before", .metric ⟨"Before", none, none, true⟩, none⟩]
  edges := [⟨"a", "price", "takings"⟩, ⟨"b", "count", "takings"⟩, ⟨"c", "takings", "sales"⟩,
    ⟨"d", "last", "before"⟩]
  variableList := [⟨"prices", "Prices", .input, "",
      [⟨⟨2024, 1, 31, by decide⟩, some 2⟩, ⟨⟨2024, 2, 29, by decide⟩, some 2⟩]⟩,
    ⟨"counts", "Counts", .actual, "", counts⟩, ⟨"past", "Past", .actual, "", past⟩]
  startDate := ⟨2024, 1, 31, by decide⟩
  endDate := ⟨2024, 2, 29, by decide⟩
  includeNodeResults := some true

/-- The count of January alone is known. -/
def sparseRequest : Request :=
  salesRequest [] [⟨⟨2024, 1, 15, by decide⟩, some 3⟩]

/-- The counts of both months and the sales of December are known. -/
def fullRequest : Request :=
  salesRequest [⟨⟨2023, 12, 31, by decide⟩, some 5⟩]
    [⟨⟨2024, 2, 10, by decide⟩, some 4⟩, ⟨⟨2024, 1, 20, by decide⟩, some 3⟩]

/-- The sales of January are known to both requests, those of February to one. -/
theorem report_refined_sales :
    (sparseRequest.plan .standard >>= Plan.evaluate).toOption.map (·.row 3) =
        some [some 6, none] ∧
      (fullRequest.plan ⟨.priorHistorical, .budget, true⟩ >>= Plan.evaluate).toOption.map
        (·.row 3) = some [some 6, some 8] ∧
      ∃ report other, sparseRequest.report .standard growthMoment = .ok report ∧
        fullRequest.report ⟨.priorHistorical, .budget, true⟩ growthMoment = .ok other ∧
        fullRequest.nodes = sparseRequest.nodes ∧ fullRequest.edges = sparseRequest.edges ∧
        sparseRequest.range = fullRequest.range ∧
        sparseRequest.series.ExtendedBy fullRequest.series ∧
        Policy.standard.RefinedBy ⟨.priorHistorical, .budget, true⟩ ∧
        List.Forall₂ (MetricReport.Corresponds Eq RefinedBy) report.metrics other.metrics ∧
        ∀ entries, report.allNodes = some entries →
          ∃ others, other.allNodes = some others ∧
            List.Forall₂ (NodeReport.Corresponds Eq RefinedBy) entries others := by
  have sparse : (sparseRequest.plan .standard >>= Plan.evaluate).toOption.map (·.row 3) =
      some [some 6, none] := by
    decide +kernel
  have full : (fullRequest.plan ⟨.priorHistorical, .budget, true⟩ >>= Plan.evaluate).toOption.map
      (·.row 3) = some [some 6, some 8] := by
    decide +kernel
  have completes : (sparseRequest.report .standard growthMoment).toBool = true := by
    decide +kernel
  have otherCompletes :
      (fullRequest.report ⟨.priorHistorical, .budget, true⟩ growthMoment).toBool = true := by
    decide +kernel
  have ranges : sparseRequest.range = fullRequest.range := by decide
  have extended : sparseRequest.series.ExtendedBy fullRequest.series := by
    apply SeriesTable.extendedBy_of_recorded
    decide +kernel
  have policies : Policy.standard.RefinedBy ⟨.priorHistorical, .budget, true⟩ :=
    ⟨Or.inr rfl, Or.inl rfl⟩
  have included : fullRequest.nodesIncluded ⟨.priorHistorical, .budget, true⟩ = true := by decide
  obtain ⟨report, reported⟩ := exists_of_toBool completes
  obtain ⟨other, otherReported⟩ := exists_of_toBool otherCompletes
  obtain ⟨metrics, nodes⟩ := report_refined .standard ⟨.priorHistorical, .budget, true⟩
    sparseRequest fullRequest growthMoment growthMoment report other reported otherReported rfl rfl
    ranges extended policies
  exact ⟨sparse, full, report, other, reported, otherReported, rfl, rfl, ranges, extended, policies,
    metrics, fun entries given => nodes entries given included⟩

end Request
end MonthlyForecast
