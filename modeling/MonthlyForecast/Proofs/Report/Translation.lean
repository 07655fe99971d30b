import MonthlyForecast.Proofs.Evaluation.ShiftedSeries
import MonthlyForecast.Proofs.Report.Refinement

/-! Requests moved in time. If the ends of the range and all points of all series lie a number
of months later or earlier, then so does the whole report: no step of a calculation looks at a
month but by its distance from others. -/
namespace MonthlyForecast
open Validation

namespace Request

/-- The request with its range and all points at a distance, if the calendar has the months. -/
def shift? (distance : Int) (request : Request) : Option Request := do
  let start ← request.startDate.addMonths? distance
  let stop ← request.endDate.addMonths? distance
  let entries ← request.variableList.mapM (Variable.shift? distance)
  pure { request with startDate := start, endDate := stop, variableList := entries }

variable {distance : Int} {request shifted : Request} {policy : Policy}

/-- What a moved request shares with the request, and how its dates and variables lie. -/
structure Shifted (distance : Int) (request shifted : Request) : Prop where
  forecastId_eq : shifted.forecastId = request.forecastId
  nodes_eq : shifted.nodes = request.nodes
  edges_eq : shifted.edges = request.edges
  included_eq : shifted.includeNodeResults = request.includeNodeResults
  start : request.startDate.addMonths? distance = some shifted.startDate
  stop : request.endDate.addMonths? distance = some shifted.endDate
  entries : request.variableList.mapM (Variable.shift? distance) = some shifted.variableList

theorem shifted_of_shift? (moved : request.shift? distance = some shifted) :
    Shifted distance request shifted := by
  simp only [shift?, Option.bind_eq_bind, Option.bind_eq_some_iff] at moved
  obtain ⟨start, startMoved, stop, stopMoved, entries, entriesMoved, same⟩ := moved
  cases same
  exact ⟨rfl, rfl, rfl, rfl, startMoved, stopMoved, entriesMoved⟩

namespace Shifted

variable (moved : Shifted distance request shifted)
include moved

theorem months : List.Forall₂ (fun month other => month.addMonths? distance = some other)
    request.months shifted.months :=
  Date.monthsThrough_shift (Date.addMonths?_startOfMonth moved.start)
    (Date.addMonths?_startOfMonth moved.stop)

theorem parallel (policy : Policy) : Parallel
    (fun month other => month.addMonths? distance = some other) Eq policy policy request
      shifted where
  kept := keptByOperators_eq
  nodes_eq := moved.nodes_eq
  edges_eq := moved.edges_eq
  months := moved.months
  supplied := by
    intro month otherMonth shift kind
    have tables := tableShifted_ofVariables moved.entries
    apply supplied_of_values keptByOperators_eq
    intro id _ offset
    exact (tables.value?_eq shift id offset).symm

theorem variableMissing_iff : VariableMissing shifted ↔ VariableMissing request := by
  have entries := forall₂_of_mapM moved.entries
  have id_eq : ∀ {entry other : Variable}, entry.shift? distance = some other →
      other.id = entry.id := by
    intro entry other shift
    obtain ⟨points, _, rfl⟩ := Option.map_eq_some_iff.mp shift
    rfl
  have given_iff : ∀ id, (∃ entry ∈ shifted.variableList, entry.id = id) ↔
      ∃ entry ∈ request.variableList, entry.id = id := by
    intro id
    constructor
    · rintro ⟨other, member, rfl⟩
      obtain ⟨entry, among, shift⟩ := exists_left_of_forall₂ entries member
      exact ⟨entry, among, (id_eq shift).symm⟩
    · rintro ⟨entry, member, rfl⟩
      obtain ⟨other, among, shift⟩ := exists_left_of_forall₂ (List.Forall₂.flip entries) member
      exact ⟨other, among, id_eq shift⟩
  simp only [VariableMissing, moved.nodes_eq, moved.edges_eq, given_iff]

/-- The checks before the run look at no month but for the order of the two ends. -/
theorem exists_report {moment : Timestamp} {report : Report}
    (reported : request.report policy moment = .ok report) :
    ∃ other, shifted.report policy moment = .ok other := by
  have ends := report_ends policy request moment
  have otherEnds := report_ends policy shifted moment
  rw [reported] at ends
  generalize shifted.report policy moment = result at otherEnds ⊢
  cases ends with
  | reported ordered wellFormed acyclic known =>
    rw [← moved.variableMissing_iff] at known
    rw [← moved.nodes_eq, ← moved.edges_eq] at wellFormed acyclic
    cases otherEnds with
    | reversed reversed =>
      exact absurd ((Date.monthBefore_shift_iff moved.start moved.stop).mp reversed) ordered
    | malformed _ malformed => exact absurd wellFormed malformed
    | cyclic _ _ cyclic => exact absurd cyclic acyclic
    | missing _ _ _ missing => exact absurd missing known
    | reported => exact ⟨_, rfl⟩

end Shifted

/-- A request that is moved in time ends in a report again, with the same values for the moved
months. -/
theorem report_shifted (policy : Policy) (request shifted : Request) (moment : Timestamp)
    (report : Report) (distance : Int) (moved : request.shift? distance = some shifted)
    (reported : request.report policy moment = .ok report) :
    ∃ other, shifted.report policy moment = .ok other ∧
      report.Corresponds (fun month other => month.addMonths? distance = some other) Eq other := by
  have moved := shifted_of_shift? moved
  obtain ⟨other, otherReported⟩ := moved.exists_report reported
  have included_eq : shifted.nodesIncluded policy = request.nodesIncluded policy := by
    rw [nodesIncluded, nodesIncluded, moved.included_eq]
  exact ⟨other, otherReported, (moved.parallel policy).report_corresponds moved.forecastId_eq
    included_eq reported otherReported⟩

/-- The sales, moved by three quarters of a year into the year before. -/
theorem report_shifted_sales :
    ∃ shifted report, fullRequest.shift? (-9) = some shifted ∧
      fullRequest.report ⟨.priorHistorical, .budget, false⟩ growthMoment = .ok report ∧
      ∃ other, shifted.report ⟨.priorHistorical, .budget, false⟩ growthMoment = .ok other ∧
        report.Corresponds (fun month other => month.addMonths? (-9) = some other) Eq other := by
  have moves : (fullRequest.shift? (-9)).isSome = true := by decide +kernel
  have completes :
      (fullRequest.report ⟨.priorHistorical, .budget, false⟩ growthMoment).toBool = true := by
    decide +kernel
  obtain ⟨shifted, moved⟩ := Option.isSome_iff_exists.mp moves
  obtain ⟨report, reported⟩ := exists_of_toBool completes
  exact ⟨shifted, report, moved, reported,
    report_shifted _ fullRequest shifted growthMoment report (-9) moved reported⟩

end Request
end MonthlyForecast
