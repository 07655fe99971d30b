import MonthlyForecast.Proofs.Calculation.Relations

/-! The order in which the trees of a valid graph are evaluated. A run completes exactly if
every tree comes after the trees of the metrics that it does not open; where the trees of
seeds and of their sources stand does not matter. All orders that complete leave the same
ledger, and every other one stops in the first month. -/
namespace MonthlyForecast.Model
open MetricTree Validation

variable {model : Model} {months : List Date} {filled : NodeIndex → Nat → Prop}
  {ledger others : Ledger}

/-- On a graph without cycles, which cells are filled determines the ledger. -/
theorem Progress.unique (checked : model.graph.Checked)
    (first : Progress model months filled ledger) (second : Progress model months filled others) :
    ledger = others := by
  have months_eq : ledger.months = others.months := first.months_eq.trans second.months_eq.symm
  -- Seeds lead to earlier months, all other nodes to their inputs in the same month.
  have agree : ∀ place node, ledger.get node place = others.get node place := by
    intro place
    induction place using Nat.strongRecOn with
    | ind place earlier =>
      apply checked.induction fun node => ledger.get node place = others.get node place
      intro node inputs
      have first_iff := first.ready_iff node place
      have second_iff := second.ready_iff node place
      by_cases fill : filled node place
      · obtain ⟨value, ready⟩ := first_iff.mpr fill
        obtain ⟨other, otherReady⟩ := second_iff.mpr fill
        have inside : place < months.length := first.months_eq ▸ Ledger.lt_of_ready ready
        have dated := List.getElem?_eq_getElem inside
        have same := (first.determined ready dated).agree (second.determined otherReady dated)
          months_eq inputs fun source previous before => earlier previous before source
        rw [ready, otherReady, same]
      · rw [get_eq_pending_iff.mpr fun ready => fill (first_iff.mp ready),
          get_eq_pending_iff.mpr fun ready => fill (second_iff.mp ready)]
  exact Ledger.eq_of_get first.sized second.sized months_eq fun node place => agree place node

/-- Evaluating the trees of a valid graph in another order: it completes exactly if the
order is admissible, then with the same ledger, and otherwise stops in the first month. -/
theorem run_permuted (nodes : List Node) (edges : List Edge) (series : SeriesTable)
    (policy : Policy) (months : List Date) (trees order : List MetricTree)
    (valid : (verdict nodes edges).isValid)
    (scheduled : schedule (.ofLists nodes edges) = .ok trees)
    (arranged : order.Perm trees) (nonempty : months ≠ []) :
    let model : Model := ⟨.ofLists nodes edges, series, policy⟩
    ((∃ ledger, model.run order months = .ok ledger) ↔ Admissible model.graph order) ∧
      (∀ ledger, model.run order months = .ok ledger → model.run trees months = .ok ledger) ∧
      ∀ fault, model.run order months = .error fault →
        ∃ reader metric first, months.head? = some first ∧
          fault = .readTooEarly reader metric first := by
  intro model
  have checked : model.graph.Checked := (isValid_iff_wellFormed.mp valid).checked
  have sorted : Scheduled model.graph trees :=
    ((schedule_outcome checked.resolved).of_ok scheduled).1
  have forest : Forest model.graph order := sorted.toForest.perm arranged
  have outcome := run_checked_outcome checked forest months
  refine ⟨⟨?_, ?_⟩, ?_, ?_⟩
  · rintro ⟨ledger, ran⟩
    exact (outcome.of_ok ran).2 nonempty
  · intro admissible
    obtain ⟨ledger, ran, _⟩ := exists_run_of_admissible model checked forest admissible months
    exact ⟨ledger, ran⟩
  · intro ledger ran
    obtain ⟨other, ranSorted, progress⟩ := exists_run_of_admissible model checked
      sorted.toForest (admissible_of_scheduled sorted) months
    have permuted := (outcome.of_ok ran).1.congr fun node place =>
      and_congr_left fun _ => inTrees_perm arranged
    rw [ranSorted, permuted.unique checked progress]
  · intro fault failed
    obtain ⟨first, head, _, reader, metric, same⟩ := outcome.of_error failed
    exact ⟨reader, metric, first, head, same⟩

/-! A share of a total that grows from a base. The share reads the total of its own month;
the total reads the base of the month before, so the base may be evaluated last. -/

def sharingNodes : List Node :=
  [⟨"share", .metric ⟨"Share", none, none, true⟩, none⟩,
    ⟨"product", .operator .multiply ["one", "total"], none⟩,
    ⟨"total", .metric ⟨"Total", none, none, true⟩, none⟩,
    ⟨"sum", .operator .add ["last", "one"], none⟩, ⟨"last", .seed "base", none⟩,
    ⟨"base", .metric ⟨"Base", none, none, true⟩, none⟩, ⟨"one", .constant "One" 1, none⟩]

def sharingEdges : List Edge :=
  [⟨"a", "one", "base"⟩, ⟨"b", "last", "sum"⟩, ⟨"c", "one", "sum"⟩, ⟨"d", "sum", "total"⟩,
    ⟨"e", "one", "product"⟩, ⟨"f", "total", "product"⟩, ⟨"g", "product", "share"⟩]

def baseTree : MetricTree :=
  ⟨5, [⟨6, []⟩, ⟨5, [0]⟩]⟩

def totalTree : MetricTree :=
  ⟨2, [⟨4, []⟩, ⟨6, []⟩, ⟨3, [0, 1]⟩, ⟨2, [2]⟩]⟩

def shareTree : MetricTree :=
  ⟨0, [⟨6, []⟩, ⟨2, []⟩, ⟨1, [0, 1]⟩, ⟨0, [2]⟩]⟩

def sharingMonths : List Date :=
  [⟨2026, 5, 1, by decide⟩, ⟨2026, 6, 1, by decide⟩]

theorem run_permuted_sharing :
    let model : Model := ⟨.ofLists sharingNodes sharingEdges, [], .standard⟩
    (verdict sharingNodes sharingEdges).isValid ∧
      schedule model.graph = .ok [baseTree, totalTree, shareTree] ∧
      [totalTree, shareTree, baseTree].Perm [baseTree, totalTree, shareTree] ∧
      sharingMonths ≠ [] ∧
      ∃ ledger, model.run [totalTree, shareTree, baseTree] sharingMonths = .ok ledger ∧
        model.run [baseTree, totalTree, shareTree] sharingMonths = .ok ledger := by
  intro model
  have valid : (verdict sharingNodes sharingEdges).isValid := by decide +kernel
  have scheduled : schedule model.graph = .ok [baseTree, totalTree, shareTree] := by
    decide +kernel
  have arranged : [totalTree, shareTree, baseTree].Perm [baseTree, totalTree, shareTree] := by
    decide
  have nonempty : sharingMonths ≠ [] := by decide
  have completes :
      (model.run [totalTree, shareTree, baseTree] sharingMonths).toBool = true := by
    decide +kernel
  refine ⟨valid, scheduled, arranged, nonempty, ?_⟩
  cases ran : model.run [totalTree, shareTree, baseTree] sharingMonths with
  | error fault =>
    rw [ran] at completes
    contradiction
  | ok ledger =>
    exact ⟨ledger, rfl, (run_permuted sharingNodes sharingEdges [] .standard sharingMonths _ _
      valid scheduled arranged nonempty).2.1 ledger ran⟩

end MonthlyForecast.Model
