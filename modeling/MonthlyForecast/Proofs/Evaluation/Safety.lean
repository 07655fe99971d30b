import MonthlyForecast.Proofs.Evaluation.Run

/-! Building trees and resolving their references is enough for a run. The graph may break
every rule of validation that the two do not need: ids may repeat, edges may lead
nowhere or twice, and metrics may have several inputs. -/
namespace MonthlyForecast.Model
open MetricTree

theorem stopped_iff {graph : Graph} {trees : List MetricTree} :
    (∃ fault, Stopped graph trees fault) ↔
      ∃ tree ∈ trees, ∃ slot ∈ tree.slots, EmptyOperator graph slot := by
  constructor
  · rintro ⟨_, tree, member, slot, among, empty, _⟩
    exact ⟨tree, member, slot, among, empty⟩
  · rintro ⟨tree, member, slot, among, empty⟩
    exact ⟨_, tree, member, slot, among, empty, rfl⟩

/-- A run stops exactly if there is a month and an operator without inputs, and for no
other reason. Else it makes the cells of all nodes of the trees ready and no other ones. -/
theorem run_safe (nodes : List Node) (edges : List Edge) (variableList : List Variable)
    (policy : Policy) (months : List Date) (trees : List MetricTree)
    (scheduled : schedule (.ofLists nodes edges) = .ok trees)
    (resolved : resolveReferences ⟨.ofLists nodes edges, .ofVariables variableList, policy⟩ trees =
      .ok ()) :
    let model : Model := ⟨.ofLists nodes edges, .ofVariables variableList, policy⟩
    let stops := months ≠ [] ∧ ∃ tree ∈ trees, ∃ slot ∈ tree.slots, EmptyOperator model.graph slot
    (∀ fault, model.run trees months = .error fault → ∃ id, fault = .operatorWithoutInputs id) ∧
      ((∃ id, model.run trees months = .error (.operatorWithoutInputs id)) ↔ stops) ∧
      (¬ stops → ∃ ledger, model.run trees months = .ok ledger ∧
        ∀ place < months.length, ∀ node,
          ((∃ value, ledger.get node place = .ready value) ↔ InTrees trees node) ∧
            (ledger.get node place = .pending ↔ ¬ InTrees trees node)) := by
  intro model stops
  have sorted : Scheduled model.graph trees :=
    ((schedule_outcome (Graph.ofLists_resolved nodes edges)).of_ok scheduled).1
  have outcome := run_outcome sorted (sourcesFound_of_resolved resolved) months
  have fault_stops : ∀ fault, model.run trees months = .error fault →
      stops ∧ ∃ id, fault = .operatorWithoutInputs id := by
    intro fault failed
    obtain ⟨nonempty, stopped⟩ := outcome.of_error failed
    have ⟨_, _, slot, _, _, same⟩ := stopped
    exact ⟨⟨nonempty, stopped_iff.mp ⟨fault, stopped⟩⟩, _, same⟩
  refine ⟨fun fault failed => (fault_stops fault failed).2, ?_, ?_⟩
  · constructor
    · rintro ⟨id, failed⟩
      exact (fault_stops _ failed).1
    · rintro ⟨nonempty, tree, member, slot, among, empty⟩
      cases ran : model.run trees months with
      | ok ledger => exact absurd empty ((outcome.of_ok ran).2 nonempty tree member slot among)
      | error fault =>
        obtain ⟨_, id, rfl⟩ := fault_stops fault ran
        exact ⟨id, rfl⟩
  · intro goes
    cases ran : model.run trees months with
    | error fault => exact absurd (fault_stops fault ran).1 goes
    | ok ledger =>
      refine ⟨ledger, rfl, ?_⟩
      intro place inside node
      have ready_iff : (∃ value, ledger.get node place = .ready value) ↔ InTrees trees node := by
        rw [(outcome.of_ok ran).1.ready_iff, and_iff_left inside]
      exact ⟨ready_iff, get_eq_pending_iff.trans (not_congr ready_iff)⟩

/-! A metric that adds a rate to its own previous value. The rate's id is given twice,
one edge is doubled and one leads nowhere. -/

def accumulationNodes : List Node :=
  [⟨"total", .metric ⟨"Total", some "plan", none, true⟩, none⟩,
    ⟨"sum", .operator .add ["last", "rate"], none⟩, ⟨"last", .seed "total", none⟩,
    ⟨"rate", .constant "Rate" 1, none⟩, ⟨"rate", .seed "rate", none⟩]

def accumulationEdges : List Edge :=
  [⟨"a", "last", "sum"⟩, ⟨"b", "rate", "sum"⟩, ⟨"b", "rate", "sum"⟩, ⟨"c", "sum", "total"⟩,
    ⟨"d", "rate", "nowhere"⟩]

def accumulationTree : MetricTree :=
  ⟨0, [⟨2, []⟩, ⟨3, []⟩, ⟨1, [0, 1]⟩, ⟨0, [2]⟩]⟩

def accumulationMonths : List Date :=
  [⟨2024, 1, 1, by decide⟩, ⟨2024, 2, 1, by decide⟩]

theorem run_safe_accumulation :
    let plan : Variable := ⟨"plan", "Plan", .budget, "", []⟩
    let model : Model :=
      ⟨.ofLists accumulationNodes accumulationEdges, .ofVariables [plan], .standard⟩
    schedule model.graph = .ok [accumulationTree] ∧
      model.resolveReferences [accumulationTree] = .ok () ∧
      ∃ ledger, model.run [accumulationTree] accumulationMonths = .ok ledger ∧
        ∀ place < accumulationMonths.length, ∀ node,
          ((∃ value, ledger.get node place = .ready value) ↔ InTrees [accumulationTree] node) ∧
            (ledger.get node place = .pending ↔ ¬ InTrees [accumulationTree] node) := by
  intro plan model
  have scheduled : schedule model.graph = .ok [accumulationTree] := by decide +kernel
  have resolved : model.resolveReferences [accumulationTree] = .ok () := by decide +kernel
  refine ⟨scheduled, resolved, ?_⟩
  apply (run_safe accumulationNodes accumulationEdges [plan] .standard accumulationMonths
    [accumulationTree] scheduled resolved).2.2
  rintro ⟨_, tree, member, slot, among, empty⟩
  obtain rfl := List.mem_singleton.mp member
  have none : ∀ slot ∈ accumulationTree.slots, ¬ EmptyOperator model.graph slot := by
    decide +kernel
  exact none slot among empty

end MonthlyForecast.Model
