import MonthlyForecast.Evaluation.Model
import MonthlyForecast.Proofs.Evaluation.Formula
import MonthlyForecast.Proofs.Evaluation.Series

/-! Only finite numbers are values. A constant and a point of a series enter through a filter,
every operation filters its result, and whatever else writes to the ledger copies what one of
these gave. So a ledger holds no NaN and no infinity, however the inputs look and in whatever
order its cells are written. -/
namespace MonthlyForecast

/-- The value is missing or a finite number. -/
def Proper (value : Option Float) : Prop :=
  ∀ number, value = some number → number.isNaN = false ∧ number.isInf = false

theorem isFinite_eq (number : Float) :
    number.isFinite = (!number.isNaN && !number.isInf) := by
  simp only [Float.isFinite, Float.isNaN, Float.isInf, Float.Model.isFinite, Float.Model.isNaN,
    Float.Model.isInf]
  cases number.toModel.unpack with
  | notANumber | infinity | zero | finite => rfl

namespace Proper

@[simp] theorem none : Proper none := by
  intro _ given
  contradiction

theorem filtered (number : Float) : Proper (finite? number) := by
  intro other given
  obtain ⟨finite, rfl⟩ := finite?_eq_some_iff.mp given
  simpa [isFinite_eq] using finite

theorem bind {α : Type} {found : Option α} {next : α → Option Float}
    (each : ∀ item, Proper (next item)) : Proper (found.bind next) := by
  cases found with
  | none => exact none
  | some item => exact each item

end Proper

/-- An operator gives a finite number or nothing, whatever its inputs are. -/
theorem Operation.combine_proper (operation : Operation) (values : List (Option Float)) :
    Proper (operation.combine values) := by
  intro result combined
  simpa [isFinite_eq] using isFinite_of_combine combined

/-- Every value of the table is proper. -/
def SeriesTable.AllProper (table : SeriesTable) : Prop :=
  ∀ id date offset, Proper (table.value? id date offset)

/-- Points that hold no finite number leave no value. -/
theorem SeriesTable.allProper_ofVariables (entries : List Variable) :
    (ofVariables entries).AllProper := by
  intro id date offset number given
  obtain ⟨month, series, _, entered, recorded⟩ := exists_cell given
  obtain ⟨entry, _, same⟩ := exists_variable entered
  cases same
  obtain ⟨point, _, same⟩ := MonthlySeries.exists_point recorded
  have filtered : Proper (point.value.bind finite?) := .bind .filtered
  exact filtered number (congrArg Prod.snd same).symm

namespace Ledger

variable {ledger : Ledger} {node month : Nat} {own : Option Float}

/-- Every evaluated cell of the ledger is proper. -/
def AllProper (ledger : Ledger) : Prop :=
  ∀ cell ∈ ledger.cells, Proper cell.value

theorem allProper_empty (nodeCount : Nat) (months : List Date) :
    (empty nodeCount months).AllProper := by
  intro cell member
  cases (Array.mem_replicate.mp member).2
  exact .none

theorem AllProper.insert (proper : ledger.AllProper) (ownProper : Proper own) :
    (ledger.insert node month own).AllProper := by
  intro cell member
  unfold Ledger.insert at member
  split at member
  · rcases Array.mem_or_eq_of_mem_setIfInBounds member with earlier | rfl
    · exact proper cell earlier
    · exact ownProper
  · exact proper cell member

theorem AllProper.value (proper : ledger.AllProper) (node month : Nat) :
    Proper (ledger.value node month) := by
  unfold Ledger.value get
  split
  · cases found : ledger.cells[ledger.offset node month]? with
    | none => exact .none
    | some cell => exact proper cell (Array.mem_of_getElem? found)
  · exact .none

end Ledger

namespace Model

variable {model : Model} (series : model.series.AllProper)
include series

theorem columnValue_proper (variableId : Option String) (month : Date) :
    Proper (model.columnValue variableId month) := by
  cases variableId with
  | none => exact .none
  | some id => exact series id month 0

theorem openingValue_proper (source : NodeIndex) (first : Date) :
    Proper (model.openingValue source first) := by
  unfold openingValue
  cases model.policy.seedOpening with
  | missing => exact .none
  | priorHistorical =>
    cases model.graph.metric? source with
    | none => exact .none
    | some attributes =>
      cases found : attributes.historicalVariableId with
      | none => simp [found]
      | some id => simpa [found] using series id first (-1)

theorem rootValue_proper {inputs : List (Option Float)} (given : ∀ input ∈ inputs, Proper input)
    (attributes : Metric) (month : Date) : Proper (model.rootValue attributes inputs month) := by
  unfold rootValue
  split
  · exact given _ List.mem_cons_self
  · cases model.policy.fallbackSource with
    | budget | historical => exact columnValue_proper series _ month
    | missing => exact .none

omit series in
/-- A value that is copied from the ledger is proper. -/
theorem readyValue_proper {ledger : Ledger} (proper : ledger.AllProper) (reader metric : NodeIndex)
    (place : Nat) (month : Date) :
    Outcome Proper (fun _ => True) (model.readyValue reader metric place month ledger) := by
  have own := proper.value metric place
  unfold readyValue
  unfold Ledger.value at own
  cases found : ledger.get metric place with
  | pending => trivial
  | ready value =>
    rw [found] at own
    exact own

theorem previousValue_proper {ledger : Ledger} (proper : ledger.AllProper) (seed : NodeIndex)
    (sourceId : String) (place : Nat) :
    Outcome Proper (fun _ => True) (model.previousValue seed sourceId place ledger) := by
  unfold previousValue
  cases model.graph.index? sourceId with
  | none => trivial
  | some source =>
    cases place with
    | zero => exact Proper.bind (openingValue_proper series source)
    | succ previous =>
      cases found : ledger.months[previous]? with
      | none =>
        simp only [found]
        exact Proper.none
      | some month =>
        simp only [found]
        exact readyValue_proper proper seed source previous month

/-- Each kind of node gives a proper value from proper ones. -/
theorem slotValue_proper {ledger : Ledger} (proper : ledger.AllProper)
    {inputs : List (Option Float)} (given : ∀ input ∈ inputs, Proper input)
    (root node : NodeIndex) (isRoot : Bool) (place : Nat) (month : Date) :
    Outcome Proper (fun _ => True)
      (model.slotValue root node isRoot inputs place month ledger) := by
  unfold slotValue
  cases model.graph.kind? node with
  | none => exact Proper.none
  | some kind =>
    cases kind with
    | data name id offset => exact series id month offset.toInt
    | constant name number => exact Proper.filtered number
    | operator operation ids =>
      simp only
      split
      · trivial
      · exact operation.combine_proper inputs
    | seed sourceId => exact previousValue_proper series proper node sourceId place
    | metric attributes =>
      cases isRoot with
      | true => exact rootValue_proper series given attributes month
      | false => exact readyValue_proper proper root node place month

/-- Evaluating slots keeps the ledger proper. -/
theorem runSlots_proper (root : NodeIndex) (place : Nat) (month : Date) (slots : List TreeSlot)
    {values : Array (Option Float)} {ledger : Ledger} (sofar : ∀ value ∈ values, Proper value)
    (proper : ledger.AllProper) :
    Outcome Ledger.AllProper (fun _ => True)
      (model.runSlots root place month slots values ledger) := by
  induction slots generalizing values ledger with
  | nil => exact proper
  | cons slot rest ih =>
    unfold runSlots
    cases found : slot.inputs.mapM (values[·]?) with
    | none => trivial
    | some inputs =>
      -- The inputs are copies of values of earlier slots.
      have given : ∀ input ∈ inputs, Proper input := by
        intro input member
        obtain ⟨_, _, stands⟩ := exists_left_of_forall₂ (forall₂_of_mapM found) member
        exact sofar input (Array.mem_of_getElem? stands)
      simp only
      apply Outcome.bind (slotValue_proper series proper given root slot.node _ place month)
      intro value _ own
      apply ih _ (proper.insert own)
      intro other member
      rcases Array.mem_push.mp member with earlier | rfl
      · exact sofar other earlier
      · exact own

/-- A run leaves a proper ledger, whatever the trees are and in whatever order they stand. -/
theorem run_proper (trees : List MetricTree) (months : List Date) :
    Outcome Ledger.AllProper (fun _ => True) (model.run trees months) := by
  apply Outcome.foldlM fun (_ : List (Date × Nat)) (ledger : Ledger) => ledger.AllProper
  · exact Ledger.allProper_empty _ _
  · rintro _ ⟨month, place⟩ _ ledger _ proper
    apply Outcome.foldlM fun (_ : List MetricTree) (ledger : Ledger) => ledger.AllProper
    · exact proper
    · intro _ tree _ ledger _ proper
      exact runSlots_proper series tree.root place month tree.slots (by simp) proper

end Model
end MonthlyForecast
