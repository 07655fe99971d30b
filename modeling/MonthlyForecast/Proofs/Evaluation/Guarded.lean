import MonthlyForecast.Proofs.Evaluation.Run

/-! Runs over trees that nobody has built. The slots may stand in any order, name any places as
inputs, repeat nodes and end with any node. A guarded run takes each step of a run and stops with
a fault of its own where a read or a write would go outside of a table. It takes the same course:
the one check of the inputs against the slot's own place keeps every later read inside, as there
are as many values as slots before it. So a slot that names itself or a later slot as an input
stops a run, as does an operator without inputs, and a run that completes has filled the cells of
all nodes that it was given. -/
namespace MonthlyForecast

/-- A place in one of the tables of a run. -/
inductive Access where
  | node (node : NodeIndex)
  | value (place : Nat)
  | month (place : Nat)
  | cell (node : NodeIndex) (month : Nat)

inductive GuardedFault where
  | evaluation (fault : EvaluationFault)
  /-- The table has no such place. -/
  | outside (access : Access)

/-- What was found at a place of a table. -/
def Access.guard {α : Type} (access : Access) : Option α → Except GuardedFault α
  | some item => .ok item
  | none => .error (.outside access)

namespace Ledger

def monthAt (ledger : Ledger) (place : Nat) : Except GuardedFault Date :=
  (Access.month place).guard ledger.months[place]?

def cellAt (ledger : Ledger) (node : NodeIndex) (month : Nat) : Except GuardedFault Cell :=
  (Access.cell node month).guard
    (if month < ledger.months.length then ledger.cells[ledger.offset node month]? else none)

/-- Writes to a cell that the ledger has. -/
def write (ledger : Ledger) (node : NodeIndex) (month : Nat) (value : Option Float) :
    Except GuardedFault Ledger := do
  let _ ← ledger.cellAt node month
  .ok (ledger.insert node month value)

end Ledger

namespace Model

def valueAt (values : Array (Option Float)) (place : Nat) : Except GuardedFault (Option Float) :=
  (Access.value place).guard values[place]?

def guardedReady (model : Model) (reader metric : NodeIndex) (place : Nat) (ledger : Ledger) :
    Except GuardedFault (Option Float) := do
  match ← ledger.cellAt metric place with
  | .ready value => .ok value
  | .pending =>
    let month ← ledger.monthAt place
    .error (.evaluation (.readTooEarly (model.graph.idOf reader) (model.graph.idOf metric) month))

def guardedPrevious (model : Model) (seed : NodeIndex) (sourceMetricId : String) (place : Nat)
    (ledger : Ledger) : Except GuardedFault (Option Float) :=
  match model.graph.index? sourceMetricId with
  | none => .error (.evaluation (.unknownSource (model.graph.idOf seed) sourceMetricId))
  | some source =>
    match place with
    | 0 => do
      let first ← ledger.monthAt 0
      .ok (model.openingValue source first)
    | previous + 1 => model.guardedReady seed source previous ledger

/-- The value of the first input if it is used; the fallback is that of no inputs. -/
def guardedRoot (model : Model) (attributes : Metric) (inputs : List Nat)
    (values : Array (Option Float)) (place : Nat) (ledger : Ledger) :
    Except GuardedFault (Option Float) := do
  let month ← ledger.monthAt place
  match attributes.useCalculated, inputs with
  | true, input :: _ => valueAt values input
  | _, _ => .ok (model.rootValue attributes [] month)

def guardedSlot (model : Model) (root : NodeIndex) (isRoot : Bool) (slot : TreeSlot)
    (values : Array (Option Float)) (place : Nat) (ledger : Ledger) :
    Except GuardedFault (Option Float) :=
  match model.graph.kind? slot.node with
  | none => .error (.outside (.node slot.node))
  | some (.data _ variableId offset) => do
    let month ← ledger.monthAt place
    .ok (model.series.value? variableId month offset.toInt)
  | some (.constant _ value) => .ok (finite? value)
  | some (.operator operation _) =>
    if slot.inputs.isEmpty then
      .error (.evaluation (.operatorWithoutInputs (model.graph.idOf slot.node)))
    else do
      let inputs ← slot.inputs.mapM (valueAt values)
      .ok (operation.combine inputs)
  | some (.seed sourceMetricId) => model.guardedPrevious slot.node sourceMetricId place ledger
  | some (.metric attributes) =>
    if isRoot then model.guardedRoot attributes slot.inputs values place ledger
    else model.guardedReady root slot.node place ledger

/-- Slots with their positions. An input has to stand before the slot that names it. -/
def guardedSlots (model : Model) (root : NodeIndex) (rootPlace place : Nat) :
    List (TreeSlot × Nat) → Array (Option Float) → Ledger → Except GuardedFault Ledger
  | [], _, ledger => .ok ledger
  | (slot, position) :: rest, values, ledger =>
    if slot.inputs.any (position ≤ ·) then
      .error (.evaluation (.notPostOrder (model.graph.idOf root) (model.graph.idOf slot.node)))
    else do
      let value ← model.guardedSlot root (position = rootPlace) slot values place ledger
      let ledger ← ledger.write slot.node place value
      guardedSlots model root rootPlace place rest (values.push value) ledger

def guardedTree (model : Model) (place : Nat) (tree : MetricTree) (ledger : Ledger) :
    Except GuardedFault Ledger :=
  model.guardedSlots tree.root tree.rootPlace place tree.slots.zipIdx #[] ledger

/-- Evaluates all trees for one month, and reads the month again when it is done. -/
def guardedMonth (model : Model) (trees : List MetricTree) (ledger : Ledger) (place : Nat) :
    Except GuardedFault Ledger := do
  let ledger ← trees.foldlM (fun ledger tree => model.guardedTree place tree ledger) ledger
  let _ ← ledger.monthAt place
  .ok ledger

def guardedRun (model : Model) (trees : List MetricTree) (months : List Date) :
    Except GuardedFault Ledger :=
  (List.range months.length).foldlM (model.guardedMonth trees)
    (Ledger.empty model.graph.size months)

/-- The guarded run takes the course of the run, and what they end with satisfies the
predicate. -/
def Agrees {α : Type} (holds : α → Prop) (guarded : Except GuardedFault α)
    (run : Except EvaluationFault α) : Prop :=
  Outcome (fun value => guarded = .ok value ∧ holds value)
    (fun fault => guarded = .error (.evaluation fault)) run

namespace Agrees

variable {α β σ : Type} {holds : α → Prop} {guarded : Except GuardedFault α}
  {run : Except EvaluationFault α}

theorem eq_mapError (agrees : Agrees holds guarded run) : guarded = run.mapError .evaluation := by
  cases run with
  | ok value => exact agrees.1
  | error fault => exact agrees

theorem imp {weaker : α → Prop} (agrees : Agrees holds guarded run)
    (value : ∀ value, holds value → weaker value) : Agrees weaker guarded run :=
  Outcome.imp agrees (fun result held => ⟨held.1, value result held.2⟩) fun _ same => same

theorem bind {after : β → Prop} {guardedNext : α → Except GuardedFault β}
    {next : α → Except EvaluationFault β} (first : Agrees holds guarded run)
    (second : ∀ value, holds value → Agrees after (guardedNext value) (next value)) :
    Agrees after (guarded >>= guardedNext) (run >>= next) := by
  cases run with
  | ok value =>
    obtain ⟨rfl, held⟩ := first
    exact second value held
  | error fault =>
    cases first
    exact rfl

theorem foldlM {items : List α} {guardedStep : σ → α → Except GuardedFault σ}
    {step : σ → α → Except EvaluationFault σ} {init : σ} (holds : List α → σ → Prop)
    (start : holds [] init)
    (next : ∀ done item rest state, items = done ++ item :: rest → holds done state →
      Agrees (holds (done ++ [item])) (guardedStep state item) (step state item)) :
    Agrees (holds items) (items.foldlM guardedStep init) (items.foldlM step init) := by
  apply Outcome.foldlM fun done state =>
    done.foldlM guardedStep init = .ok state ∧ holds done state
  · exact ⟨rfl, start⟩
  · rintro done item rest state whole ⟨reached, held⟩
    apply Outcome.imp (next done item rest state whole held)
    · rintro following ⟨same, kept⟩
      refine ⟨?_, kept⟩
      rw [List.foldlM_append, reached]
      simp only [Bind.bind, Except.bind, List.foldlM_cons, same]
      rfl
    · intro fault same
      rw [whole, List.foldlM_append, reached]
      simp only [Bind.bind, Except.bind, List.foldlM_cons, same]

end Agrees

/-- A slot that an evaluation can pass: its inputs stand before it, and an operator has some. -/
def Passable (graph : Graph) (slot : TreeSlot) (position : Nat) : Prop :=
  (∀ input ∈ slot.inputs, input < position) ∧ ¬ EmptyOperator graph slot

/-- A ledger of the right size in which the filled cells are ready, whatever their values. -/
structure Covers (model : Model) (months : List Date) (filled : NodeIndex → Nat → Prop)
    (ledger : Ledger) : Prop where
  months_eq : ledger.months = months
  sized : ledger.Sized model.graph.size
  ready : ∀ node place, filled node place → ∃ value, ledger.get node place = .ready value

variable {model : Model} {months : List Date} {ledger : Ledger}
  {filled : NodeIndex → Nat → Prop} {root node place : Nat} {month : Date}
  {values : Array (Option Float)} {slot : TreeSlot} {tree : MetricTree} {trees : List MetricTree}

namespace Covers

theorem empty (model : Model) (months : List Date) :
    Covers model months (fun _ _ => False) (.empty model.graph.size months) where
  months_eq := rfl
  sized := Ledger.sized_empty _ _
  ready := by simp

theorem congr (covers : Covers model months filled ledger) {others : NodeIndex → Nat → Prop}
    (alike : ∀ node place, others node place ↔ filled node place) :
    Covers model months others ledger where
  months_eq := covers.months_eq
  sized := covers.sized
  ready := fun node place other => covers.ready node place ((alike node place).mp other)

theorem monthAt (covers : Covers model months filled ledger)
    (dated : months[place]? = some month) : ledger.monthAt place = .ok month := by
  rw [Ledger.monthAt, covers.months_eq, dated]
  rfl

theorem cellAt (covers : Covers model months filled ledger) (inside : node < model.graph.size)
    (dated : place < months.length) : ledger.cellAt node place = .ok (ledger.get node place) := by
  rw [← covers.months_eq] at dated
  have stands := Ledger.offset_lt covers.sized inside dated
  rw [Ledger.cellAt, Ledger.get, if_pos dated, if_pos dated, Array.getElem?_eq_getElem stands]
  rfl

theorem write (covers : Covers model months filled ledger) (inside : node < model.graph.size)
    (dated : place < months.length) (value : Option Float) :
    ledger.write node place value = .ok (ledger.insert node place value) := by
  rw [Ledger.write, covers.cellAt inside dated]
  rfl

theorem insert (covers : Covers model months filled ledger) (inside : node < model.graph.size)
    (dated : place < months.length) (value : Option Float) :
    Covers model months (fun n p => filled n p ∨ n = node ∧ p = place)
      (ledger.insert node place value) := by
  rw [← covers.months_eq] at dated
  refine ⟨(Ledger.months_insert ..).trans covers.months_eq, covers.sized.insert dated, ?_⟩
  intro other month fill
  by_cases same : other = node ∧ month = place
  · obtain ⟨rfl, rfl⟩ := same
    exact ⟨value, Ledger.get_insert_self covers.sized inside dated⟩
  · rw [Ledger.get_insert_of_ne same]
    exact covers.ready other month (fill.resolve_right same)

end Covers

theorem guardedReady_agrees (covers : Covers model months filled ledger)
    (inside : node < model.graph.size) (dated : months[place]? = some month) (reader : NodeIndex) :
    Agrees (fun _ => True) (model.guardedReady reader node place ledger)
      (model.readyValue reader node place month ledger) := by
  have cell := covers.cellAt inside (List.getElem?_eq_some_iff.mp dated).1
  unfold guardedReady readyValue
  rw [cell]
  cases ledger.get node place with
  | ready value => exact ⟨rfl, trivial⟩
  | pending =>
    rw [covers.monthAt dated]
    exact rfl

theorem guardedPrevious_agrees (covers : Covers model months filled ledger)
    (dated : months[place]? = some month) (seed : NodeIndex) (sourceMetricId : String) :
    Agrees (fun _ => True) (model.guardedPrevious seed sourceMetricId place ledger)
      (model.previousValue seed sourceMetricId place ledger) := by
  unfold guardedPrevious previousValue
  cases found : model.graph.index? sourceMetricId with
  | none => rfl
  | some source =>
    cases place with
    | zero =>
      have head : ledger.months.head? = some month := by
        rw [List.head?_eq_getElem?, covers.months_eq, dated]
      simp only [covers.monthAt dated, head]
      exact ⟨rfl, trivial⟩
    | succ previous =>
      have inside : previous < months.length :=
        Nat.lt_of_succ_lt (List.getElem?_eq_some_iff.mp dated).1
      have earlier := List.getElem?_eq_getElem inside
      simp only [covers.months_eq, earlier]
      exact guardedReady_agrees covers (Graph.index?_lt found) earlier seed

/-- The values at the places of the inputs. -/
abbrev ValuesAt (values : Array (Option Float)) : List Nat → List (Option Float) → Prop :=
  List.Forall₂ fun input value => values[input]? = some value

theorem valueAt_of_getElem? {input : Nat} {value : Option Float}
    (found : values[input]? = some value) : valueAt values input = .ok value := by
  rw [valueAt, found]
  rfl

theorem mapM_valueAt {inputs : List Nat} {given : List (Option Float)}
    (found : ValuesAt values inputs given) : inputs.mapM (valueAt values) = .ok given := by
  induction found with
  | nil => rfl
  | cons here _ ih =>
    rw [List.mapM_cons, valueAt_of_getElem? here, ih]
    rfl

/-- Inputs that stand before a slot are among the values so far, and no others are. -/
theorem exists_valuesAt_iff {inputs : List Nat} :
    (∃ given, ValuesAt values inputs given) ↔ ∀ input ∈ inputs, input < values.size := by
  constructor
  · rintro ⟨given, found⟩ input member
    obtain ⟨_, _, here⟩ := exists_left_of_forall₂ found.flip member
    exact (Array.getElem?_eq_some_iff.mp here).1
  · intro before
    apply exists_forall₂
    intro input member
    exact ⟨_, Array.getElem?_eq_getElem (before input member)⟩

theorem guardedRoot_eq (covers : Covers model months filled ledger)
    (dated : months[place]? = some month) {inputs : List Nat} {given : List (Option Float)}
    (found : ValuesAt values inputs given) (attributes : Metric) :
    model.guardedRoot attributes inputs values place ledger =
      .ok (model.rootValue attributes given month) := by
  have now := covers.monthAt dated
  unfold guardedRoot rootValue
  cases calculated : attributes.useCalculated with
  | false => simp only [now, bind, Except.bind]
  | true =>
    cases found with
    | nil => simp only [now, bind, Except.bind]
    | cons here _ => simp only [now, bind, Except.bind, valueAt_of_getElem? here]

theorem guardedSlot_agrees (covers : Covers model months filled ledger) {inputs : List Nat}
    (inside : node < model.graph.size) (dated : months[place]? = some month)
    {given : List (Option Float)} (found : ValuesAt values inputs given)
    (root : NodeIndex) (isRoot : Bool) :
    Agrees (fun _ => ¬ EmptyOperator model.graph ⟨node, inputs⟩)
      (model.guardedSlot root isRoot ⟨node, inputs⟩ values place ledger)
      (model.slotValue root node isRoot given place month ledger) := by
  obtain ⟨entry, stands⟩ := Graph.exists_place inside
  have kind := Graph.kind?_of_place stands
  have now := covers.monthAt dated
  unfold guardedSlot slotValue EmptyOperator IsOperator
  rw [kind]
  cases shape : entry.kind with
  | data =>
    simp only [now]
    exact ⟨rfl, by simp [NodeKind.type]⟩
  | constant => exact ⟨rfl, by simp [NodeKind.type]⟩
  | operator =>
    have read := mapM_valueAt found
    cases found with
    | nil => rfl
    | cons =>
      simp only [read]
      exact ⟨rfl, by simp⟩
  | seed id =>
    apply (guardedPrevious_agrees covers dated node id).imp
    simp [NodeKind.type]
  | metric attributes =>
    cases isRoot with
    | true => exact ⟨guardedRoot_eq covers dated found attributes, by simp [NodeKind.type]⟩
    | false =>
      apply (guardedReady_agrees covers inside dated root).imp
      simp [NodeKind.type]

/-- The rest of a tree, with the slots before it evaluated. There are as many values as these,
so that the check against the position is one against the values. -/
theorem guardedSlots_agrees (inside : ∀ slot ∈ tree.slots, slot.node < model.graph.size)
    (dated : months[place]? = some month) (before rest : List TreeSlot)
    (whole : tree.slots = before ++ rest) (values : Array (Option Float))
    (count : values.size = before.length) (ledger : Ledger)
    (covers : Covers model months (FilledBy filled place before) ledger) :
    Agrees (fun after => Covers model months (FilledBy filled place tree.slots) after ∧
        ∀ entry ∈ rest.zipIdx before.length, Passable model.graph entry.1 entry.2)
      (model.guardedSlots tree.root tree.rootPlace place (rest.zipIdx before.length) values ledger)
      (model.runSlots tree.root place month rest values ledger) := by
  induction rest generalizing before values ledger with
  | nil =>
    rw [List.append_nil] at whole
    exact ⟨rfl, whole ▸ covers, by simp⟩
  | cons slot rest ih =>
    have slotInside := inside slot (whole ▸ (by simp))
    have last : decide (before.length = tree.rootPlace) = rest.isEmpty := by
      rw [MetricTree.rootPlace, whole]
      cases rest <;> simp
    rw [List.zipIdx_cons, guardedSlots, runSlots, last]
    by_cases early : ∀ input ∈ slot.inputs, input < values.size
    · obtain ⟨given, found⟩ := exists_valuesAt_iff.mpr early
      rw [count] at early
      have passes : slot.inputs.any (before.length ≤ ·) = false := by simpa using early
      simp only [passes, mapM_of_forall₂ found]
      apply (guardedSlot_agrees covers slotInside dated found tree.root rest.isEmpty).bind
      intro value kept
      have placeInside := (List.getElem?_eq_some_iff.mp dated).1
      have following := (covers.insert slotInside placeInside value).congr fun node month =>
        filledBy_concat filled place before slot node month
      rw [covers.write slotInside placeInside]
      have next := ih (before ++ [slot]) (by simpa using whole) (values.push value)
        (by simp [count]) (ledger.insert slot.node place value) following
      rw [List.length_append, List.length_singleton] at next
      apply next.imp
      rintro after ⟨finished, others⟩
      exact ⟨finished, List.forall_mem_cons.mpr ⟨⟨early, kept⟩, others⟩⟩
    · have none : slot.inputs.mapM (values[·]?) = none := by
        rw [Option.eq_none_iff_forall_ne_some]
        intro given found
        exact early (exists_valuesAt_iff.mp ⟨given, forall₂_of_mapM found⟩)
      rw [count] at early
      have stops : slot.inputs.any (before.length ≤ ·) = true := by simpa using early
      simp only [stops, none]
      rfl

/-- Every slot of the trees can be passed. -/
def AllPassable (graph : Graph) (trees : List MetricTree) : Prop :=
  ∀ tree ∈ trees, ∀ entry ∈ tree.slots.zipIdx, Passable graph entry.1 entry.2

theorem guardedTree_agrees (inside : ∀ slot ∈ tree.slots, slot.node < model.graph.size)
    (dated : months[place]? = some month) (covers : Covers model months filled ledger) :
    Agrees (fun after => Covers model months (FilledBy filled place tree.slots) after ∧
        ∀ entry ∈ tree.slots.zipIdx, Passable model.graph entry.1 entry.2)
      (model.guardedTree place tree ledger) (model.runTree place month tree ledger) := by
  have start := covers.congr fun node month => filledBy_nil filled place node month
  exact guardedSlots_agrees inside dated [] tree.slots rfl #[] rfl ledger start

/-- One month, with the cells of all earlier months ready. -/
theorem guardedMonth_agrees
    (inside : ∀ tree ∈ trees, ∀ slot ∈ tree.slots, slot.node < model.graph.size)
    (dated : months[place]? = some month)
    (covers : Covers model months (fun node month => InTrees trees node ∧ month < place) ledger) :
    Agrees (fun after => Covers model months
          (fun node month => InTrees trees node ∧ month < place + 1) after ∧
        AllPassable model.graph trees)
      (model.guardedMonth trees ledger place) (model.runMonth trees ledger place month) := by
  have trees_done : Agrees (fun after => Covers model months (FilledUpTo trees trees place) after ∧
        AllPassable model.graph trees)
      (trees.foldlM (fun ledger tree => model.guardedTree place tree ledger) ledger)
      (model.runMonth trees ledger place month) := by
    apply Agrees.foldlM fun done after =>
      Covers model months (FilledUpTo trees done place) after ∧ AllPassable model.graph done
    · refine ⟨covers.congr fun node month => ?_, by simp [AllPassable]⟩
      simp [FilledUpTo, InTrees]
    · rintro done tree rest before whole ⟨started, passed⟩
      have member : tree ∈ trees := whole ▸ (by simp)
      apply (guardedTree_agrees (inside tree member) dated started).imp
      rintro after ⟨finished, passable⟩
      refine ⟨finished.congr fun node month => ?_, ?_⟩
      · exact filledUpTo_concat trees done tree place node month
      · exact List.forall_mem_append.mpr ⟨passed, List.forall_mem_singleton.mpr passable⟩
  have month_read : ∀ after, Covers model months (FilledUpTo trees trees place) after ∧
        AllPassable model.graph trees →
      Agrees (fun after => Covers model months
            (fun node month => InTrees trees node ∧ month < place + 1) after ∧
          AllPassable model.graph trees)
        (do let _ ← after.monthAt place; .ok after) (.ok after) := by
    rintro after ⟨finished, passed⟩
    rw [finished.monthAt dated]
    refine ⟨rfl, finished.congr fun node month => ?_, passed⟩
    simp only [FilledUpTo, ← and_or_left, Nat.lt_succ_iff_lt_or_eq]
  have run_eq : (model.runMonth trees ledger place month >>= .ok) =
      model.runMonth trees ledger place month := bind_pure _
  exact run_eq ▸ trees_done.bind month_read

theorem guardedRun_agrees
    (inside : ∀ tree ∈ trees, ∀ slot ∈ tree.slots, slot.node < model.graph.size)
    (months : List Date) :
    Agrees (fun after => Covers model months
          (fun node place => InTrees trees node ∧ place < months.length) after ∧
        (months ≠ [] → AllPassable model.graph trees))
      (model.guardedRun trees months) (model.run trees months) := by
  have months_done : Agrees (fun after => Covers model months
          (fun node place => InTrees trees node ∧ place < months.zipIdx.length) after ∧
        (months.zipIdx ≠ [] → AllPassable model.graph trees))
      (months.zipIdx.foldlM (fun ledger entry => model.guardedMonth trees ledger entry.2)
        (Ledger.empty model.graph.size months))
      (model.run trees months) := by
    apply Agrees.foldlM fun (done : List (Date × Nat)) after => Covers model months
        (fun node place => InTrees trees node ∧ place < done.length) after ∧
      (done ≠ [] → AllPassable model.graph trees)
    · refine ⟨(Covers.empty model months).congr fun node month => ?_, by simp⟩
      simp
    · rintro done ⟨month, place⟩ rest before whole ⟨started, earlier⟩
      have stands : months.zipIdx[done.length]? = some (month, place) := by simp [whole]
      obtain ⟨dated, rfl⟩ : months[done.length]? = some month ∧ done.length = place := by
        simpa [List.getElem?_zipIdx] using stands
      apply (guardedMonth_agrees inside dated started).imp
      rintro after ⟨finished, passed⟩
      refine ⟨finished.congr fun node month => ?_, fun _ => passed⟩
      rw [List.length_append, List.length_singleton]
  have places : List.range months.length = months.zipIdx.map (·.2) := by
    rw [List.zipIdx_map_snd, List.range_eq_range']
  rw [guardedRun, places, List.foldlM_map]
  simpa using months_done

/-- A run over any trees stays inside its tables, stops at each slot that it cannot evaluate,
and completes only with the cells of all nodes ready. -/
theorem run_guarded (model : Model) (trees : List MetricTree) (months : List Date)
    (inside : ∀ tree ∈ trees, ∀ slot ∈ tree.slots, slot.node < model.graph.size) :
    model.guardedRun trees months = (model.run trees months).mapError .evaluation ∧
      (∀ access, model.guardedRun trees months ≠ .error (.outside access)) ∧
      (months ≠ [] → (∃ tree ∈ trees, ∃ place slot, tree.slots[place]? = some slot ∧
          ((∃ input ∈ slot.inputs, place ≤ input) ∨ EmptyOperator model.graph slot)) →
        ∃ fault, model.run trees months = .error fault) ∧
      ∀ ledger, model.run trees months = .ok ledger → ∀ tree ∈ trees, ∀ slot ∈ tree.slots,
        ∀ place < months.length, ∃ value, ledger.get slot.node place = .ready value := by
  have agrees : Agrees _ (model.guardedRun trees months) (model.run trees months) :=
    guardedRun_agrees inside months
  refine ⟨agrees.eq_mapError, ?_, ?_, ?_⟩
  · intro access stopped
    rw [agrees.eq_mapError] at stopped
    cases ran : model.run trees months with
    | ok ledger => simp [ran, Except.mapError] at stopped
    | error fault => simp [ran, Except.mapError] at stopped
  · rintro nonempty ⟨tree, member, place, slot, stands, bad⟩
    cases ran : model.run trees months with
    | error fault => exact ⟨fault, rfl⟩
    | ok ledger =>
      obtain ⟨before, filled⟩ := (agrees.of_ok ran).2.2 nonempty tree member (slot, place)
        (List.mem_zipIdx_iff_getElem?.mpr stands)
      rcases bad with ⟨input, named, late⟩ | empty
      · exact absurd (before input named) (Nat.not_lt.mpr late)
      · exact absurd empty filled
  · intro ledger ran tree member slot among place inside
    exact (agrees.of_ok ran).2.1.ready slot.node place ⟨⟨tree, member, slot, among, rfl⟩, inside⟩

/-! Trees in disorder: one without slots, one that repeats a node and an input and belongs to no
metric, and one whose last slot is its own input. -/

def looseNodes : List Node :=
  [⟨"price", .metric ⟨"Price", none, none, true⟩, none⟩,
    ⟨"sum", .operator .add ["rate"], none⟩, ⟨"rate", .constant "Rate" 1, none⟩]

def looseTrees : List MetricTree :=
  [⟨0, []⟩, ⟨2, [⟨2, []⟩, ⟨1, [0, 0]⟩, ⟨2, []⟩, ⟨0, [1]⟩]⟩]

def entangledTree : MetricTree :=
  ⟨0, [⟨2, []⟩, ⟨1, [0, 1]⟩]⟩

def looseMonths : List Date :=
  [⟨2027, 1, 1, by decide⟩, ⟨2027, 2, 1, by decide⟩]

theorem run_guarded_loose :
    let model : Model := ⟨.ofLists looseNodes [], [], .standard⟩
    (∀ tree ∈ entangledTree :: looseTrees, ∀ slot ∈ tree.slots, slot.node < model.graph.size) ∧
      looseMonths ≠ [] ∧
      (∃ fault, model.run (looseTrees ++ [entangledTree]) looseMonths = .error fault) ∧
      ∃ ledger, model.run looseTrees looseMonths = .ok ledger ∧
        ∀ tree ∈ looseTrees, ∀ slot ∈ tree.slots, ∀ place < looseMonths.length,
          ∃ value, ledger.get slot.node place = .ready value := by
  intro model
  have inside : ∀ tree ∈ entangledTree :: looseTrees, ∀ slot ∈ tree.slots,
      slot.node < model.graph.size := by decide +kernel
  have nonempty : looseMonths ≠ [] := by decide
  obtain ⟨entangled, loose⟩ := List.forall_mem_cons.mp inside
  refine ⟨inside, nonempty, ?_, ?_⟩
  · apply (run_guarded model (looseTrees ++ [entangledTree]) looseMonths
      (List.forall_mem_append.mpr ⟨loose, List.forall_mem_singleton.mpr entangled⟩)).2.2.1 nonempty
    exact ⟨entangledTree, by simp, 1, ⟨1, [0, 1]⟩, rfl, Or.inl ⟨1, by simp, Nat.le_refl 1⟩⟩
  · have completes : (model.run looseTrees looseMonths).toBool = true := by decide +kernel
    obtain ⟨ledger, ran⟩ := exists_of_toBool completes
    exact ⟨ledger, ran, (run_guarded model looseTrees looseMonths loose).2.2.2 ledger ran⟩

end Model
end MonthlyForecast
