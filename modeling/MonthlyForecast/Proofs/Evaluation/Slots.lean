import MonthlyForecast.Proofs.Evaluation.Determined
import MonthlyForecast.Proofs.Tree.Schedule

/-! What the evaluation of one tree leaves, slot by slot. Before a slot is evaluated its
inputs and the months before are ready; after it its own cell is. An operator without inputs
stops the evaluation, and so does a metric of another tree whose cell is not filled. Nothing
else stops it. -/
namespace MonthlyForecast.Model
open MetricTree

def IsOperator (graph : Graph) (node : NodeIndex) : Prop :=
  (graph.kind? node).map (·.type) = some .operator

/-- An operator that has no input in its tree. -/
def EmptyOperator (graph : Graph) (slot : TreeSlot) : Prop :=
  IsOperator graph slot.node ∧ slot.inputs = []

instance (graph : Graph) (slot : TreeSlot) : Decidable (EmptyOperator graph slot) :=
  inferInstanceAs (Decidable ((graph.kind? slot.node).map (·.type) = some .operator ∧ _))

/-- Every slot's cell holds the value at the slot's place. -/
def SlotValues (ledger : Ledger) (place : Nat) : List TreeSlot → List (Option Float) → Prop :=
  List.Forall₂ fun slot value => ledger.get slot.node place = .ready value

/-- What a seed reads is filled: its source in the months before. -/
def SourceFilled (graph : Graph) (filled : NodeIndex → Nat → Prop) (place : Nat)
    (node : NodeIndex) : Prop :=
  ∀ id, graph.kind? node = some (.seed id) →
    ∃ source, graph.index? id = some source ∧ ∀ earlier < place, filled source earlier

/-- A metric that the tree of the root reads and does not open. -/
def IsForeign (graph : Graph) (root node : NodeIndex) : Prop :=
  graph.isMetric node ∧ node ≠ root

/-- The cells of a month that the given slots fill, beside those filled before. -/
def FilledBy (filled : NodeIndex → Nat → Prop) (place : Nat) (slots : List TreeSlot)
    (node : NodeIndex) (month : Nat) : Prop :=
  filled node month ∨ Holds slots node ∧ month = place

variable {model : Model} {months : List Date} {ledger : Ledger}
  {filled : NodeIndex → Nat → Prop} {root node place : Nat} {month : Date}
  {inputs : List NodeIndex} {values : List (Option Float)}

theorem EmptyOperator.of_values {slot : TreeSlot} {slots : List TreeSlot}
    (linked : List.Forall₂ (NodeAt slots) slot.inputs inputs)
    (ready : ReadyAt ledger place inputs values) :
    EmptyOperator model.graph slot ↔ IsOperator model.graph slot.node ∧ values = [] := by
  apply and_congr_right
  intro _
  rw [← List.length_eq_zero_iff, ← List.length_eq_zero_iff, linked.length_eq, ready.length_eq]

/-- A metric's value can be read exactly if its cell is filled, and is then its own. -/
theorem readyValue_outcome (progress : Progress model months filled ledger)
    (reader metric place : Nat) (month : Date) :
    Outcome (fun value => ledger.get metric place = .ready value ∧ filled metric place)
      (fun fault => ¬ filled metric place ∧
        fault = .readTooEarly (model.graph.idOf reader) (model.graph.idOf metric) month)
      (model.readyValue reader metric place month ledger) := by
  have ready_iff := progress.ready_iff metric place
  unfold readyValue
  cases cell : ledger.get metric place with
  | ready value => exact ⟨rfl, ready_iff.mp ⟨value, cell⟩⟩
  | pending =>
    refine ⟨fun fill => ?_, rfl⟩
    obtain ⟨value, ready⟩ := ready_iff.mpr fill
    simp [cell] at ready

theorem previousValue_outcome {fails : EvaluationFault → Prop} {id : String} {seed source : Nat}
    (progress : Progress model months filled ledger) (inside : place < months.length)
    (found : model.graph.index? id = some source)
    (fill : ∀ earlier < place, filled source earlier) :
    Outcome (fun value => match place with
        | 0 => value = ledger.months.head?.bind (model.openingValue source)
        | earlier + 1 => ledger.get source earlier = .ready value)
      fails (model.previousValue seed id place ledger) := by
  unfold previousValue
  rw [found]
  cases place with
  | zero => exact rfl
  | succ earlier =>
    have dated : ledger.months[earlier]? = some months[earlier] := by
      rw [progress.months_eq, List.getElem?_eq_getElem]
    simp only [dated]
    apply (readyValue_outcome progress seed source earlier _).imp (fun _ read => read.1)
    rintro fault ⟨missing, _⟩
    exact absurd (fill earlier (by omega)) missing

/-- A slot's value is the one that its node has. There is none for an operator without
inputs and for a metric of another tree that is not filled yet. -/
theorem slotValue_outcome (progress : Progress model months filled ledger)
    (dated : months[place]? = some month) (inside : node < model.graph.size)
    (declared : inputsWithin model.graph root node = .ok inputs)
    (ready : ReadyAt ledger place inputs values)
    (sources : SourceFilled model.graph filled place node) {isRoot : Bool}
    (isRoot_iff : isRoot ↔ node = root) :
    Outcome (fun value => model.Determined ledger node place month value ∧
        ¬ (IsOperator model.graph node ∧ values = []) ∧
        (IsForeign model.graph root node → filled node place))
      (fun fault => (IsOperator model.graph node ∧ values = []) ∧
          fault = .operatorWithoutInputs (model.graph.idOf node) ∨
        IsForeign model.graph root node ∧ ¬ filled node place ∧
          fault = .readTooEarly (model.graph.idOf root) (model.graph.idOf node) month)
      (model.slotValue root node isRoot values place month ledger) := by
  have placeInside := (List.getElem?_eq_some_iff.mp dated).1
  obtain ⟨entry, stands⟩ := Graph.exists_place inside
  have kind := Graph.kind?_of_place stands
  unfold slotValue Determined IsOperator IsForeign
  rw [Graph.isMetric_iff_kind?]
  unfold inputsWithin at declared
  rw [kind] at declared ⊢
  cases shape : entry.kind with
  | data | constant => simp [Outcome, NodeKind.type]
  | operator operation ids =>
    simp only [shape] at declared ⊢
    cases values with
    | nil => simp [Outcome, NodeKind.type]
    | cons value rest =>
      simp only [List.isEmpty_cons, Outcome, Bool.false_eq_true, if_false]
      exact ⟨⟨inputs, _, declared, ready, rfl⟩, by simp⟩
  | seed id =>
    rw [shape] at kind
    obtain ⟨source, found, fill⟩ := sources id kind
    apply (previousValue_outcome progress placeInside found fill).imp _ fun _ fault => fault
    intro value previous
    exact ⟨⟨source, found, previous⟩, by simp [NodeKind.type]⟩
  | metric attributes =>
    simp only [shape] at declared ⊢
    cases declared
    by_cases atRoot : node = root
    · rw [if_pos (isRoot_iff.mpr atRoot)]
      rw [if_pos atRoot] at ready
      exact ⟨⟨values, ready, rfl⟩, by simp [NodeKind.type], fun foreign => absurd atRoot foreign.2⟩
    · -- If the metric's own tree came before, its value is copied.
      rw [if_neg fun isRoot => atRoot (isRoot_iff.mp isRoot)]
      rw [shape] at kind
      apply (readyValue_outcome progress root node place month).imp
      · rintro value ⟨own, fill⟩
        have determined := progress.determined own dated
        unfold Determined at determined
        rw [kind] at determined
        exact ⟨determined, by simp [NodeKind.type], fun _ => fill⟩
      · rintro fault ⟨missing, same⟩
        exact Or.inr ⟨⟨⟨attributes, rfl⟩, atRoot⟩, missing, same⟩

/-- The inputs of a slot are found among the values so far. -/
theorem inputs_found {slots : List TreeSlot} {places : List Nat} {sofar : Array (Option Float)}
    (linked : List.Forall₂ (NodeAt slots) places inputs)
    (ready : SlotValues ledger place slots sofar.toList) :
    ∃ values, places.mapM (sofar[·]?) = some values ∧ ReadyAt ledger place inputs values := by
  induction linked with
  | nil => exact ⟨[], rfl, .nil⟩
  | cons one _ ih =>
    obtain ⟨slot, stands, same⟩ := one
    obtain ⟨value, valueAt, own⟩ := exists_getElem?_of_forall₂ ready stands
    obtain ⟨values, found, others⟩ := ih
    rw [Array.getElem?_toList] at valueAt
    refine ⟨value :: values, ?_, .cons (same ▸ own) others⟩
    simp [List.mapM_cons, valueAt, found]

theorem slotValues_insert {slots : List TreeSlot} {slot : TreeSlot} {after : Ledger}
    {sofar : Array (Option Float)} {value : Option Float}
    (ready : SlotValues ledger place slots sofar.toList) (keeps : Keeps ledger after)
    (own : after.get slot.node place = .ready value) :
    SlotValues after place (slots ++ [slot]) (sofar.push value).toList := by
  rw [Array.toList_push]
  exact List.rel_append (ready.imp fun _ _ one => keeps.ready one) (.cons own .nil)

/-- A run stopped at an operator without inputs. -/
def Stopped (graph : Graph) (trees : List MetricTree) (fault : EvaluationFault) : Prop :=
  ∃ tree ∈ trees, ∃ slot ∈ tree.slots, EmptyOperator graph slot ∧
    fault = .operatorWithoutInputs (graph.idOf slot.node)

/-- No slot of the trees is an operator without inputs. -/
def NoneEmpty (graph : Graph) (trees : List MetricTree) : Prop :=
  ∀ tree ∈ trees, ∀ slot ∈ tree.slots, ¬ EmptyOperator graph slot

variable {tree : MetricTree} {trees : List MetricTree}

theorem SourceFilled.imp {others : NodeIndex → Nat → Prop}
    (sources : SourceFilled model.graph filled place node)
    (more : ∀ node place, filled node place → others node place) :
    SourceFilled model.graph others place node := by
  intro id kind
  obtain ⟨source, found, fill⟩ := sources id kind
  exact ⟨source, found, fun earlier before => more _ _ (fill earlier before)⟩

/-- A tree reads a metric of another tree that is not filled when the tree is evaluated. -/
def ReadTooEarly (graph : Graph) (filled : NodeIndex → Nat → Prop) (tree : MetricTree)
    (place : Nat) (month : Date) (fault : EvaluationFault) : Prop :=
  ∃ slot ∈ tree.slots, IsForeign graph tree.root slot.node ∧ ¬ filled slot.node place ∧
    fault = .readTooEarly (graph.idOf tree.root) (graph.idOf slot.node) month

theorem filledBy_nil (filled : NodeIndex → Nat → Prop) (place node month : Nat) :
    FilledBy filled place [] node month ↔ filled node month := by
  simp [FilledBy, Holds]

theorem filledBy_concat (filled : NodeIndex → Nat → Prop) (place : Nat) (slots : List TreeSlot)
    (slot : TreeSlot) (node month : Nat) :
    FilledBy filled place (slots ++ [slot]) node month ↔
      FilledBy filled place slots node month ∨ node = slot.node ∧ month = place := by
  simp only [FilledBy, Holds, List.mem_append, List.mem_singleton, or_and_right, exists_or,
    exists_eq_left, or_assoc, eq_comm (a := node)]

/-- Slots of other nodes do not fill a node. -/
theorem filledBy_iff_of_fresh {slots : List TreeSlot} (filled : NodeIndex → Nat → Prop)
    (place : Nat) (fresh : ∀ slot ∈ slots, slot.node ≠ node) :
    FilledBy filled place slots node place ↔ filled node place := by
  have absent : ¬ Holds slots node := fun ⟨slot, member, same⟩ => fresh slot member same
  simp [FilledBy, absent]

/-- The rest of a tree, with the slots before it evaluated. -/
theorem runSlots_outcome (built : Built model.graph tree) (dated : months[place]? = some month)
    (sources : ∀ slot ∈ tree.slots, SourceFilled model.graph filled place slot.node)
    (member : tree ∈ trees) (before rest : List TreeSlot) (whole : tree.slots = before ++ rest)
    (sofar : Array (Option Float)) (ledger : Ledger)
    (values : SlotValues ledger place before sofar.toList)
    (progress : Progress model months (FilledBy filled place before) ledger) :
    Outcome (fun after => Progress model months (FilledBy filled place tree.slots) after ∧
        ∀ slot ∈ rest, ¬ EmptyOperator model.graph slot ∧
          (IsForeign model.graph tree.root slot.node → filled slot.node place))
      (fun fault => Stopped model.graph trees fault ∨
        ReadTooEarly model.graph filled tree place month fault)
      (model.runSlots tree.root place month rest sofar ledger) := by
  induction rest generalizing before sofar ledger with
  | nil =>
    rw [List.append_nil] at whole
    exact ⟨whole ▸ progress, by simp⟩
  | cons slot rest ih =>
    have among : slot ∈ tree.slots := whole ▸ (by simp)
    obtain ⟨_, fresh, inputs, declared, linked⟩ := (whole ▸ built.placed).split
    obtain ⟨given, found, ready⟩ := inputs_found linked values
    have inside := built.inside slot among
    have stands : tree.slots[before.length]? = some slot := by simp [whole]
    have last : rest.isEmpty ↔ slot.node = tree.root := by
      rw [← built.rootPlace_iff stands]
      simp [rootPlace, whole]
    have sourcesNow : SourceFilled model.graph (FilledBy filled place before) place slot.node :=
      (sources slot among).imp fun _ _ => Or.inl
    unfold runSlots
    simp only [found]
    have evaluated := slotValue_outcome progress dated inside declared ready sourcesNow last
    simp only [← EmptyOperator.of_values linked ready, filledBy_iff_of_fresh filled place fresh]
      at evaluated
    apply Outcome.bind (evaluated.imp (fun _ held => held) ?_)
    · rintro value _ ⟨determined, kept⟩
      have keeps := progress.insert_keeps inside dated determined
      have own : (ledger.insert slot.node place value).get slot.node place = .ready value :=
        Ledger.get_insert_self progress.sized inside
          (progress.months_eq ▸ (List.getElem?_eq_some_iff.mp dated).1)
      have following := (progress.insert inside dated determined).congr fun node month =>
        (filledBy_concat filled place before slot node month).symm
      apply (ih (before ++ [slot]) (by simpa using whole) _ _ (slotValues_insert values keeps own)
        following).imp _ fun _ fault => fault
      rintro after ⟨finished, others⟩
      exact ⟨finished, List.forall_mem_cons.mpr ⟨kept, others⟩⟩
    · rintro fault (⟨empty, same⟩ | ⟨foreign, missing, same⟩)
      · exact Or.inl ⟨tree, member, slot, among, empty, same⟩
      · exact Or.inr ⟨slot, among, foreign, missing, same⟩

theorem runTree_outcome (built : Built model.graph tree) (dated : months[place]? = some month)
    (sources : ∀ slot ∈ tree.slots, SourceFilled model.graph filled place slot.node)
    (member : tree ∈ trees) (progress : Progress model months filled ledger) :
    Outcome (fun after => Progress model months (FilledBy filled place tree.slots) after ∧
        ∀ slot ∈ tree.slots, ¬ EmptyOperator model.graph slot ∧
          (IsForeign model.graph tree.root slot.node → filled slot.node place))
      (fun fault => Stopped model.graph trees fault ∨
        ReadTooEarly model.graph filled tree place month fault)
      (model.runTree place month tree ledger) := by
  have start := progress.congr fun node month => (filledBy_nil filled place node month).symm
  exact runSlots_outcome built dated sources member [] tree.slots rfl #[] ledger .nil start

end MonthlyForecast.Model
