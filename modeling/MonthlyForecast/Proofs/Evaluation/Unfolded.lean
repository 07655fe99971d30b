import MonthlyForecast.Evaluation.Model
import MonthlyForecast.Proofs.Evaluation.Ledger
import MonthlyForecast.Proofs.Tree.Expansion

/-! Evaluating the slots of a tree gives what evaluating its nested form gives. The slots
are passed once, each with the values of earlier ones; the nested form is computed from its
root down, each repeated part anew. The values of nodes that the tree does not open are
those of the ledger before it, since the tree writes only its own nodes and no earlier
month. -/
namespace MonthlyForecast
open MetricTree

/-- The value of a node that a tree does not open, in a ledger that the tree has not
written to: that of a series, a constant, a seed's source one month earlier, or a metric. -/
def Model.givenValue (model : Model) (ledger : Ledger) (place : Nat) (month : Date)
    (node : NodeIndex) : Option Float :=
  match model.graph.kind? node with
  | some (.data _ variableId offset) => model.series.value? variableId month offset.toInt
  | some (.constant _ value) => finite? value
  | some (.seed sourceMetricId) =>
    (model.graph.index? sourceMetricId).bind fun source =>
      match place with
      | 0 => ledger.months.head?.bind (model.openingValue source)
      | previous + 1 => ledger.value source previous
  | some (.metric _) => ledger.value node place
  | some (.operator _ _) | none => none

namespace NestedTree

mutual

/-- The value of a nested tree: an operator combines the values of its children, any other
node has the value given for it. -/
def value (graph : Graph) (given : NodeIndex → Option Float) : NestedTree → Option Float
  | .node id _ _ children =>
    match (graph.index? id).bind graph.kind? with
    | some (.operator operation _) => operation.combine (values graph given children)
    | _ => (graph.index? id).bind given

def values (graph : Graph) (given : NodeIndex → Option Float) :
    List NestedTree → List (Option Float)
  | [] => []
  | child :: children => value graph given child :: values graph given children

end

theorem values_eq_map (graph : Graph) (given : NodeIndex → Option Float)
    (children : List NestedTree) :
    values graph given children = children.map (value graph given) := by
  induction children with
  | nil => rfl
  | cons child rest ih => rw [values, ih, List.map_cons]

/-- The forecast of the metric at the root of a nested tree: the value of its first child if
the metric uses what is calculated and has a child, else that of its fallback variable. -/
def forecast (model : Model) (given : NodeIndex → Option Float) (month : Date) :
    NestedTree → Option Float
  | .node id _ _ children =>
    ((model.graph.index? id).bind model.graph.metric?).bind fun attributes =>
      match attributes.useCalculated, children with
      | true, child :: _ => child.value model.graph given
      | _, _ =>
        match model.policy.fallbackSource with
        | .budget => attributes.budgetVariableId.bind fun id => model.series.value? id month 0
        | .historical =>
          attributes.historicalVariableId.bind fun id => model.series.value? id month 0
        | .missing => none

end NestedTree

/-- A ledger after writes to the given slots' nodes in one month. -/
structure Ledger.Written (start : Ledger) (place : Nat) (slots : List TreeSlot)
    (ledger : Ledger) : Prop where
  months_eq : ledger.months = start.months
  size_eq : ledger.cells.size = start.cells.size
  get_eq : ∀ node month, (month = place → ∀ slot ∈ slots, slot.node ≠ node) →
    ledger.get node month = start.get node month

namespace Ledger.Written

variable {start ledger : Ledger} {place : Nat} {slots : List TreeSlot} {slot : TreeSlot}

theorem none (start : Ledger) (place : Nat) : start.Written place [] start :=
  ⟨rfl, rfl, fun _ _ _ => rfl⟩

theorem insert (written : start.Written place slots ledger) (inside : place < start.months.length)
    (value : Option Float) :
    start.Written place (slots ++ [slot]) (ledger.insert slot.node place value) where
  months_eq := (Ledger.months_insert ..).trans written.months_eq
  size_eq := by
    rw [Ledger.cells_insert (written.months_eq ▸ inside), Array.size_setIfInBounds]
    exact written.size_eq
  get_eq := by
    intro node month others
    have apart : ¬ (node = slot.node ∧ month = place) := by
      rintro ⟨rfl, rfl⟩
      exact others rfl slot (by simp) rfl
    rw [Ledger.get_insert_of_ne apart]
    exact written.get_eq node month fun here earlier member =>
      others here earlier (List.mem_append_left _ member)

end Ledger.Written

namespace Model

variable {model : Model} {start ledger : Ledger} {place : Nat} {month : Date}
  {slots : List TreeSlot} {root node : NodeIndex} {value : Option Float}
  {inputs : List (Option Float)}

theorem readyValue_congr {others : Ledger} {metric : NodeIndex} {earlier : Nat}
    (same : ledger.get metric earlier = others.get metric earlier) (reader : NodeIndex)
    (date : Date) :
    model.readyValue reader metric earlier date ledger =
      model.readyValue reader metric earlier date others := by
  simp only [readyValue, same]

theorem readyValue_eq_ok {reader metric : NodeIndex} {earlier : Nat} {date : Date}
    (read : model.readyValue reader metric earlier date ledger = .ok value) :
    ledger.value metric earlier = value := by
  unfold readyValue at read
  split at read
  · rename_i ready
    cases read
    simp [Ledger.value, ready, Cell.value]
  · contradiction

/-- A node that the tree does not open neither takes inputs nor sees the tree's writes. -/
theorem slotValue_frame (written : start.Written place slots ledger)
    (fresh : ∀ slot ∈ slots, slot.node ≠ node)
    (leaf : ∀ operation ids, model.graph.kind? node ≠ some (.operator operation ids))
    (inputs : List (Option Float)) :
    model.slotValue root node false inputs place month ledger =
      model.slotValue root node false [] place month start := by
  unfold slotValue
  split
  · rfl
  · rfl
  · rename_i operation ids kind
    exact absurd kind (leaf operation ids)
  · unfold previousValue
    split
    · rfl
    · rw [written.months_eq]
      split
      · rfl
      · split
        · exact readyValue_congr (written.get_eq _ _ fun here => absurd here (by omega)) _ _
        · rfl
  · exact readyValue_congr (written.get_eq node place fun _ => fresh) _ _
  · rfl

/-- What such a node gives is told by the ledger alone. -/
theorem slotValue_eq_given (dated : ledger.months[place]? = some month)
    (leaf : ∀ operation ids, model.graph.kind? node ≠ some (.operator operation ids))
    (ran : model.slotValue root node false [] place month ledger = .ok value) :
    value = model.givenValue ledger place month node := by
  unfold slotValue at ran
  unfold givenValue
  cases kind : model.graph.kind? node with
  | none =>
    rw [kind] at ran
    cases ran
    rfl
  | some shape =>
    rw [kind] at ran
    cases shape with
    | data | constant =>
      cases ran
      rfl
    | operator operation ids => exact absurd kind (leaf operation ids)
    | metric attributes => exact (readyValue_eq_ok ran).symm
    | seed sourceId =>
      simp only [previousValue] at ran
      split at ran
      · contradiction
      · rename_i source found
        simp only [found, Option.bind_some]
        cases place with
        | zero =>
          cases ran
          rfl
        | succ previous =>
          have inside := (List.getElem?_eq_some_iff.mp dated).1
          simp only [List.getElem?_eq_getElem (Nat.lt_of_succ_lt inside)] at ran
          exact (readyValue_eq_ok ran).symm

/-- Every value so far is that of its slot's expansion. -/
def ExpansionValues (graph : Graph) (tree : MetricTree) (given : NodeIndex → Option Float)
    (sofar : Array (Option Float)) : Prop :=
  ∀ (place : Nat) (value : Option Float), sofar[place]? = some value →
    ∃ nested, Expands graph tree place nested ∧ value = nested.value graph given

variable {tree : MetricTree} {given : NodeIndex → Option Float} {sofar : Array (Option Float)}

/-- The inputs of a slot are the values of the children of its expansion. -/
theorem ExpansionValues.inputs_eq {places : List Nat} {children : List NestedTree}
    (values : ExpansionValues model.graph tree given sofar)
    (below : List.Forall₂ (Expands model.graph tree) places children)
    (found : places.mapM (sofar[·]?) = some inputs) :
    inputs = NestedTree.values model.graph given children := by
  rw [NestedTree.values_eq_map]
  have each : List.Forall₂ (fun value child => value = NestedTree.value model.graph given child)
      inputs children := by
    apply (forall₂_comp (forall₂_of_mapM found).flip below).imp
    rintro value child ⟨place, stands, expands⟩
    obtain ⟨nested, expands', rfl⟩ := values place value stands
    rw [expands'.unique expands]
  rw [← List.forall₂_eq_eq_eq]
  exact List.forall₂_map_right_iff.mpr each

theorem ExpansionValues.push {nested : NestedTree}
    (values : ExpansionValues model.graph tree given sofar)
    (expands : Expands model.graph tree sofar.size nested) :
    ExpansionValues model.graph tree given (sofar.push (nested.value model.graph given)) := by
  intro place value stands
  rw [Array.getElem?_push] at stands
  split at stands
  · rename_i last
    cases stands
    exact ⟨nested, last ▸ expands, rfl⟩
  · exact values place value stands

/-- The root has the forecast of its expansion. -/
theorem slotValue_root_eq (resolved : model.graph.Resolved) (type : NodeType)
    (inputOrder : Option (List String)) {children : List NestedTree}
    (isMetric : model.graph.isMetric node)
    (ran : model.slotValue root node true (NestedTree.values model.graph given children) place
      month ledger = .ok value) :
    value = (NestedTree.node (model.graph.idOf node) type inputOrder children).forecast model
      given month := by
  have indexed := resolved.index?_idOf (Graph.isMetric_lt isMetric)
  obtain ⟨attributes, kind⟩ := Graph.isMetric_iff_kind?.mp isMetric
  simp only [slotValue, kind, if_true] at ran
  cases ran
  simp only [NestedTree.forecast, indexed, Graph.metric?, kind, NodeKind.metric?,
    Option.bind_some, rootValue]
  cases attributes.useCalculated with
  | false => rfl
  | true => cases children <;> rfl

/-- An operator has the value of its expansion. -/
theorem slotValue_operator_eq (resolved : model.graph.Resolved) (type : NodeType)
    (inputOrder : Option (List String)) {children : List NestedTree} {operation : Operation}
    {ids : List String} (kind : model.graph.kind? node = some (.operator operation ids))
    (ran : model.slotValue root node false (NestedTree.values model.graph given children) place
      month ledger = .ok value) :
    value = (NestedTree.node (model.graph.idOf node) type inputOrder children).value model.graph
      given := by
  have indexed := resolved.index?_idOf (Graph.lt_of_kind? kind)
  simp only [slotValue, kind] at ran
  split at ran
  · contradiction
  · cases ran
    simp [NestedTree.value, indexed, kind]

theorem value_leaf (resolved : model.graph.Resolved) (type : NodeType)
    (inputOrder : Option (List String)) (children : List NestedTree)
    (inside : node < model.graph.size)
    (leaf : ∀ operation ids, model.graph.kind? node ≠ some (.operator operation ids)) :
    (NestedTree.node (model.graph.idOf node) type inputOrder children).value model.graph given =
      given node := by
  simp only [NestedTree.value, resolved.index?_idOf inside, Option.bind_some]

/-- A node that the tree does not open has its given value, whatever the tree has written. -/
def Given (model : Model) (start : Ledger) (place : Nat) (month : Date) (root : NodeIndex)
    (slot : TreeSlot) : Prop :=
  slot.node ≠ root →
    (∀ operation ids, model.graph.kind? slot.node ≠ some (.operator operation ids)) →
      model.slotValue root slot.node false [] place month start =
        .ok (model.givenValue start place month slot.node)

/-- One slot before the root. -/
theorem slotValue_inner_eq (resolved : model.graph.Resolved) (type : NodeType)
    (inputOrder : Option (List String)) {children : List NestedTree} {slot : TreeSlot}
    (inside : slot.node < model.graph.size) (written : start.Written place slots ledger)
    (dated : start.months[place]? = some month)
    (fresh : ∀ earlier ∈ slots, earlier.node ≠ slot.node)
    (ran : model.slotValue root slot.node false (NestedTree.values model.graph
      (model.givenValue start place month) children) place month ledger = .ok value) :
    value = (NestedTree.node (model.graph.idOf slot.node) type inputOrder children).value
        model.graph (model.givenValue start place month) ∧
      model.Given start place month root slot := by
  by_cases operator : ∃ operation ids, model.graph.kind? slot.node = some (.operator operation ids)
  · obtain ⟨operation, ids, kind⟩ := operator
    exact ⟨slotValue_operator_eq resolved type inputOrder kind ran,
      fun _ leaf => absurd kind (leaf operation ids)⟩
  · have leaf : ∀ operation ids, model.graph.kind? slot.node ≠ some (.operator operation ids) :=
      fun operation ids kind => operator ⟨operation, ids, kind⟩
    rw [slotValue_frame written fresh leaf] at ran
    obtain rfl := slotValue_eq_given dated leaf ran
    exact ⟨(value_leaf resolved type inputOrder children inside leaf).symm, fun _ _ => ran⟩

/-- The slots that are left. The last one writes the forecast of the whole expansion. -/
theorem runSlots_unfolded (resolved : model.graph.Resolved) (built : Built model.graph tree)
    (isMetric : model.graph.isMetric tree.root) (dated : start.months[place]? = some month)
    {before rest : List TreeSlot} (whole : tree.slots = before ++ rest) (nonempty : rest ≠ [])
    (size : sofar.size = before.length)
    (values : ExpansionValues model.graph tree (model.givenValue start place month) sofar)
    (written : start.Written place before ledger) {after : Ledger}
    (ran : model.runSlots tree.root place month rest sofar ledger = .ok after) :
    (∀ slot ∈ rest, model.Given start place month tree.root slot) ∧
      ∃ slots earlier nested, start.Written place slots earlier ∧
        Expands model.graph tree tree.rootPlace nested ∧
        after = earlier.insert tree.root place
          (nested.forecast model (model.givenValue start place month) month) := by
  induction rest generalizing before sofar ledger with
  | nil => contradiction
  | cons slot rest ih =>
    have stands : tree.slots[before.length]? = some slot := by simp [whole]
    have member : slot ∈ tree.slots := List.mem_of_getElem? stands
    have inside : before.length < tree.slots.length := (List.getElem?_eq_some_iff.mp stands).1
    obtain ⟨nested, found⟩ := built.exists_nestedFrom inside
    have expands : Expands model.graph tree before.length nested := ⟨_, found⟩
    obtain ⟨slot', kind, children, stands', kindAt, below, rfl⟩ := expands.eq_node
    cases stands'.symm.trans stands
    have fresh := (whole ▸ built.placed).split.2.1
    unfold runSlots at ran
    split at ran
    · contradiction
    · rename_i inputs taken
      obtain rfl := values.inputs_eq below taken
      obtain ⟨value, valued, ran⟩ := exists_ok_of_bind ran
      cases rest with
      | nil =>
        have here : before.length = tree.rootPlace := by simp [rootPlace, whole]
        have atRoot := (built.rootPlace_iff stands).mp here
        refine ⟨List.forall_mem_singleton.mpr fun inner => absurd atRoot inner, ?_⟩
        cases ran
        rw [atRoot] at valued expands ⊢
        rw [slotValue_root_eq resolved kind.type (declaredInputs kind) isMetric valued]
        exact ⟨before, ledger, _, written, here ▸ expands, rfl⟩
      | cons next rest =>
        have placeInside := (List.getElem?_eq_some_iff.mp dated).1
        obtain ⟨rfl, given⟩ := slotValue_inner_eq resolved kind.type (declaredInputs kind)
          (built.inside slot member) written dated fresh valued
        have split : tree.slots = (before ++ [slot]) ++ next :: rest := by simp [whole]
        obtain ⟨others, last⟩ := ih split (by simp) (by simp [size]) (values.push (size ▸ expands))
          (written.insert placeInside _) ran
        exact ⟨List.forall_mem_cons.mpr ⟨given, others⟩, last⟩

/-- The last write of a tree's evaluation is the forecast of its nested form, computed from
the values that the ledger gives the nodes which the tree does not open. In that form each
operator's children are its declared inputs and shared slots look alike. -/
theorem runTree_unfolded (nodes : List Node) (edges : List Edge) (metric : NodeIndex)
    (tree : MetricTree) (found : build (.ofLists nodes edges) metric = .ok tree) :
    let graph := Graph.ofLists nodes edges
    ∃ nested, tree.nested? graph = some nested ∧ nested.FollowsDeclarations graph ∧
      nested.RepeatsAlike ∧
      ∀ (series : SeriesTable) (policy : Policy) (place : Nat) (month : Date)
        (ledger after : Ledger), ledger.months[place]? = some month →
        let model : Model := ⟨graph, series, policy⟩
        let forecast := nested.forecast model (model.givenValue ledger place month) month
        model.runTree place month tree ledger = .ok after →
          (∃ earlier : Ledger, after = earlier.insert tree.root place forecast) ∧
            (ledger.Sized graph.size → after.get tree.root place = .ready forecast) ∧
            ∀ slot ∈ tree.slots, model.Given ledger place month tree.root slot := by
  intro graph
  have resolved : graph.Resolved := Graph.ofLists_resolved nodes edges
  obtain ⟨rfl, built⟩ := build_eq_ok resolved found
  have isMetric := build_isMetric found
  obtain ⟨nested, same, expands⟩ := built.exists_nested
  refine ⟨nested, same, built.followsDeclarations resolved expands,
    built.repeatsAlike resolved expands, ?_⟩
  intro series policy place month ledger after dated model forecast ran
  have nonempty : tree.slots ≠ [] := by
    obtain ⟨earlier, places, whole⟩ := built.root_last
    simp [whole]
  have inModel : model.graph.Resolved := resolved
  have whole : tree.slots = [] ++ tree.slots := rfl
  have start : ExpansionValues model.graph tree (model.givenValue ledger place month) #[] := by
    simp [ExpansionValues]
  obtain ⟨given, slots, earlier, nested', written, expands', rfl⟩ :=
    runSlots_unfolded inModel built isMetric dated whole nonempty rfl start (.none ledger place) ran
  cases expands.unique expands'
  refine ⟨⟨earlier, rfl⟩, fun sized => ?_, given⟩
  have placeInside := (List.getElem?_eq_some_iff.mp dated).1
  have earlierSized : earlier.Sized graph.size := by
    rw [Ledger.Sized, written.size_eq, written.months_eq]
    exact sized
  exact Ledger.get_insert_self earlierSized (Graph.isMetric_lt isMetric)
    (written.months_eq ▸ placeInside)

theorem runTree_unfolded_square :
    let model : Model := ⟨.ofLists squareNodes squareEdges, [], .standard⟩
    let month : Date := ⟨2024, 1, 1, by decide⟩
    let ledger := Ledger.empty 3 [month]
    build model.graph 0 = .ok squareTree ∧
      ∃ nested after, squareTree.nested? model.graph = some nested ∧ nested.RepeatsAlike ∧
        model.runTree 0 month squareTree ledger = .ok after ∧
        after.get 0 0 = .ready (nested.forecast model (model.givenValue ledger 0 month) month) := by
  intro model month ledger
  have found : build model.graph 0 = .ok squareTree := by decide +kernel
  have completes : (model.runTree 0 month squareTree ledger).toBool = true := by
    decide +kernel
  obtain ⟨after, ran⟩ := exists_of_toBool completes
  obtain ⟨nested, same, _, alike, equal⟩ :=
    runTree_unfolded squareNodes squareEdges 0 squareTree found
  refine ⟨found, nested, after, same, alike, ran, ?_⟩
  exact (equal [] .standard 0 month ledger after rfl ran).2.1 (Ledger.sized_empty 3 [month])

end Model
end MonthlyForecast
