import MonthlyForecast.Contract.Request
import MonthlyForecast.Proofs.Contract.Fields

/-! Requests that are encoded are decoded again, as long as they hold finite numbers only and the
number format keeps doubles. A request that was read holds no others: a numeral denotes a finite
double or none. -/
namespace MonthlyForecast

open Json

/-! Values that a node takes in before its kind is known. -/

namespace Json

variable [NumberFormat] {α : Type} {encode : α → Json} {depth : Nat}

@[simp] theorem isPlain_text (depth : Nat) (value : String) :
    (text value).isPlain depth = true := by
  obtain ⟨chars, found, -⟩ := Option.map_eq_some_iff.mp (Piece.toString?_ofString value)
  simp [text, isPlain, found]

@[simp] theorem isPlain_option (plain : ∀ value, (encode value).isPlain depth = true)
    (value : Option α) : (option encode value).isPlain depth = true := by
  cases value with
  | none => rfl
  | some value => exact plain value

/-- Whole numbers of 32 bits are taken in as they are. -/
@[simp] theorem isPlain_integer (depth : Nat) (value : Int32) :
    (integer value.toInt).isPlain depth = true := by
  have low : -2147483648 ≤ value.toInt := value.minValue_le_toInt
  have high : value.toInt ≤ 2147483647 := value.toInt_le
  have whole : (Numeral.ofInt value.toInt).integral = true := rfl
  have small : (Numeral.ofInt value.toInt).digits < Nat.pow 2 64 := by
    change value.toInt.natAbs < 18446744073709551616
    omega
  simp [integer, isPlain, Numeral.isDenotable, whole, small]

theorem isPlain_of_toFloat? {value : Json} {x : Float} (found : value.toFloat? = some x) :
    value.isPlain depth = true := by
  cases value with
  | number value =>
    have denoted : value.toFloat? = some x := found
    simp [isPlain, Numeral.isDenotable, denoted]
  | _ => contradiction

@[simp] theorem isPlain_list (plain : ∀ value, (encode value).isPlain depth = true)
    (values : List α) : (list encode values).isPlain (depth + 1) = true := by
  change arePlainItems depth (values.map encode) = true
  induction values with
  | nil => rfl
  | cons value values ih =>
    rw [List.map_cons, arePlainItems, plain, ih]
    rfl

theorem isPlain_record {fields : List (String × Json)}
    (plain : ∀ field ∈ fields, field.2.isPlain depth = true) :
    (record fields).isPlain (depth + 1) = true := by
  change arePlainMembers depth (membersOf fields) = true
  induction fields with
  | nil => rfl
  | cons field fields ih =>
    have key := isPlain_text depth field.1
    have value := plain field List.mem_cons_self
    have others := ih fun other among => plain other (List.mem_cons_of_mem _ among)
    rw [membersOf, List.map_cons, arePlainMembers]
    simp only [Bool.and_eq_true]
    exact ⟨⟨key, value⟩, others⟩

end Json

/-! Nodes and edges. -/

def NodeKind.AllFinite (kind : NodeKind) : Prop :=
  ∀ name value, kind = .constant name value → value.isFinite = true

structure Position.AllFinite (position : Position) : Prop where
  x : position.x.isFinite = true
  y : position.y.isFinite = true

structure Node.AllFinite (node : Node) : Prop where
  kind : node.kind.AllFinite
  position : ∀ position, node.position = some position → position.AllFinite

theorem readsAs_texts (values : List String) :
    ReadsAs (.list .text values) (.list .text values) := by
  apply readsAs_array
  rw [List.forall₂_same]
  intro item among
  obtain ⟨value, -, rfl⟩ := List.mem_map.mp among
  exact readsAs_text value

@[simp] theorem toList?_texts (values : List String) :
    toList? toText? (.list .text values) = some values := by
  change (values.map Json.text).mapM toText? = _
  induction values with
  | nil => rfl
  | cons value values ih =>
    rw [List.map_cons, List.mapM_cons, toText?_text, ih]
    rfl

theorem readsAs_optionalText (value : Option String) :
    ReadsAs (.option .text value) (.option .text value) := by
  cases value with
  | none => exact readsAs_null
  | some value => exact readsAs_text value

@[simp] theorem toOption?_optionalText (value : Option String) :
    toOption? toText? (.option .text value) = some value := by
  cases value with
  | none => rfl
  | some value => exact congrArg (Option.map some) (toText?_text value)

theorem Edge.decodes (edge : Edge) : Decodes edge.toJson ofJson? edge := by
  refine ⟨_, readsAs_record (.cons (.named (readsAs_text edge.id))
    (.cons (.named (readsAs_text edge.sourceId))
      (.cons (.named (readsAs_text edge.targetId)) .nil))), ?_⟩
  rw [ofJson?, Fields.ofJson?_record (by simp) (by simp)]
  simp

/-! From here on documents are written and read in one format, which keeps doubles. -/

section

variable [NumberFormat]

namespace NodeKind

/-- The attributes come back, and may be taken in as they are before the kind is known. -/
def AttributesDecode (kind : NodeKind) (depth : Nat) : Prop :=
  ∃ back, ReadsAs (kind.attributesJson Json.float) back ∧
    ofAttributes? kind.type back = some kind ∧ back.isPlain depth = true

variable (depth : Nat)

theorem data_decodes (name variableId : String) (offset : Int32) :
    (data name variableId offset).AttributesDecode (depth + 1) := by
  refine ⟨_, readsAs_record (.cons (.named (readsAs_text name))
    (.cons (.named (readsAs_text variableId))
      (.cons (.named (readsAs_integer offset.toInt)) .nil))), ?_, ?_⟩
  · rw [type, ofAttributes?, Fields.ofJson?_record (by simp) (by simp)]
    simp
  · apply isPlain_record
    simp

theorem constant_decodes (exact : NumberFormat.RoundTrips) {name : String} {value : Float}
    (finite : value.isFinite = true) : (constant name value).AttributesDecode (depth + 1) := by
  obtain ⟨number, readNumber, number_eq⟩ := decodes_float exact finite
  refine ⟨_, readsAs_record (.cons (.named (readsAs_text name))
    (.cons (.named readNumber) .nil)), ?_, ?_⟩
  · rw [type, ofAttributes?, Fields.ofJson?_record (by simp) (by simp)]
    simp [number_eq]
  · apply isPlain_record
    simp [isPlain_of_toFloat? number_eq]

theorem operator_decodes (operation : Operation) (inputOrder : List String) :
    (operator operation inputOrder).AttributesDecode (depth + 2) := by
  refine ⟨_, readsAs_record (.cons (.named (readsAs_text operation.symbol))
    (.cons (.named (readsAs_texts inputOrder)) .nil)), ?_, ?_⟩
  · have symbol : toTaggedChoice? Operation.all Operation.symbol (.text operation.symbol) =
        some operation :=
      toChoice?_text (by cases operation <;> decide) (by decide)
    rw [type, ofAttributes?, Fields.ofJson?_record (by simp) (by simp)]
    simp [symbol]
  · apply isPlain_record
    simp

theorem metric_decodes (attributes : Metric) :
    (metric attributes).AttributesDecode (depth + 1) := by
  refine ⟨_, readsAs_record (.cons (.named (readsAs_text attributes.label))
    (.cons (.named (readsAs_optionalText attributes.budgetVariableId))
      (.cons (.named (readsAs_optionalText attributes.historicalVariableId))
        (.cons (.named (readsAs_boolean attributes.useCalculated)) .nil)))), ?_, ?_⟩
  · rw [type, ofAttributes?, Fields.ofJson?_record (by simp) (by simp)]
    simp [toBoolean?]
  · apply isPlain_record
    simp [isPlain]

theorem seed_decodes (sourceMetricId : String) :
    (seed sourceMetricId).AttributesDecode (depth + 1) := by
  refine ⟨_, readsAs_record (.cons (.named (readsAs_text sourceMetricId)) .nil), ?_, ?_⟩
  · rw [type, ofAttributes?, Fields.ofJson?_record (by simp) (by simp)]
    simp
  · apply isPlain_record
    simp

theorem attributes_decode (exact : NumberFormat.RoundTrips) {kind : NodeKind}
    (finite : kind.AllFinite) : kind.AttributesDecode (depth + 2) := by
  cases kind with
  | data name variableId offset => exact data_decodes (depth + 1) name variableId offset
  | constant name value => exact constant_decodes (depth + 1) exact (finite name value rfl)
  | operator operation inputOrder => exact operator_decodes depth operation inputOrder
  | metric attributes => exact metric_decodes (depth + 1) attributes
  | seed sourceMetricId => exact seed_decodes (depth + 1) sourceMetricId

end NodeKind

theorem Position.decodes (exact : NumberFormat.RoundTrips) {position : Position}
    (finite : position.AllFinite) :
    Decodes (position.toJson Json.float) ofJson? position := by
  obtain ⟨x, readX, x_eq⟩ := decodes_float exact finite.x
  obtain ⟨y, readY, y_eq⟩ := decodes_float exact finite.y
  refine ⟨_, readsAs_record (.cons (.named readX) (.cons (.named readY) .nil)), ?_⟩
  rw [ofJson?, Fields.ofJson?_record (by simp) (by simp)]
  simp [x_eq, y_eq]

/-- A node is decoded from its fields if those that are taken in first are plain. -/
theorem Node.ofJson?_record {depth : Nat} {fields : List (String × Json)}
    (known : ∀ field ∈ fields, field.1 ∈ ["id", "kind", "attributes", "position"])
    (distinct : (fields.map (·.1)).Nodup)
    (plain : ∀ field ∈ fields, field.1 ≠ "id" → field.1 ≠ "position" →
      field.2.isPlain (nestingLimit - depth) = true) :
    ofJson? depth (.record fields) = (do
      let fields : Fields := ⟨false, fields⟩
      let id ← fields.required "id" toText?
      let type ← fields.required "kind" (toTaggedChoice? NodeType.all NodeType.name)
      let kind ← fields.required "attributes" (NodeKind.ofAttributes? type)
      let position ← fields.withDefault "position" (toOption? Position.ofJson?) none
      some ⟨id, kind, position⟩) := by
  have members : record fields = .object (membersOf fields) := rfl
  rw [members, ofJson?]
  simp only [Fields.ofMembers?_membersOf known distinct, Option.bind_eq_bind, Option.bind_some]
  apply if_pos
  rw [List.all_eq_true]
  intro member among
  obtain ⟨inside, taken⟩ := List.mem_filter.mp among
  obtain ⟨⟨key, value⟩, field, rfl⟩ := List.mem_map.mp inside
  simp only [isTakenIn, Piece.toString?_ofString, Bool.and_eq_true, bne_iff_ne] at taken
  exact plain (key, value) field taken.1 taken.2

/-- Nodes stand at depth three of a request, which leaves their attributes room to nest. -/
theorem Node.decodes (exact : NumberFormat.RoundTrips) {node : Node} (finite : node.AllFinite) :
    Decodes (node.toJson Json.float) (ofJson? 3) node := by
  obtain ⟨id, kind, position⟩ := node
  obtain ⟨attributes, readAttributes, attributes_eq, plain⟩ :=
    NodeKind.attributes_decode 122 exact finite.kind
  have type : toTaggedChoice? NodeType.all NodeType.name (.text kind.type.name) = some kind.type :=
    toChoice?_text (by cases kind.type <;> decide) (by decide)
  cases position with
  | none =>
    refine ⟨_, readsAs_record (.cons (.named (readsAs_text id))
      (.cons (.named (readsAs_text kind.type.name)) (.cons (.named readAttributes) .nil))), ?_⟩
    rw [ofJson?_record (by simp) (by simp) (by simp [nestingLimit, plain])]
    simp [type, attributes_eq]
  | some position =>
    obtain ⟨place, readPlace, place_eq⟩ :=
      decodes_some rfl (Position.decodes exact (finite.position position rfl))
    refine ⟨_, readsAs_record (.cons (.named (readsAs_text id))
      (.cons (.named (readsAs_text kind.type.name)) (.cons (.named readAttributes)
        (.cons (.named readPlace) .nil)))), ?_⟩
    rw [ofJson?_record (by simp) (by simp) (by simp [nestingLimit, plain])]
    simp [type, attributes_eq, place_eq]

/-! Variables. -/

def SeriesPoint.AllFinite (point : SeriesPoint) : Prop :=
  ∀ value, point.value = some value → value.isFinite = true

def Variable.AllFinite (entry : Variable) : Prop :=
  ∀ point ∈ entry.timeSeries, point.AllFinite

theorem SeriesPoint.decodes (exact : NumberFormat.RoundTrips) {point : SeriesPoint}
    (finite : point.AllFinite) : Decodes (point.toJson Json.float) ofJson? point := by
  obtain ⟨date, readDate, date_eq⟩ := decodes_date point.date
  obtain ⟨value, readValue, value_eq⟩ :=
    decodes_option rfl fun value given => decodes_float exact (finite value given)
  refine ⟨_, readsAs_record (.cons (.named readDate) (.cons (.named readValue) .nil)), ?_⟩
  rw [ofJson?, Fields.ofJson?_record (by simp) (by simp)]
  simp [date_eq, value_eq]

theorem Variable.decodes (exact : NumberFormat.RoundTrips) {entry : Variable}
    (finite : entry.AllFinite) : Decodes (entry.toJson Json.float) ofJson? entry := by
  have type : toChoice? VariableType.all VariableType.name (.text entry.type.name) =
      some entry.type :=
    toChoice?_text (by cases entry.type <;> decide) (by decide)
  obtain ⟨points, readPoints, points_eq⟩ :=
    decodes_list fun point among => SeriesPoint.decodes exact (finite point among)
  refine ⟨_, readsAs_record (.cons (.named (readsAs_text entry.id))
    (.cons (.named (readsAs_text entry.name)) (.cons (.named (readsAs_text entry.type.name))
      (.cons (.named (readsAs_text entry.organizationId)) (.cons (.named readPoints) .nil))))), ?_⟩
  rw [ofJson?, Fields.ofJson?_record (by simp) (by simp)]
  simp [type, points_eq]

/-! Requests. -/

structure Request.AllFinite (request : Request) : Prop where
  nodes : ∀ node ∈ request.nodes, node.AllFinite
  series : ∀ entry ∈ request.variableList, entry.AllFinite

theorem Request.decodes (exact : NumberFormat.RoundTrips) {request : Request}
    (finite : request.AllFinite) : Decodes (request.toJson Json.float) ofJson? request := by
  obtain ⟨id, nodes, edges, entries, start, stop, included⟩ := request
  obtain ⟨nodesBack, readNodes, nodes_eq⟩ :=
    decodes_list fun node among => Node.decodes exact (finite.nodes node among)
  obtain ⟨edgesBack, readEdges, edges_eq⟩ :=
    decodes_list fun edge (_ : edge ∈ edges) => edge.decodes
  obtain ⟨entriesBack, readEntries, entries_eq⟩ :=
    decodes_list fun entry among => Variable.decodes exact (finite.series entry among)
  obtain ⟨startBack, readStart, start_eq⟩ := decodes_date start
  obtain ⟨stopBack, readStop, stop_eq⟩ := decodes_date stop
  cases included with
  | none =>
    refine ⟨_, readsAs_record (.cons (.named (readsAs_text id)) (.cons (.named readNodes)
      (.cons (.named readEdges) (.cons (.named readEntries) (.cons (.named readStart)
        (.cons (.named readStop) .nil)))))), ?_⟩
    rw [ofJson?, Fields.ofJson?_record (by simp) (by simp)]
    simp [nodes_eq, edges_eq, entries_eq, start_eq, stop_eq]
  | some included =>
    obtain ⟨includedBack, readIncluded, included_eq⟩ :=
      decodes_some rfl (decodes_boolean included)
    refine ⟨_, readsAs_record (.cons (.named (readsAs_text id)) (.cons (.named readNodes)
      (.cons (.named readEdges) (.cons (.named readEntries) (.cons (.named readStart)
        (.cons (.named readStop) (.cons (.named readIncluded) .nil))))))), ?_⟩
    rw [ofJson?, Fields.ofJson?_record (by simp) (by simp)]
    simp [nodes_eq, edges_eq, entries_eq, start_eq, stop_eq, included_eq]

/-! Decoded requests hold finite numbers. -/

theorem NodeKind.allFinite_of_ofAttributes? {type : NodeType} {json : Json} {kind : NodeKind}
    (found : ofAttributes? type json = some kind) : kind.AllFinite := by
  rintro name value rfl
  cases type with
  | constant =>
    simp only [ofAttributes?, Option.bind_eq_bind, Option.bind_eq_some_iff] at found
    obtain ⟨fields, -, _, -, _, given, same⟩ := found
    cases same
    obtain ⟨item, here⟩ := Fields.exists_of_required given
    exact isFinite_of_toFloat? here
  | _ => simp [ofAttributes?, Option.bind_eq_some_iff] at found

theorem Position.allFinite_of_ofJson? {json : Json} {position : Position}
    (found : ofJson? json = some position) : position.AllFinite := by
  simp only [ofJson?, Option.bind_eq_bind, Option.bind_eq_some_iff] at found
  obtain ⟨fields, -, _, x, _, y, same⟩ := found
  cases same
  obtain ⟨_, x⟩ := Fields.exists_of_required x
  obtain ⟨_, y⟩ := Fields.exists_of_required y
  exact ⟨isFinite_of_toFloat? x, isFinite_of_toFloat? y⟩

theorem Node.allFinite_of_ofJson? {depth : Nat} {json : Json} {node : Node}
    (found : ofJson? depth json = some node) : node.AllFinite := by
  unfold ofJson? at found
  split at found
  · simp only at found
    split at found
    · simp only [Option.bind_eq_bind, Option.bind_eq_some_iff] at found
      obtain ⟨fields, -, _, -, _, -, _, kind, _, position, same⟩ := found
      cases same
      obtain ⟨_, kind⟩ := Fields.exists_of_required kind
      refine ⟨NodeKind.allFinite_of_ofAttributes? kind, ?_⟩
      rintro place rfl
      rcases Fields.exists_of_withDefault position with absent | ⟨_, given⟩
      · contradiction
      · obtain ⟨_, here⟩ := exists_of_toOption? given
        exact Position.allFinite_of_ofJson? here
    · contradiction
  · contradiction

theorem SeriesPoint.allFinite_of_ofJson? {json : Json} {point : SeriesPoint}
    (found : ofJson? json = some point) : point.AllFinite := by
  simp only [ofJson?, Option.bind_eq_bind, Option.bind_eq_some_iff] at found
  obtain ⟨fields, -, _, -, _, value, same⟩ := found
  cases same
  rintro value rfl
  obtain ⟨_, here⟩ := Fields.exists_of_nullable value
  exact isFinite_of_toFloat? here

theorem Variable.allFinite_of_ofJson? {json : Json} {entry : Variable}
    (found : ofJson? json = some entry) : entry.AllFinite := by
  simp only [ofJson?, Option.bind_eq_bind, Option.bind_eq_some_iff] at found
  obtain ⟨fields, -, _, -, _, -, _, -, _, -, _, points, same⟩ := found
  cases same
  intro point among
  rcases Fields.exists_of_withDefault points with rfl | ⟨_, given⟩
  · contradiction
  · obtain ⟨_, here⟩ := exists_of_toList? given among
    exact SeriesPoint.allFinite_of_ofJson? here

theorem Request.allFinite_of_ofJson? {json : Json} {request : Request}
    (found : ofJson? json = some request) : request.AllFinite := by
  simp only [ofJson?, Option.bind_eq_bind, Option.bind_eq_some_iff] at found
  obtain ⟨fields, -, _, -, _, nodes, _, -, _, entries, _, -, _, -, _, -, same⟩ := found
  cases same
  constructor
  · intro node among
    obtain ⟨_, nodes⟩ := Fields.exists_of_required nodes
    obtain ⟨_, here⟩ := exists_of_toList? nodes among
    exact Node.allFinite_of_ofJson? here
  · intro entry among
    rcases Fields.exists_of_withDefault entries with rfl | ⟨_, given⟩
    · contradiction
    · obtain ⟨_, here⟩ := exists_of_toList? given among
      exact Variable.allFinite_of_ofJson? here

/-- A request that was read is read back from what it is written as. -/
theorem Request.ofText?_toText (exact : NumberFormat.RoundTrips) {text : String} {request : Request}
    (found : ofText? text = some request) :
    ofText? (request.toJson Json.float).toText = some request := by
  obtain ⟨json, -, decoded⟩ := Option.bind_eq_some_iff.mp found
  obtain ⟨back, reads, same⟩ := Request.decodes exact (allFinite_of_ofJson? decoded)
  rw [ofText?, Json.ofText?_toText reads, Option.bind_some, same]

end

end MonthlyForecast
