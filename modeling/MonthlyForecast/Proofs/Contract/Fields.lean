import MonthlyForecast.Contract.Fields
import MonthlyForecast.Proofs.Calendar.DateText
import MonthlyForecast.Proofs.Json.Document
import MonthlyForecast.Proofs.Outcome

/-! Values that are encoded are decoded again. The encoding of a value is written, read as a
document and decoded; where the parts of a value come back this way, so does the value. Only a
number that is not finite would be lost, for it is written as null. -/
namespace MonthlyForecast

open Json

/-- The encoding is read as a document from which the decoder gets the value. -/
def Decodes {α : Type} (written : Json) (decode : Json → Option α) (value : α) : Prop :=
  ∃ back, ReadsAs written back ∧ decode back = some value

variable {α : Type} {encode : α → Json} {decode : Json → Option α}

@[simp] theorem toText?_text (value : String) : toText? (.text value) = some value :=
  Piece.toString?_ofString value

theorem decodes_boolean (value : Bool) : Decodes (.boolean value) toBoolean? value :=
  ⟨_, readsAs_boolean value, rfl⟩

@[simp] theorem toInt32?_integer (value : Int32) :
    toInt32? (.integer value.toInt) = some value := by
  have low := value.minValue_le_toInt
  have high := value.toInt_le
  simp only [integer, toInt32?, Numeral.toInt?_ofInt, Option.bind_eq_bind, Option.bind_some]
  rw [if_pos ⟨low, high⟩, Int32.ofInt_toInt]

/-- A finite double comes back if the format keeps doubles, as a numeral that may be laid out
otherwise. -/
theorem decodes_float [NumberFormat] (exact : NumberFormat.RoundTrips) {value : Float}
    (finite : value.isFinite = true) : Decodes (Json.float value) toFloat? value := by
  obtain ⟨back, read, denoted⟩ := exact.exists_read finite
  rw [Json.float, if_pos finite]
  exact ⟨.number back, readsAs_number read, denoted⟩

theorem decodes_date (date : Date) : Decodes (.text date.toText) toDate? date := by
  refine ⟨_, readsAs_text date.toText, ?_⟩
  rw [toDate?, toText?_text, Option.bind_some, date.ofText?_toText]

theorem decodes_timestamp {moment : Timestamp} (form : moment.InForm) :
    Decodes (.text moment.toText) toTimestamp? moment := by
  refine ⟨_, readsAs_text moment.toText, ?_⟩
  rw [toTimestamp?, toText?_text, Option.bind_some, moment.ofText?_toText form]

/-- A choice is found by its name if no two choices share one. -/
theorem toChoice?_text {all : List α} {name : α → String} {choice : α} (listed : choice ∈ all)
    (distinct : (all.map name).Nodup) : toChoice? all name (.text (name choice)) = some choice := by
  have named : (fun other => Piece.toString? (Piece.ofString (name choice)) == some (name other)) =
      (name · == name choice) := by
    funext other
    rw [Piece.toString?_ofString, Option.some_beq_some, Bool.beq_comm]
  change all.find? _ = _
  rw [named]
  exact (find?_key_eq_some_iff distinct).mpr ⟨listed, rfl⟩

theorem decodes_some (missing : decode .null = none) {written : Json} {item : α}
    (given : Decodes written decode item) : Decodes written (toOption? decode) (some item) := by
  obtain ⟨back, read, found⟩ := given
  refine ⟨back, read, ?_⟩
  unfold toOption?
  split
  · rw [missing] at found
    contradiction
  · rw [found]
    rfl

theorem decodes_option (missing : decode .null = none) {value : Option α}
    (given : ∀ item, value = some item → Decodes (encode item) decode item) :
    Decodes (.option encode value) (toOption? decode) value := by
  cases value with
  | none => exact ⟨.null, readsAs_null, rfl⟩
  | some item => exact decodes_some missing (given item rfl)

theorem decodes_list {values : List α}
    (each : ∀ value ∈ values, Decodes (encode value) decode value) :
    Decodes (.list encode values) (toList? decode) values := by
  have items : ∃ backs, List.Forall₂ ReadsAs (values.map encode) backs ∧
      backs.mapM decode = some values := by
    induction values with
    | nil => exact ⟨[], .nil, rfl⟩
    | cons value values ih =>
      obtain ⟨back, read, found⟩ := each value List.mem_cons_self
      obtain ⟨backs, reads, others⟩ :=
        ih fun other among => each other (List.mem_cons_of_mem _ among)
      refine ⟨back :: backs, .cons read reads, ?_⟩
      rw [List.mapM_cons, found, others]
      rfl
  obtain ⟨backs, reads, found⟩ := items
  exact ⟨.array backs, readsAs_array reads, found⟩

/-! Fields of a record. -/

theorem mapM_membersOf (fields : List (String × Json)) :
    (membersOf fields).mapM (fun (key, value) =>
      (Piece.toString? key).map fun key => (key, value)) = some fields := by
  induction fields with
  | nil => rfl
  | cons field fields ih =>
    simp only [membersOf, List.map_cons, List.mapM_cons, Piece.toString?_ofString] at ih ⊢
    rw [ih]
    rfl

namespace Fields

variable {names : List String} {fields : List (String × Json)}

theorem ofMembers?_membersOf (known : ∀ field ∈ fields, field.1 ∈ names)
    (distinct : (fields.map (·.1)).Nodup) :
    ofMembers? names (membersOf fields) = some ⟨false, fields⟩ := by
  simp only [ofMembers?, mapM_membersOf, Option.bind_eq_bind, Option.bind_some]
  rw [List.filter_eq_self.mpr fun field among => List.elem_iff.mpr (known field among),
    if_pos distinct]

/-- A record is decoded from its fields if they are known and no two share a name. -/
theorem ofJson?_record (known : ∀ field ∈ fields, field.1 ∈ names)
    (distinct : (fields.map (·.1)).Nodup) : ofJson? names (.record fields) = some ⟨false, fields⟩ :=
  ofMembers?_membersOf known distinct

variable {positional : Bool} {key name : String} {json : Json}

@[simp] theorem required_cons : required ⟨positional, (key, json) :: fields⟩ name decode =
    if name = key then decode json else required ⟨positional, fields⟩ name decode := by
  by_cases same : name = key
  · simp [required, List.lookup, same]
  · simp [required, List.lookup, beq_false_of_ne same, same]

@[simp] theorem withDefault_cons (standard : α) :
    withDefault ⟨positional, (key, json) :: fields⟩ name decode standard =
      if name = key then decode json
      else withDefault ⟨positional, fields⟩ name decode standard := by
  by_cases same : name = key
  · simp [withDefault, List.lookup, same]
  · simp [withDefault, List.lookup, beq_false_of_ne same, same]

@[simp] theorem withDefault_nil (standard : α) :
    withDefault ⟨positional, []⟩ name decode standard = some standard :=
  rfl

@[simp] theorem nullable_cons : nullable ⟨positional, (key, json) :: fields⟩ name decode =
    if name = key then json.toOption? decode
    else nullable ⟨positional, fields⟩ name decode := by
  by_cases same : name = key
  · simp [nullable, List.lookup, same]
  · simp [nullable, List.lookup, beq_false_of_ne same, same]

end Fields

/-! Where decoded values come from. -/

variable {value : α} {fields : Fields} {name : String}

theorem exists_of_toList? {json : Json} {values : List α}
    (found : toList? decode json = some values) (among : value ∈ values) :
    ∃ item, decode item = some value := by
  cases json with
  | array items =>
    obtain ⟨item, -, here⟩ := exists_left_of_forall₂ (forall₂_of_mapM found) among
    exact ⟨item, here⟩
  | _ => contradiction

theorem exists_of_toOption? {json : Json} (found : toOption? decode json = some (some value)) :
    ∃ item, decode item = some value := by
  unfold toOption? at found
  split at found
  · cases found
  · obtain ⟨item, here, same⟩ := Option.map_eq_some_iff.mp found
    cases same
    exact ⟨_, here⟩

theorem Fields.exists_of_required (found : fields.required name decode = some value) :
    ∃ item, decode item = some value := by
  obtain ⟨item, -, here⟩ := Option.bind_eq_some_iff.mp found
  exact ⟨item, here⟩

theorem Fields.exists_of_withDefault {standard : α}
    (found : fields.withDefault name decode standard = some value) :
    value = standard ∨ ∃ item, decode item = some value := by
  unfold withDefault at found
  split at found
  · cases found
    exact Or.inl rfl
  · exact Or.inr ⟨_, found⟩

theorem Fields.exists_of_nullable (found : fields.nullable name decode = some (some value)) :
    ∃ item, decode item = some value := by
  unfold nullable at found
  split at found
  · split at found <;> cases found
  · exact exists_of_toOption? found

/-- A number that was decoded is finite. -/
theorem isFinite_of_toFloat? [NumberFormat] {json : Json} {x : Float}
    (found : json.toFloat? = some x) : x.isFinite = true := by
  cases json with
  | number value =>
    obtain ⟨finite, same⟩ := Option.ite_none_right_eq_some.mp found
    exact Option.some.inj same ▸ finite
  | _ => contradiction

end MonthlyForecast
