import Mathlib.Data.List.Forall2
import MonthlyForecast.Json.Printer
import MonthlyForecast.Json.Reader
import MonthlyForecast.Proofs.Json.Numeral
import MonthlyForecast.Proofs.Json.Text

/-! Documents that are written are read back, with every numeral read as it is. A value that is
read back wherever it stands closes what stands before it, so the parts of a document carry over
to the whole, one lemma for each way to build a value. Each call of the reader takes a character
of the text or hands over to one that does, which the bound on the calls pays for. -/
namespace MonthlyForecast.Json

/-- The first value is written in a way that is read as the second, whatever follows it. -/
structure ReadsAs (written back : Json) : Prop where
  starts : ∃ c more, written.render = c :: more ∧ isSpace c = false ∧ c ≠ ']'
  reads : ∀ fuel rest, Closes rest → 2 * written.render.length ≤ fuel →
    readValue fuel (written.render ++ rest) = some (back, rest)

variable {written back : Json} {rest : List Char} {fuel : Nat}

theorem skipSpace_cons {c : Char} (visible : isSpace c = false) (rest : List Char) :
    skipSpace (c :: rest) = c :: rest := by
  simp [skipSpace, visible]

theorem readsAs_null : ReadsAs .null .null := by
  refine ⟨⟨'n', _, rfl, rfl, by decide⟩, ?_⟩
  rintro (_ | fuel) rest - enough
  · contradiction
  · rfl

theorem readsAs_boolean (value : Bool) : ReadsAs (.boolean value) (.boolean value) := by
  cases value
  · refine ⟨⟨'f', _, rfl, rfl, by decide⟩, ?_⟩
    rintro (_ | fuel) rest - enough
    · contradiction
    · rfl
  · refine ⟨⟨'t', _, rfl, rfl, by decide⟩, ?_⟩
    rintro (_ | fuel) rest - enough
    · contradiction
    · rfl

theorem readValue_quoted {text : List Char} {pieces : List Piece}
    (found : Piece.readAll text = some (pieces, rest)) :
    readValue (fuel + 1) ('"' :: text) = some (.string pieces, rest) := by
  change (Piece.readAll text).map _ = _
  rw [found]
  rfl

theorem readsAs_text (value : String) : ReadsAs (.text value) (.text value) := by
  refine ⟨⟨'"', _, rfl, rfl, by decide⟩, ?_⟩
  rintro (_ | fuel) rest - enough
  · simp [render, text, Piece.renderAll] at enough
  · have body := Piece.readAll_ofString value rest
    rw [text, render, Piece.renderAll, List.cons_append, List.cons_append, List.append_assoc]
    exact readValue_quoted body

/-! Numbers. -/

/-- What a numeral begins with begins no other value. -/
theorem numeral_start {c : Char} (start : c = '-' ∨ c.isDigit) :
    isSpace c = false ∧ ∀ other ∈ ['[', ']', '\x7b', '"', 't', 'f', 'n'], c ≠ other := by
  have apart {other : Char} (notMinus : '-' ≠ other) (notDigit : other.isDigit = false) :
      c ≠ other := by
    rintro rfl
    rcases start with rfl | digit
    · contradiction
    · exact absurd digit (by simp [notDigit])
  constructor
  · simp only [isSpace, Bool.or_eq_false_iff, beq_eq_false_iff_ne]
    exact ⟨⟨⟨apart (by decide) rfl, apart (by decide) rfl⟩, apart (by decide) rfl⟩,
      apart (by decide) rfl⟩
  · simp only [List.forall_mem_cons, List.not_mem_nil, false_implies, implies_true, and_true]
    refine ⟨?_, ?_, ?_, ?_, ?_, ?_, ?_⟩ <;> exact apart (by decide) rfl

theorem readValue_number {text : List Char} {value : Numeral}
    (found : Numeral.read text = some (value, rest)) :
    readValue (fuel + 1) text = some (.number value, rest) := by
  obtain ⟨c, more, rfl, start⟩ := Numeral.starts_of_read found
  obtain ⟨visible, apart⟩ := numeral_start start
  rw [readValue, skipSpace_cons visible]
  split
  case h_7 =>
    rename_i same
    rw [found]
    rfl
  all_goals
    rename_i same
    exact absurd (List.cons.inj same).1 (apart _ (by decide))

theorem readsAs_number {value back : Numeral}
    (found : ∀ rest, Closes rest → Numeral.read (value.render ++ rest) = some (back, rest)) :
    ReadsAs (.number value) (.number back) := by
  obtain ⟨c, more, text, start⟩ := Numeral.starts_of_read (found [] nofun)
  rw [List.append_nil] at text
  obtain ⟨visible, apart⟩ := numeral_start start
  refine ⟨⟨c, more, text, visible, apart ']' (by decide)⟩, ?_⟩
  rintro (_ | fuel) rest closes enough
  · simp [render, text] at enough
  · exact readValue_number (found rest closes)

theorem readsAs_integer (value : Int) : ReadsAs (.integer value) (.integer value) :=
  readsAs_number fun _ closes => Numeral.read_render_ofInt closes value

/-! Arrays. -/

theorem closes_renderItems (items : List Json) (rest : List Char) :
    Closes (renderItems items ++ rest) := by
  cases items with
  | nil =>
    rintro c ⟨⟩
    exact Or.inr (Or.inl rfl)
  | cons item items =>
    rintro c ⟨⟩
    exact Or.inl rfl

theorem readItems_last {text : List Char} (item : readValue fuel text = some (back, ']' :: rest)) :
    readItems (fuel + 1) text = some ([back], rest) := by
  rw [readItems, item]
  rfl

theorem readItems_next {text more : List Char} {backs : List Json}
    (item : readValue fuel text = some (back, ',' :: more))
    (others : readItems fuel more = some (backs, rest)) :
    readItems (fuel + 1) text = some (back :: backs, rest) := by
  rw [readItems, item]
  change (readItems fuel more).bind _ = _
  rw [others]
  rfl

theorem readItems_append {items backs : List Json} (first : ReadsAs written back)
    (others : List.Forall₂ ReadsAs items backs)
    (enough : 2 * (written.render.length + (renderItems items).length) ≤ fuel)
    (rest : List Char) :
    readItems fuel (written.render ++ renderItems items ++ rest) = some (back :: backs, rest) := by
  rw [List.append_assoc]
  induction others generalizing written back fuel with
  | nil =>
    cases fuel with
    | zero => simp [renderItems] at enough
    | succ fuel =>
      rw [renderItems, List.length_singleton] at enough
      have item := first.reads fuel _ (closes_renderItems [] rest) (by omega)
      exact readItems_last item
  | @cons next nextBack items backs following others ih =>
    cases fuel with
    | zero => simp [renderItems] at enough
    | succ fuel =>
      rw [renderItems, List.length_append, List.length_cons] at enough
      have item := first.reads fuel _ (closes_renderItems (next :: items) rest) (by omega)
      have remaining : readItems fuel _ = _ := ih following (by omega)
      rw [← List.append_assoc] at remaining
      exact readItems_next item remaining

theorem readValue_array {text : List Char} {backs : List Json} {c : Char} {more : List Char}
    (start : text = c :: more) (visible : isSpace c = false) (unclosed : c ≠ ']')
    (read : readItems fuel text = some (backs, rest)) :
    readValue (fuel + 1) ('[' :: text) = some (.array backs, rest) := by
  rw [readValue, skipSpace_cons rfl]
  simp only
  rw [start, skipSpace_cons visible]
  split
  · rename_i same
    exact absurd (List.cons.inj same).1 unclosed
  · rw [← start, read]
    rfl

theorem readsAs_array {items backs : List Json} (same : List.Forall₂ ReadsAs items backs) :
    ReadsAs (.array items) (.array backs) := by
  cases same with
  | nil =>
    refine ⟨⟨'[', _, rfl, rfl, by decide⟩, ?_⟩
    rintro (_ | fuel) rest - enough
    · contradiction
    · rfl
  | @cons first firstBack items backs reading others =>
    refine ⟨⟨'[', _, rfl, rfl, by decide⟩, ?_⟩
    rintro (_ | fuel) rest - enough
    · simp [render] at enough
    · obtain ⟨c, more, start, visible, unclosed⟩ := reading.starts
      rw [render, List.length_append, List.length_cons] at enough
      have read := @readItems_append _ _ fuel _ _ reading others (by omega) rest
      have begins : first.render ++ renderItems items ++ rest =
          c :: (more ++ renderItems items ++ rest) := by
        rw [start]
        rfl
      exact readValue_array begins visible unclosed read

/-! Objects whose keys are texts. -/

/-- A field keeps its name, and its value is read as the other one. -/
inductive FieldReads : String × Json → String × Json → Prop
  | named {key : String} {written back : Json} (reading : ReadsAs written back) :
    FieldReads (key, written) (key, back)

/-- The members of a record. -/
def membersOf (fields : List (String × Json)) : List (List Piece × Json) :=
  fields.map fun (key, value) => (Piece.ofString key, value)

theorem closes_renderMembers (members : List (List Piece × Json)) (rest : List Char) :
    Closes (renderMembers members ++ rest) := by
  cases members with
  | nil =>
    rintro c ⟨⟩
    exact Or.inr (Or.inr rfl)
  | cons member members =>
    rintro c ⟨⟩
    exact Or.inl rfl

theorem renderMembers_cons (key : String) (value : Json) (fields : List (String × Json))
    (rest : List Char) :
    renderMembers (membersOf ((key, value) :: fields)) ++ rest =
      ',' :: (Piece.renderAll (Piece.ofString key) ++
        ':' :: (value.render ++ (renderMembers (membersOf fields) ++ rest))) := by
  simp [membersOf, renderMembers]

/-- A member is read as far as its value, which decides how to go on. -/
theorem readMembers_named (key : String) (text : List Char) :
    readMembers (fuel + 1) (Piece.renderAll (Piece.ofString key) ++ ':' :: text) =
      (readValue fuel text).bind fun (value, rest) =>
        match skipSpace rest with
        | ',' :: rest => (readMembers fuel rest).bind fun (members, rest) =>
          some ((Piece.ofString key, value) :: members, rest)
        | '\x7d' :: rest => some ([(Piece.ofString key, value)], rest)
        | _ => none := by
  have name := Piece.readAll_ofString key (':' :: text)
  rw [Piece.renderAll, List.cons_append, List.cons_append, List.append_assoc]
  change (Piece.readAll _).bind _ = _
  rw [List.singleton_append, name]
  rfl

theorem readMembers_append {key : String} {fields backs : List (String × Json)}
    (first : ReadsAs written back) (others : List.Forall₂ FieldReads fields backs)
    (enough : 2 * (written.render.length + (renderMembers (membersOf fields)).length) ≤ fuel)
    (rest : List Char) :
    readMembers fuel (Piece.renderAll (Piece.ofString key) ++
        ':' :: (written.render ++ (renderMembers (membersOf fields) ++ rest))) =
      some (membersOf ((key, back) :: backs), rest) := by
  induction others generalizing key written back fuel with
  | nil =>
    cases fuel with
    | zero => simp [renderMembers, membersOf] at enough
    | succ fuel =>
      simp only [membersOf, List.map_nil, renderMembers, List.length_singleton] at enough
      have member := first.reads fuel _ (closes_renderMembers [] rest) (by omega)
      rw [readMembers_named, membersOf, List.map_nil, member]
      rfl
  | @cons field fieldBack fields backs following others ih =>
    obtain @⟨nextKey, next, nextBack, following⟩ := following
    have size := congrArg List.length (renderMembers_cons nextKey next fields [])
    simp only [List.append_nil, List.length_cons, List.length_append] at size
    cases fuel with
    | zero => omega
    | succ fuel =>
      have member := first.reads fuel _
        (closes_renderMembers (membersOf ((nextKey, next) :: fields)) rest) (by omega)
      have remaining : readMembers fuel _ = _ := @ih _ nextBack fuel nextKey following (by omega)
      rw [readMembers_named, member, renderMembers_cons]
      change (readMembers fuel _).bind _ = _
      rw [remaining]
      rfl

theorem render_record (key : String) (value : Json) (fields : List (String × Json))
    (rest : List Char) :
    (record ((key, value) :: fields)).render ++ rest =
      '\x7b' :: (Piece.renderAll (Piece.ofString key) ++
        ':' :: (value.render ++ (renderMembers (membersOf fields) ++ rest))) := by
  simp [membersOf, record, render]

theorem readValue_record {text : List Char} {pieces : List Piece}
    {backs : List (List Piece × Json)}
    (members : readMembers fuel (Piece.renderAll pieces ++ text) = some (backs, rest)) :
    readValue (fuel + 1) ('\x7b' :: (Piece.renderAll pieces ++ text)) =
      some (.object backs, rest) := by
  change (readMembers fuel (Piece.renderAll pieces ++ text)).map _ = _
  rw [members]
  rfl

theorem readsAs_record {fields backs : List (String × Json)}
    (same : List.Forall₂ FieldReads fields backs) : ReadsAs (record fields) (record backs) := by
  cases same with
  | nil =>
    refine ⟨⟨'\x7b', _, rfl, rfl, by decide⟩, ?_⟩
    rintro (_ | fuel) rest - enough
    · contradiction
    · rfl
  | @cons field fieldBack fields backs following others =>
    obtain @⟨key, written, back, reading⟩ := following
    refine ⟨⟨'\x7b', _, rfl, rfl, by decide⟩, ?_⟩
    rintro (_ | fuel) rest - enough
    · contradiction
    · have size := congrArg List.length (render_record key written fields [])
      simp only [List.append_nil, List.length_cons, List.length_append] at size
      rw [render_record]
      exact readValue_record (readMembers_append reading others (by omega) rest)

/-! Whole texts. -/

theorem ofText?_toText (reading : ReadsAs written back) : ofText? written.toText = some back := by
  have whole := reading.reads (2 * written.render.length + 2) [] nofun (by omega)
  rw [List.append_nil] at whole
  rw [ofText?, toText, String.toList_ofList]
  simp only [whole]
  rfl

end MonthlyForecast.Json
