import Mathlib.Data.List.Basic
import MonthlyForecast.Calendar.DateText
import MonthlyForecast.Proofs.Text.Digits

/-! Dates and moments that are written are read back. A date is read back in every supported
year, those that take a sign included; a moment is if its date and time fit the one form that is
read. -/
namespace MonthlyForecast

open Text

variable {c : Char} {rest : List Char} {year : Int} {value width : Nat}

/-! The parts of a date. -/

theorem isBlank_of_isDigit (digit : c.isDigit) : isBlank c = false := by
  have zero : '0'.toNat = 48 := rfl
  have nine : '9'.toNat = 57 := rfl
  have bounds := Char.isDigit_iff_toNat.mp digit
  simp [isBlank, inRanges, blankRanges]
  omega

theorem skipBlank_cons (visible : isBlank c = false) (rest : List Char) :
    skipBlank (c :: rest) = c :: rest := by
  simp [skipBlank, visible]

theorem exists_paddedDigits (width value : Nat) :
    ∃ c more, paddedDigits width value = c :: more ∧ c.isDigit := by
  obtain ⟨c, more, start⟩ := List.exists_cons_of_ne_nil (paddedDigits_ne_nil width value)
  exact ⟨c, more, start, isDigit_paddedDigits c (start ▸ List.mem_cons_self)⟩

/-- A number of the expected width is read as far as it goes. -/
theorem takeNumber_paddedDigits (positive : 0 < width) (small : value < 10 ^ width)
    (rest : List Char) :
    takeNumber width (paddedDigits width value ++ rest) = some (value, rest) := by
  rw [takeNumber_digits isDigit_paddedDigits (paddedDigits_ne_nil width value)
    (Or.inl (length_paddedDigits positive small)), digitsValue_paddedDigits]

theorem readHyphenNumber_append (small : value < 10 ^ 2) (rest : List Char) :
    readHyphenNumber ('-' :: paddedDigits 2 value ++ rest) = some (value, rest) := by
  obtain ⟨c, more, start, digit⟩ := exists_paddedDigits 2 value
  have hyphen : isBlank '-' = false := rfl
  have visible := skipBlank_cons (isBlank_of_isDigit digit) (more ++ rest)
  rw [readHyphenNumber, List.cons_append, skipBlank_cons hyphen]
  change takeNumber 2 (skipBlank (paddedDigits 2 value ++ rest)) = _
  rw [start, List.cons_append, visible, ← List.cons_append, ← start]
  exact takeNumber_paddedDigits (by decide) small rest

theorem takeNumber_signed (value : Nat) (stops : StopsDigits rest) :
    takeNumber (paddedDigits 4 value ++ rest).length (paddedDigits 4 value ++ rest) =
      some (value, rest) := by
  have short : (paddedDigits 4 value).length ≤ (paddedDigits 4 value ++ rest).length := by simp
  rw [takeNumber_digits isDigit_paddedDigits (paddedDigits_ne_nil 4 value)
    (Or.inr ⟨short, stops⟩), digitsValue_paddedDigits]

theorem readYear_of_digit {text : List Char} (start : text.head? = some c) (digit : c.isDigit) :
    readYear text = (takeNumber 4 text).map fun (value, rest) => ((value : Int), rest) := by
  obtain ⟨more, rfl⟩ := List.head?_eq_some_iff.mp start
  unfold readYear
  split
  · rename_i same
    cases same
    contradiction
  · rename_i same
    cases same
    contradiction
  · rfl

theorem readYear_append (year : Int) (stops : StopsDigits rest) :
    readYear (yearText year ++ rest) = some (year, rest) := by
  unfold yearText
  split
  · rename_i bounds
    obtain ⟨c, more, start, digit⟩ := exists_paddedDigits 4 year.toNat
    rw [readYear_of_digit (by rw [start]; rfl) digit,
      takeNumber_paddedDigits (by decide) (by omega)]
    simp only [Option.map_some, Option.some.injEq, Prod.mk.injEq, and_true]
    omega
  · have number := takeNumber_signed year.natAbs stops
    split
    · rename_i below
      have signed : -(year.natAbs : Int) = year := by omega
      change (takeNumber (paddedDigits 4 year.natAbs ++ rest).length
        (paddedDigits 4 year.natAbs ++ rest)).map _ = _
      rw [number]
      exact congrArg (fun value => some (value, rest)) signed
    · rename_i above
      have signed : (year.natAbs : Int) = year := by omega
      change (takeNumber (paddedDigits 4 year.natAbs ++ rest).length
        (paddedDigits 4 year.natAbs ++ rest)).map _ = _
      rw [number]
      exact congrArg (fun value => some (value, rest)) signed

theorem exists_yearText (year : Int) :
    ∃ c more, yearText year = c :: more ∧ isBlank c = false := by
  unfold yearText
  split
  · obtain ⟨c, more, start, digit⟩ := exists_paddedDigits 4 year.toNat
    exact ⟨c, more, start, isBlank_of_isDigit digit⟩
  · refine ⟨_, _, rfl, ?_⟩
    split <;> rfl

theorem daysInMonth_le (year : Int) (month : Nat) : daysInMonth year month ≤ 31 := by
  unfold daysInMonth
  split
  · split <;> decide
  all_goals decide

/-! Whole dates and moments. -/

namespace Date

theorem month_lt (date : Date) : date.month < 10 ^ 2 := by
  obtain ⟨_, _, _, month, _⟩ := date.day_exists
  omega

theorem day_lt (date : Date) : date.day < 10 ^ 2 := by
  obtain ⟨_, _, _, _, _, day⟩ := date.day_exists
  have := daysInMonth_le date.year date.month
  omega

/-- A date of any supported year is read back. -/
theorem ofText?_toText (date : Date) : ofText? date.toText = some date := by
  obtain ⟨c, more, start, visible⟩ := exists_yearText date.year
  have stops (text : List Char) : StopsDigits ('-' :: text) := by
    rintro c ⟨⟩
    rfl
  have year := readYear_append date.year
    (stops (paddedDigits 2 date.month ++ ('-' :: paddedDigits 2 date.day ++ [])))
  have month := readHyphenNumber_append date.month_lt ('-' :: paddedDigits 2 date.day ++ [])
  have day := readHyphenNumber_append date.day_lt []
  have skipped : skipBlank date.chars = date.chars := by
    rw [chars, start]
    exact skipBlank_cons visible _
  have parts : date.chars = yearText date.year ++
      ('-' :: paddedDigits 2 date.month ++ ('-' :: paddedDigits 2 date.day ++ [])) := by
    simp [chars]
  have whole : ofParts? date.year date.month date.day = some date :=
    ofParts?_eq_some_iff.mpr ⟨rfl, rfl, rfl⟩
  rw [ofText?, toText, String.toList_ofList, skipped, parts]
  simp only [List.cons_append, Option.bind_eq_bind] at year month day ⊢
  rw [year, Option.bind_some, month, Option.bind_some, day, Option.bind_some]
  exact whole

end Date

namespace Timestamp

/-- The moment has the form `YYYY-MM-DDTHH:MM:SSZ`, of a year with four digits and a time of day
that may be a leap second. -/
structure InForm (moment : Timestamp) : Prop where
  year : 0 ≤ moment.date.year ∧ moment.date.year ≤ 9999
  hour : moment.hour ≤ 23
  minute : moment.minute ≤ 59
  second : moment.second ≤ 60

theorem twoDigits_eq {first second : Char} (allDigits : ∀ c ∈ [first, second], c.isDigit) :
    twoDigits first second = some (digitsValue [first, second]) := by
  simp [twoDigits, allDigits first, allDigits second]

theorem exists_twoDigits (small : value < 10 ^ 2) :
    ∃ first second, paddedDigits 2 value = [first, second] ∧
      twoDigits first second = some value := by
  obtain ⟨first, second, digits⟩ := List.length_eq_two.mp (length_paddedDigits (by decide) small)
  refine ⟨first, second, digits, ?_⟩
  rw [twoDigits_eq (digits ▸ isDigit_paddedDigits), ← digits, digitsValue_paddedDigits]

theorem exists_fourDigits (small : value < 10 ^ 4) :
    ∃ a b c d century year, paddedDigits 4 value = [a, b, c, d] ∧ twoDigits a b = some century ∧
      twoDigits c d = some year ∧ 100 * century + year = value := by
  obtain ⟨a, b, c, d, digits⟩ := List.length_eq_four.mp (length_paddedDigits (by decide) small)
  have allDigits : ∀ e ∈ [a, b, c, d], e.isDigit := digits ▸ isDigit_paddedDigits
  refine ⟨a, b, c, d, _, _, digits, twoDigits_eq fun e among => allDigits e ?_,
    twoDigits_eq fun e among => allDigits e ?_, ?_⟩
  · exact @List.mem_append_left _ _ [a, b] [c, d] among
  · exact @List.mem_append_right _ _ [a, b] [c, d] among
  · have parts := digitsValue_append [a, b] [c, d]
    rw [List.cons_append, List.cons_append, List.nil_append, ← digits,
      digitsValue_paddedDigits] at parts
    rw [parts, Nat.mul_comm]
    rfl

/-- A moment of the one form that is read is read back. -/
theorem ofText?_toText {moment : Timestamp} (form : moment.InForm) :
    ofText? moment.toText = some moment := by
  obtain ⟨a, b, c, d, century, year, years, early, late, count⟩ :=
    @exists_fourDigits moment.date.year.toNat (by have := form.year; omega)
  obtain ⟨o₁, o₂, months, month⟩ := exists_twoDigits moment.date.month_lt
  obtain ⟨d₁, d₂, days, day⟩ := exists_twoDigits moment.date.day_lt
  obtain ⟨h₁, h₂, hours, hour⟩ :=
    @exists_twoDigits moment.hour (by have := form.hour; omega)
  obtain ⟨m₁, m₂, minutes, minute⟩ :=
    @exists_twoDigits moment.minute (by have := form.minute; omega)
  obtain ⟨s₁, s₂, seconds, second⟩ :=
    @exists_twoDigits moment.second (by have := form.second; omega)
  have whole : Date.ofParts? (100 * century + year : Nat) moment.date.month moment.date.day =
      some moment.date :=
    Date.ofParts?_eq_some_iff.mpr ⟨by have := form.year; omega, rfl, rfl⟩
  rw [ofText?, toText, String.toList_ofList, Date.chars, yearText, if_pos form.year, years, months,
    days, hours, minutes, seconds]
  simp only [List.cons_append, List.nil_append, early, late, month, day, hour, minute, second,
    Option.bind_eq_bind, Option.bind_some, whole]
  rw [if_pos ⟨form.hour, form.minute, form.second⟩]

end Timestamp
end MonthlyForecast
