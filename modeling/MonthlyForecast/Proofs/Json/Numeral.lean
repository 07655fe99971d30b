import MonthlyForecast.Json.Significand
import MonthlyForecast.Proofs.Decimal.Double
import MonthlyForecast.Proofs.Text.Digits

/-! Numerals that are written are read back. A numeral is laid out as digits with or without a
fraction and an exponent; reading these parts gives the number that they denote. An integer is
read as it was. Any other numeral may come back with its point elsewhere, which does not change
the number. So a format that reads the nearest double gives every double back. -/
namespace MonthlyForecast.Json
open Text

/-- The text is over or goes on behind a value. -/
def Closes (rest : List Char) : Prop :=
  ∀ c, rest.head? = some c → c = ',' ∨ c = ']' ∨ c = '\x7d'

theorem Closes.stopsDigits {rest : List Char} (closes : Closes rest) : StopsDigits rest := by
  intro c first
  rcases closes c first with rfl | rfl | rfl <;> decide

namespace Numeral

/-- The digits before a point: a zero alone, or no zero in front. -/
structure Whole (whole : List Char) : Prop where
  allDigits : ∀ c ∈ whole, c.isDigit
  nonempty : whole ≠ []
  leading : ∀ rest, whole = '0' :: rest → rest = []

/-- The parts of a numeral behind its sign. -/
structure Parts where
  whole : List Char
  fraction : Option (List Char)
  exponent : Option Int

def signText (negative : Bool) : List Char :=
  if negative then ['-'] else []

def fractionText : Option (List Char) → List Char
  | none => []
  | some places => '.' :: places

def exponentText : Option Int → List Char
  | none => []
  | some exponent => 'e' :: (if exponent < 0 then '-' else '+') :: decimalDigits exponent.natAbs

namespace Parts

def text (parts : Parts) : List Char :=
  parts.whole ++ (fractionText parts.fraction ++ exponentText parts.exponent)

/-- The numeral that is read from the parts. -/
def numeral (parts : Parts) (negative : Bool) : Numeral :=
  ⟨negative, digitsValue (parts.whole ++ parts.fraction.getD []),
    parts.exponent.getD 0 - (parts.fraction.getD []).length, (parts.fraction.getD []).length,
    parts.fraction.isNone && parts.exponent.isNone⟩

structure Valid (parts : Parts) : Prop where
  whole : Whole parts.whole
  places : ∀ places, parts.fraction = some places → places ≠ [] ∧ ∀ c ∈ places, c.isDigit

end Parts

variable {whole rest run : List Char} {fraction : Option (List Char)}
  {exponent : Option Int} {lead : Int}

theorem spanDigits_append (allDigits : ∀ c ∈ run, c.isDigit) (stops : StopsDigits rest) :
    spanDigits (run ++ rest) = (run, rest) := by
  rw [spanDigits, takeWhile_digits allDigits stops, dropWhile_digits allDigits stops]

theorem readWhole_append (valid : Whole whole) (stops : StopsDigits rest) :
    readWhole (whole ++ rest) = some (whole, rest) := by
  unfold readWhole
  rw [spanDigits_append valid.allDigits stops]
  split
  · rename_i empty
    exact absurd (congrArg Prod.fst empty) valid.nonempty
  · rename_i zero
    cases zero
    rfl
  · rename_i longer same
    obtain ⟨rfl, _⟩ := Prod.mk.inj same
    exact absurd (valid.leading _ rfl) longer
  · rename_i same
    cases same
    rfl

theorem stopsDigits_exponentText (closes : Closes rest) (exponent : Option Int) :
    StopsDigits (exponentText exponent ++ rest) := by
  cases exponent with
  | none => exact closes.stopsDigits
  | some exponent =>
    rintro c ⟨⟩
    rfl

theorem stopsDigits_fractionText (closes : Closes rest) (fraction : Option (List Char))
    (exponent : Option Int) :
    StopsDigits (fractionText fraction ++ (exponentText exponent ++ rest)) := by
  cases fraction with
  | none => exact stopsDigits_exponentText closes exponent
  | some places =>
    rintro c ⟨⟩
    rfl

theorem readFraction_append (closes : Closes rest)
    (places : ∀ places, fraction = some places → places ≠ [] ∧ ∀ c ∈ places, c.isDigit) :
    readFraction (fractionText fraction ++ (exponentText exponent ++ rest)) =
      some (fraction, exponentText exponent ++ rest) := by
  cases fraction with
  | none =>
    cases exponent with
    | none =>
      unfold readFraction
      split
      · rename_i point
        rcases closes '.' (congrArg List.head? point) with h | h | h <;> contradiction
      · rfl
    | some exponent => rfl
  | some run =>
    obtain ⟨nonempty, allDigits⟩ := places run rfl
    obtain ⟨first, more, rfl⟩ := List.exists_cons_of_ne_nil nonempty
    have span := spanDigits_append allDigits (stopsDigits_exponentText closes exponent)
    simp only [fractionText, List.cons_append, readFraction] at span ⊢
    rw [span]

theorem readSigned_append (closes : Closes rest) (exponent : Int) :
    readSigned ((if exponent < 0 then '-' else '+') :: (decimalDigits exponent.natAbs ++ rest)) =
      some (exponent, rest) := by
  have value := digitsValue_decimalDigits exponent.natAbs
  have run : spanDigits (decimalDigits exponent.natAbs ++ rest) = _ :=
    spanDigits_append isDigit_decimalDigits closes.stopsDigits
  obtain ⟨first, more, digits⟩ :=
    List.exists_cons_of_ne_nil (decimalDigits_ne_nil exponent.natAbs)
  rw [digits, List.cons_append] at run
  rw [digits] at value ⊢
  by_cases below : exponent < 0
  · have signed : -(digitsValue (first :: more) : Int) = exponent := by omega
    simp [readSigned, below, run, signed]
  · have signed : (digitsValue (first :: more) : Int) = exponent := by omega
    simp [readSigned, below, run, signed]

theorem readExponent_append (closes : Closes rest) :
    readExponent (exponentText exponent ++ rest) = some (exponent, rest) := by
  cases exponent with
  | none =>
    unfold readExponent
    split
    · rename_i mark
      rcases closes 'e' (congrArg List.head? mark) with h | h | h <;> contradiction
    · rename_i mark
      rcases closes 'E' (congrArg List.head? mark) with h | h | h <;> contradiction
    · rfl
  | some exponent =>
    change (readSigned ((if exponent < 0 then '-' else '+') ::
      (decimalDigits exponent.natAbs ++ rest))).map _ = _
    rw [readSigned_append closes]
    rfl

theorem read_signed {body : List Char} {c : Char} (first : body.head? = some c) (digit : c.isDigit)
    (negative : Bool) :
    read (signText negative ++ body) = (readWhole body).bind fun (whole, rest) =>
      (readFraction rest).bind fun (fraction, rest) =>
      (readExponent rest).bind fun (exponent, rest) =>
      some (⟨negative, digitsValue (whole ++ fraction.getD []),
        exponent.getD 0 - (fraction.getD []).length, (fraction.getD []).length,
        fraction.isNone && exponent.isNone⟩, rest) := by
  cases negative with
  | true => rfl
  | false =>
    obtain ⟨more, rfl⟩ := List.head?_eq_some_iff.mp first
    change read (c :: more) = _
    simp only [read, Option.bind_eq_bind]
    split
    · rename_i minus
      cases minus
      contradiction
    · rfl

/-- The parts of a numeral are read as the number that they denote. -/
theorem read_parts {parts : Parts} (valid : parts.Valid) (closes : Closes rest) (negative : Bool) :
    read (signText negative ++ parts.text ++ rest) = some (parts.numeral negative, rest) := by
  have body := readWhole_append valid.whole
    (stopsDigits_fractionText closes parts.fraction parts.exponent)
  have fractional := @readFraction_append _ _ parts.exponent closes valid.places
  have exponential := @readExponent_append _ parts.exponent closes
  obtain ⟨c, more, start⟩ := List.exists_cons_of_ne_nil valid.whole.nonempty
  have digit : c.isDigit := valid.whole.allDigits c (by simp [start])
  simp only [Parts.text, List.append_assoc]
  rw [read_signed (by rw [start]; rfl) digit, body]
  simp only [Option.bind_some, fractional, exponential, Parts.numeral]

theorem whole_decimalDigits (value : Nat) : Whole (decimalDigits value) :=
  ⟨isDigit_decimalDigits, decimalDigits_ne_nil value, fun _ => eq_nil_of_leading_zero⟩

/-- An integer is read as it was written. -/
theorem read_render_ofInt (closes : Closes rest) (value : Int) :
    read ((ofInt value).render ++ rest) = some (ofInt value, rest) := by
  have valid : Parts.Valid ⟨decimalDigits value.natAbs, none, none⟩ :=
    ⟨whole_decimalDigits _, nofun⟩
  have written : (ofInt value).render =
      signText (value < 0) ++ Parts.text ⟨decimalDigits value.natAbs, none, none⟩ := by
    simp [render, ofInt, signText, Parts.text, fractionText, exponentText]
  have denoted : Parts.numeral ⟨decimalDigits value.natAbs, none, none⟩ (value < 0) =
      ofInt value := by
    simp [Parts.numeral, ofInt]
  rw [written, read_parts valid closes, denoted]

/-- A numeral begins with a sign or a digit. -/
theorem starts_of_read {text : List Char} {n : Numeral} (found : read text = some (n, rest)) :
    ∃ c more, text = c :: more ∧ (c = '-' ∨ c.isDigit) := by
  cases text with
  | nil => contradiction
  | cons c more =>
    refine ⟨c, more, rfl, ?_⟩
    by_contra other
    obtain ⟨minus, digit⟩ := not_or.mp other
    have none : readWhole (c :: more) = none := by
      simp [readWhole, spanDigits, digit]
    simp only [read] at found
    split at found
    · rename_i same
      exact minus (List.cons.inj same).1
    · simp [none] at found

/-! Layouts of a double's digits. -/

/-- The text is made of the parts of a number. -/
def Spells (text : List Char) (number : ℚ) : Prop :=
  ∃ parts : Parts, parts.Valid ∧ parts.text = text ∧
    ∀ negative, (parts.numeral negative).scaled.value = number

theorem spells_plain {places : List Char} (valid : Whole whole) (nonempty : places ≠ [])
    (allDigits : ∀ c ∈ places, c.isDigit) :
    Spells (whole ++ '.' :: places)
      (digitsValue (whole ++ places) * 10 ^ (-places.length : ℤ)) := by
  refine ⟨⟨whole, some places, none⟩, ⟨valid, ?_⟩, ?_, ?_⟩
  · rintro _ ⟨⟩
    exact ⟨nonempty, allDigits⟩
  · simp [Parts.text, fractionText, exponentText]
  · intro negative
    simp [Parts.numeral, scaled, Decimal.Scaled.value]

theorem whole_zero : Whole ['0'] :=
  ⟨isDigit_zeros 1, List.cons_ne_nil _ _, fun _ same => (List.cons.inj same).2.symm⟩

theorem spells_zero : Spells ['0', '.', '0'] 0 := by
  have spelled := spells_plain whole_zero (List.cons_ne_nil '0' []) (isDigit_zeros 1)
  simpa [digitsValue, digitValue] using spelled

theorem whole_of_leading (allDigits : ∀ c ∈ run, c.isDigit) (nonempty : run ≠ [])
    (leading : run.head? ≠ some '0') : Whole run := by
  refine ⟨allDigits, nonempty, ?_⟩
  rintro rest rfl
  contradiction

/-- The first `count` digits of a run that is filled up with zeros behind. -/
theorem spells_positional {count : Nat} (positive : 0 < count) (allDigits : ∀ c ∈ run, c.isDigit)
    (nonempty : run ≠ []) (leading : run.head? ≠ some '0') :
    let filled := run ++ List.replicate (count - run.length) '0'
    Spells (filled.take count ++
        '.' :: (if count < filled.length then filled.drop count else ['0']))
      (digitsValue run * 10 ^ ((count : ℤ) - run.length)) := by
  intro filled
  have filledDigits : ∀ c ∈ filled, c.isDigit :=
    List.forall_mem_append.mpr ⟨allDigits, isDigit_zeros _⟩
  obtain ⟨first, more, start⟩ := List.exists_cons_of_ne_nil nonempty
  have valid : Whole (filled.take count) := by
    obtain ⟨less, rfl⟩ := Nat.exists_eq_succ_of_ne_zero positive.ne'
    apply whole_of_leading fun c among => filledDigits c (List.mem_of_mem_take among)
    · simp [filled, start]
    · simpa [filled, start] using leading
  by_cases longer : count < filled.length
  · have unfilled : count - run.length = 0 := by
      simp only [filled, List.length_append, List.length_replicate] at longer
      omega
    have same : filled = run := by simp [filled, unfilled]
    rw [same] at valid longer ⊢
    rw [if_pos longer]
    have remaining : run.drop count ≠ [] := by
      rw [ne_eq, List.drop_eq_nil_iff]
      omega
    have spelled := spells_plain valid remaining
      fun c among => allDigits c (List.mem_of_mem_drop among)
    rw [List.take_append_drop, List.length_drop, Nat.cast_sub (by omega), neg_sub] at spelled
    exact spelled
  · have fits : run.length ≤ count := by
      simp only [filled, List.length_append, List.length_replicate] at longer
      omega
    rw [List.take_of_length_le (by omega)] at valid ⊢
    rw [if_neg longer]
    have spelled := spells_plain valid (List.cons_ne_nil '0' []) (isDigit_zeros 1)
    have value : digitsValue (filled ++ ['0']) =
        digitsValue run * 10 ^ (count - run.length) * 10 := by
      rw [digitsValue_append, digitsValue_append, digitsValue_zeros, List.length_replicate]
      rfl
    rw [value] at spelled
    rw [← Nat.cast_sub fits, zpow_natCast]
    simpa using spelled

/-- The first digit, a point and the others; or the first digit alone, without a point. -/
theorem spells_scientific {first : Char} {others : List Char}
    (allDigits : ∀ c ∈ first :: others, c.isDigit) (leading : first ≠ '0') :
    Spells ((match first :: others with
        | first :: second :: rest => first :: '.' :: second :: rest
        | _ => first :: others) ++ exponentText (some lead))
      (digitsValue (first :: others) * 10 ^ (lead - others.length)) := by
  have valid : Whole [first] :=
    whole_of_leading (List.forall_mem_singleton.mpr (allDigits first List.mem_cons_self))
      (List.cons_ne_nil _ _) (by simpa using leading)
  cases others with
  | nil =>
    refine ⟨⟨[first], none, some lead⟩, ⟨valid, nofun⟩, rfl, fun negative => ?_⟩
    simp [Parts.numeral, scaled, Decimal.Scaled.value]
  | cons second rest =>
    refine ⟨⟨[first], some (second :: rest), some lead⟩, ⟨valid, ?_⟩, ?_, fun negative => ?_⟩
    · rintro _ ⟨⟩
      exact ⟨List.cons_ne_nil _ _, fun c among => allDigits c (List.mem_cons_of_mem _ among)⟩
    · simp [Parts.text, fractionText]
    · simp [Parts.numeral, scaled, Decimal.Scaled.value]

theorem layout_spells (allDigits : ∀ c ∈ run, c.isDigit) (nonempty : run ≠ [])
    (leading : run.head? ≠ some '0') :
    Spells (layout run lead) (digitsValue run * 10 ^ (lead + 1 - run.length)) := by
  unfold layout
  split
  · split
    · rename_i low
      have placed : List.replicate (lead.natAbs - 1) '0' ++ run ≠ [] := by simp [nonempty]
      have spelled := spells_plain whole_zero placed
        (List.forall_mem_append.mpr ⟨isDigit_zeros _, allDigits⟩)
      have value : digitsValue (['0'] ++ (List.replicate (lead.natAbs - 1) '0' ++ run)) =
          digitsValue run := by
        rw [digitsValue_append, digitsValue_append, digitsValue_zeros]
        simp [digitsValue, digitValue]
      have places : (-(List.replicate (lead.natAbs - 1) '0' ++ run).length : ℤ) =
          lead + 1 - run.length := by
        rw [List.length_append, List.length_replicate]
        omega
      rw [value, places] at spelled
      exact spelled
    · rename_i high
      have spelled := spells_positional (Nat.succ_pos lead.toNat) allDigits nonempty leading
      have places : ((lead.toNat + 1 : ℕ) : ℤ) - run.length = lead + 1 - run.length := by omega
      rw [Nat.succ_eq_add_one, places] at spelled
      exact spelled
  · obtain ⟨first, others, rfl⟩ := List.exists_cons_of_ne_nil nonempty
    have spelled := @spells_scientific lead _ _ allDigits (by simpa using leading)
    have places : lead - others.length = lead + 1 - (first :: others).length := by
      rw [List.length_cons]
      omega
    rw [places] at spelled
    exact spelled

theorem spells_digits (d : Decimal.Scaled) :
    Spells (if d.digits = 0 then ['0', '.', '0']
      else layout (decimalDigits d.digits) (d.exponent + (decimalDigits d.digits).length - 1))
      d.value := by
  split
  · rename_i zero
    have value : d.value = 0 := by simp [Decimal.Scaled.value, zero]
    rw [value]
    exact spells_zero
  · rename_i nonzero
    have spelled := @layout_spells _ (d.exponent + (decimalDigits d.digits).length - 1)
      isDigit_decimalDigits (decimalDigits_ne_nil d.digits) (head?_decimalDigits nonzero)
    rw [sub_add_cancel, add_sub_cancel_right, digitsValue_decimalDigits] at spelled
    exact spelled

/-- The number that the text of a numeral denotes; an integer is written without its exponent. -/
def written (n : Numeral) : ℚ :=
  if n.integral then n.digits else n.scaled.value

theorem render_spells (n : Numeral) : ∃ text, n.render = signText n.negative ++ text ∧
    Spells text n.written := by
  refine ⟨_, rfl, ?_⟩
  unfold written
  split
  · refine ⟨⟨decimalDigits n.digits, none, none⟩, ⟨whole_decimalDigits n.digits, nofun⟩, ?_, ?_⟩
    · simp [Parts.text, fractionText, exponentText]
    · intro negative
      simp [Parts.numeral, scaled, Decimal.Scaled.value]
  · exact spells_digits n.scaled

/-- What a numeral is written as is read as a numeral of the same sign and number. -/
theorem exists_read_render (n : Numeral) : ∃ back : Numeral, (∀ rest, Closes rest →
    read (n.render ++ rest) = some (back, rest)) ∧ back.negative = n.negative ∧
      back.scaled.value = n.written := by
  obtain ⟨_, text, parts, valid, rfl, value⟩ := n.render_spells
  refine ⟨parts.numeral n.negative, fun rest closes => ?_, rfl, value n.negative⟩
  rw [text, read_parts valid closes]

end Numeral

namespace NumberFormat

/-- The text of a number closes behind its numeral. -/
theorem parse?_print [NumberFormat] {x : Float} {back : Numeral} (reads : ∀ rest, Closes rest →
    Numeral.read ((write x).render ++ rest) = some (back, rest)) :
    parse? (print x) = some (read back) := by
  have alone : Numeral.read (write x).render = some (back, []) := by
    simpa using reads [] nofun
  rw [parse?, print, alone]

/-- A format that keeps doubles reads a numeral back from what it writes for a double, and from
that the double. -/
theorem RoundTrips.exists_read [NumberFormat] (exact : RoundTrips) {x : Float}
    (finite : x.isFinite = true) : ∃ back : Numeral, (∀ rest, Closes rest →
      Numeral.read ((write x).render ++ rest) = some (back, rest)) ∧ back.toFloat? = some x := by
  obtain ⟨back, reads, _⟩ := Numeral.exists_read_render (write x)
  have same : read back = x :=
    Option.some.inj ((parse?_print reads).symm.trans (exact x finite))
  refine ⟨back, reads, ?_⟩
  rw [Numeral.toFloat?, same, if_pos finite]

/-- The shortest digits of a double denote a number to which that double is the nearest. -/
theorem nearest_roundTrips : @RoundTrips nearest := by
  intro x finite
  obtain ⟨back, reads, sign, value⟩ := Numeral.exists_read_render (Numeral.ofFloat x)
  have holds : (Decimal.magnitude x).Holds back.scaled.value := by
    rw [value]
    exact Decimal.holds_shortest _
  have given : back.scaled.toFloat? back.negative = some x := by
    rw [sign]
    exact Decimal.toFloat?_eq finite holds
  rw [@parse?_print nearest x back reads]
  change some ((back.scaled.toFloat? back.negative).getD _) = _
  rw [given]
  rfl

/-- By way of a significand, the double above 1 / 11 is read from its digits. -/
theorem not_roundTrips_significand : ¬ @RoundTrips significand := by
  intro exact
  have read : @parse? significand (@print significand (1 / 11)) =
      some (Float.ofBits ((1 / 11 : Float).toBits + 1)) := by
    decide +kernel
  have same := read.symm.trans (exact (1 / 11) (by decide +kernel))
  exact absurd same (by decide +kernel)

end NumberFormat
end MonthlyForecast.Json
