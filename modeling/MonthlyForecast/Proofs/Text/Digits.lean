import Mathlib.Algebra.Group.Nat.Defs
import Mathlib.Data.List.Induction
import Mathlib.Data.List.TakeWhile
import MonthlyForecast.Text.Digits

/-! Digits that are written are read back. A run of digits denotes the number it was written
for, leading zeros or not, and a number without leading zeros begins with a zero only if it is
one. What follows a run decides where it ends. -/
namespace MonthlyForecast.Text

/-- The text does not go on with a digit. -/
def StopsDigits (rest : List Char) : Prop :=
  ∀ c, rest.head? = some c → c.isDigit = false

variable {digits rest : List Char} {value width most : Nat}

theorem digitsValue_eq (digits : List Char) : digitsValue digits = Nat.ofDigitChars 10 digits 0 :=
  Nat.ofDigitChars_eq_foldl.symm

@[simp] theorem digitsValue_decimalDigits (value : Nat) :
    digitsValue (decimalDigits value) = value := by
  rw [digitsValue_eq, decimalDigits, Nat.ofDigitChars_ten_toDigits]

theorem digitsValue_append (first second : List Char) :
    digitsValue (first ++ second) =
      digitsValue first * 10 ^ second.length + digitsValue second := by
  rw [digitsValue_eq, digitsValue_eq, digitsValue_eq, Nat.ofDigitChars_append,
    Nat.ofDigitChars_eq_ofDigitChars_zero, Nat.mul_comm]

@[simp] theorem digitsValue_zeros (count : Nat) :
    digitsValue (List.replicate count '0') = 0 := by
  rw [digitsValue_eq, Nat.ofDigitChars_replicate_zero, Nat.mul_zero]

@[simp] theorem digitsValue_paddedDigits (width value : Nat) :
    digitsValue (paddedDigits width value) = value := by
  rw [paddedDigits, digitsValue_append, digitsValue_zeros, digitsValue_decimalDigits, Nat.zero_mul,
    Nat.zero_add]

theorem digitsValue_lt (allDigits : ∀ c ∈ digits, c.isDigit) :
    digitsValue digits < 10 ^ digits.length := by
  induction digits using List.reverseRecOn with
  | nil => decide
  | append_singleton before last ih =>
    have earlier := ih fun c among => allDigits c (List.mem_append_left _ among)
    have digit := Char.isDigit_iff_toNat.mp (allDigits last (by simp))
    have nine : '9'.toNat = 57 := rfl
    have one : digitsValue [last] = last.toNat - 48 := by simp [digitsValue, digitValue]
    rw [digitsValue_append, one, List.length_append, List.length_singleton, Nat.pow_succ]
    omega

theorem isDigit_decimalDigits : ∀ c ∈ decimalDigits value, c.isDigit :=
  fun _ among => Nat.isDigit_of_mem_toDigits (by decide) (by decide) among

theorem decimalDigits_ne_nil (value : Nat) : decimalDigits value ≠ [] :=
  Nat.toDigits_ne_nil

theorem isDigit_zeros (count : Nat) : ∀ c ∈ List.replicate count '0', c.isDigit := by
  intro c among
  rw [List.eq_of_mem_replicate among]
  rfl

theorem isDigit_paddedDigits : ∀ c ∈ paddedDigits width value, c.isDigit :=
  List.forall_mem_append.mpr ⟨isDigit_zeros _, isDigit_decimalDigits⟩

theorem paddedDigits_ne_nil (width value : Nat) : paddedDigits width value ≠ [] :=
  List.append_ne_nil_of_right_ne_nil _ (decimalDigits_ne_nil value)

theorem length_decimalDigits_le (positive : 0 < width) (small : value < 10 ^ width) :
    (decimalDigits value).length ≤ width :=
  (Nat.length_toDigits_le_iff (by decide) positive).mpr small

theorem length_paddedDigits (positive : 0 < width) (small : value < 10 ^ width) :
    (paddedDigits width value).length = width := by
  have := length_decimalDigits_le positive small
  rw [paddedDigits, List.length_append, List.length_replicate]
  omega

theorem decimalDigits_of_lt {value : Nat} (small : value < 10) :
    decimalDigits value = [Nat.digitChar value] :=
  Nat.toDigits_of_lt_base small

/-- The last digit stands alone, behind the others filled up to one place less. -/
theorem paddedDigits_succ {width : Nat} (positive : 0 < width) (value : Nat) :
    paddedDigits (width + 1) value =
      paddedDigits width (value / 10) ++ decimalDigits (value % 10) := by
  rw [decimalDigits_of_lt (Nat.mod_lt value (by decide))]
  by_cases small : value < 10
  · have front : List.replicate width '0' = List.replicate (width - 1) '0' ++ ['0'] := by
      rw [← List.replicate_succ', Nat.sub_add_cancel positive]
    have first : decimalDigits 0 = ['0'] := rfl
    rw [paddedDigits, paddedDigits, decimalDigits_of_lt small, Nat.div_eq_of_lt small,
      Nat.mod_eq_of_lt small, first]
    simp [front]
  · have last : decimalDigits value = decimalDigits (value / 10) ++ [Nat.digitChar (value % 10)] :=
      Nat.toDigits_of_base_le (by decide) (Nat.le_of_not_lt small)
    rw [paddedDigits, paddedDigits, last, List.length_append, List.length_singleton,
      Nat.add_sub_add_right, List.append_assoc]

theorem paddedDigits_one (value : Nat) : paddedDigits 1 value = decimalDigits value := by
  have some_digits := List.length_pos_iff.mpr (decimalDigits_ne_nil value)
  rw [paddedDigits, Nat.sub_eq_zero_of_le some_digits]
  rfl

/-- Without leading zeros only the number zero begins with one. -/
theorem eq_nil_of_leading_zero {rest : List Char} (leading : decimalDigits value = '0' :: rest) :
    rest = [] := by
  by_contra longer
  have allDigits : ∀ c ∈ rest, c.isDigit := by
    intro c among
    exact isDigit_decimalDigits c (leading ▸ List.mem_cons_of_mem _ among)
  have same : digitsValue rest = value := by
    rw [← digitsValue_decimalDigits value, leading]
    rfl
  have short := length_decimalDigits_le (List.length_pos_iff.mpr longer)
    (same ▸ digitsValue_lt allDigits)
  rw [leading, List.length_cons] at short
  omega

theorem head?_decimalDigits (nonzero : value ≠ 0) : (decimalDigits value).head? ≠ some '0' := by
  intro leading
  obtain ⟨rest, digits⟩ := List.head?_eq_some_iff.mp leading
  apply nonzero
  rw [← digitsValue_decimalDigits value, digits, eq_nil_of_leading_zero digits]
  rfl

/-! A run of digits at the front of a text. -/

theorem takeWhile_digits (allDigits : ∀ c ∈ digits, c.isDigit) (stops : StopsDigits rest) :
    (digits ++ rest).takeWhile Char.isDigit = digits := by
  rw [List.takeWhile_append_of_pos allDigits]
  cases rest with
  | nil => simp
  | cons c rest => simp [stops c rfl]

theorem dropWhile_digits (allDigits : ∀ c ∈ digits, c.isDigit) (stops : StopsDigits rest) :
    (digits ++ rest).dropWhile Char.isDigit = rest := by
  rw [List.dropWhile_append_of_pos allDigits]
  cases rest with
  | nil => simp
  | cons c rest => simp [stops c rfl]

/-- A number ends where its digits do, or after as many of them as may be read. -/
theorem takeNumber_digits (allDigits : ∀ c ∈ digits, c.isDigit) (nonempty : digits ≠ [])
    (ends : digits.length = most ∨ digits.length ≤ most ∧ StopsDigits rest) :
    takeNumber most (digits ++ rest) = some (digitsValue digits, rest) := by
  have run : ((digits ++ rest).take most).takeWhile Char.isDigit = digits := by
    rcases ends with rfl | ⟨short, stops⟩
    · rw [List.take_left', List.takeWhile_eq_self_iff.mpr allDigits]
      rfl
    · rw [List.take_append, List.take_of_length_le short]
      apply takeWhile_digits allDigits
      intro c first
      cases rest with
      | nil => simp at first
      | cons d rest =>
        cases count : most - digits.length with
        | zero => simp [count] at first
        | succ more =>
          rw [count, List.take_succ_cons] at first
          exact stops c first
  unfold takeNumber
  rw [run]
  cases digits with
  | nil => exact absurd rfl nonempty
  | cons c digits => simp

end MonthlyForecast.Text
