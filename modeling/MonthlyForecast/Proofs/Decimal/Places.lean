import Mathlib.Data.Rat.Floor
import MonthlyForecast.Decimal.Fixed
import MonthlyForecast.Proofs.Decimal.Double
import MonthlyForecast.Proofs.Text.Digits

/-! Doubles with three places. What is to be written is told from a double as a number: its sign,
and the count of thousandths nearest to its exact value. It is written from the bits instead, by
a division of natural numbers and a point among digits, which comes to the same text. -/
namespace MonthlyForecast.Decimal
open Float.Model Text

/-- The natural number nearest to a rational one; of two that are as near the even one. -/
def nearestEven (number : ℚ) : ℕ :=
  let below := ⌊number⌋₊
  if number - below < 1 / 2 ∨ number - below = 1 / 2 ∧ Even below then below else below + 1

def minusSign : UnpackedFloat.Sign → String
  | .negative => "-"
  | .positive => ""

/-- A whole number, a point and three digits. -/
def thousandthsText (count : ℕ) : String :=
  toString (count / 1000) ++ "." ++ toString (count / 100 % 10) ++ toString (count / 10 % 10) ++
    toString (count % 10)

/-- A double with three places. The sign is kept, also where nothing but zeros are left. -/
def placesText (x : Float) : String :=
  match x.toModel.unpack with
  | .notANumber => "NaN"
  | .infinity sign => minusSign sign ++ "inf"
  | .zero sign => minusSign sign ++ "0.000"
  | .finite sign significand exponent _ =>
    minusSign sign ++ thousandthsText (nearestEven (significand * 2 ^ exponent * 1000))

/-! Rounding. -/

/-- A quotient is rounded to the natural number nearest to it. -/
theorem roundDiv_eq_nearestEven (numerator : ℕ) {denominator : ℕ} (positive : 0 < denominator) :
    roundDiv numerator denominator = nearestEven (numerator / denominator) := by
  have scale : (0 : ℚ) < denominator := Nat.cast_pos.mpr positive
  have rest : (numerator / denominator : ℚ) - (numerator / denominator : ℕ) =
      (numerator % denominator : ℕ) / denominator := by
    rw [eq_div_iff scale.ne', sub_mul, div_mul_cancel₀ _ scale.ne', sub_eq_iff_eq_add',
      ← Nat.cast_mul, ← Nat.cast_add, Nat.div_add_mod']
  have less : (numerator % denominator : ℕ) / (denominator : ℚ) < 1 / 2 ↔
      2 * (numerator % denominator) < denominator := by
    rw [div_lt_div_iff₀ scale two_pos, one_mul, mul_comm, ← Nat.cast_ofNat, ← Nat.cast_mul,
      Nat.cast_lt]
  have half : (numerator % denominator : ℕ) / (denominator : ℚ) = 1 / 2 ↔
      2 * (numerator % denominator) = denominator := by
    rw [div_eq_div_iff scale.ne' two_ne_zero, one_mul, mul_comm, ← Nat.cast_ofNat, ← Nat.cast_mul,
      Nat.cast_inj]
  simp only [roundDiv, nearestEven, Nat.floor_div_eq_div, rest, less, half, Nat.even_iff]
  split
  · rename_i below
    rw [if_pos (Or.inl (Nat.compare_eq_lt.mp below))]
  · rename_i above
    have above := Nat.compare_eq_gt.mp above
    rw [if_neg (by omega)]
  · rename_i tie
    have tie := Nat.compare_eq_eq.mp tie
    split
    · rename_i even
      rw [if_pos (Or.inr ⟨tie, even⟩)]
    · rw [if_neg (by omega)]

theorem roundToPlaces_eq (m : Magnitude) (places : ℕ) :
    m.roundToPlaces places = nearestEven (m.significand * 2 ^ m.exponent * 10 ^ places) := by
  have positive : 0 < Nat.pow 2 (-m.exponent).toNat := Nat.two_pow_pos _
  have taken := zpow_mul_pow_toNat_neg (by norm_num : (2 : ℚ) ≠ 0) m.exponent
  have quotient : ((m.significand * Nat.pow 2 m.exponent.toNat * Nat.pow 10 places : ℕ) /
      (Nat.pow 2 (-m.exponent).toNat : ℕ) : ℚ) = m.significand * 2 ^ m.exponent * 10 ^ places := by
    simp only [Nat.pow_eq]
    push_cast
    rw [← taken]
    field_simp
  rw [Magnitude.roundToPlaces, roundDiv_eq_nearestEven _ positive, quotient]

/-! The digits around the point. -/

theorem pointed_append {places units : ℕ} {front back : List Char}
    (digits : paddedDigits (places + 1) units = front ++ back) (length : back.length = places) :
    pointed places units = front ++ '.' :: back := by
  have before : (front ++ back).length - places = front.length := by simp [length]
  simp only [pointed, digits, before, List.take_left, List.drop_left]

theorem pointed_three (count : ℕ) : String.ofList (pointed 3 count) = thousandthsText count := by
  have hundreds : count / 10 / 10 = count / 100 := Nat.div_div_eq_div_mul ..
  have thousands : count / 100 / 10 = count / 1000 := Nat.div_div_eq_div_mul ..
  have digits : paddedDigits (3 + 1) count = decimalDigits (count / 1000) ++
      (decimalDigits (count / 100 % 10) ++ decimalDigits (count / 10 % 10) ++
        decimalDigits (count % 10)) := by
    rw [paddedDigits_succ (by decide), paddedDigits_succ (by decide), paddedDigits_succ (by decide),
      paddedDigits_one, hundreds, thousands]
    simp only [List.append_assoc]
  have single (value : ℕ) : (decimalDigits (value % 10)).length = 1 := by
    rw [decimalDigits_of_lt (Nat.mod_lt value (by decide)), List.length_singleton]
  rw [pointed_append digits (by simp only [List.length_append, single])]
  simp [thousandthsText, decimalDigits, String.ext_iff]

/-! The text. -/

variable {x : Float}

theorem minusSign_signOf (x : Float) :
    minusSign (signOf x) = String.ofList (if isNegative x then ['-'] else []) := by
  unfold signOf
  split <;> rfl

theorem fixed_of_finite (finite : x.isFinite = true) (places : ℕ) : fixed places x =
    minusSign (signOf x) ++ String.ofList (pointed places
      (nearestEven ((magnitude x).significand * 2 ^ (magnitude x).exponent * 10 ^ places))) := by
  have number : x.isNaN = false := by
    rw [isNaN_eq_unpack]
    rcases unpack_of_finite finite with ⟨zero, _⟩ | ⟨_, other⟩
    · rw [zero]
      rfl
    · rw [other]
      rfl
  rw [fixed, number, if_neg Bool.false_ne_true, if_pos finite, roundToPlaces_eq, minusSign_signOf,
    String.ofList_append]

theorem fixed_of_infinite (infinite : x.toModel.unpack = .infinity (signOf x)) (places : ℕ) :
    fixed places x = minusSign (signOf x) ++ "inf" := by
  have number : x.isNaN = false := by
    rw [isNaN_eq_unpack, infinite]
    rfl
  have unbounded : x.isFinite = false := by
    rw [isFinite_eq_unpack, infinite]
    rfl
  rw [fixed, number, unbounded, minusSign_signOf]
  exact String.ofList_append

theorem fixed_of_notANumber (other : x.toModel.unpack = .notANumber) (places : ℕ) :
    fixed places x = "NaN" := by
  have nan : x.isNaN = true := by
    rw [isNaN_eq_unpack, other]
    rfl
  rw [fixed, if_pos nan]

/-- Three places are those of the nearest count of thousandths. -/
theorem fixed_three (x : Float) : fixed 3 x = placesText x := by
  cases finite : x.isFinite with
  | true =>
    rw [fixed_of_finite finite, pointed_three, placesText]
    rcases unpack_of_finite finite with ⟨zero, significand⟩ | ⟨_, other⟩
    · have none : nearestEven ((0 : ℕ) * 2 ^ (magnitude x).exponent * 10 ^ 3) = 0 := by
        simp [nearestEven]
      rw [zero, significand, none]
      rfl
    · rw [other]
      norm_num
  | false =>
    rw [placesText]
    rcases unpack_of_not_finite finite with other | infinite
    · rw [other, fixed_of_notANumber other]
    · rw [infinite, fixed_of_infinite infinite]

end MonthlyForecast.Decimal
