import Mathlib.Algebra.Order.Field.Power
import Mathlib.Data.Rat.Cast.Order
import Mathlib.Tactic.FieldSimp
import Mathlib.Tactic.Positivity
import Mathlib.Tactic.Ring
import MonthlyForecast.Decimal.Shortest

/-! The numbers that decimals and magnitudes denote, and between which numbers a double is the
nearest. Comparisons in natural numbers are comparisons of these numbers, so whether a double
holds for a decimal does not depend on how the decimal is written. The shortest decimal of a
double is one that the double holds for. -/
namespace MonthlyForecast.Decimal

/-- The number that a decimal denotes. -/
def Scaled.value (d : Scaled) : ℚ :=
  d.digits * 10 ^ d.exponent

def Magnitude.value (m : Magnitude) : ℚ :=
  m.significand * 2 ^ m.exponent

/-- The midpoint to the double below, and that to the double above. -/
def Magnitude.low (m : Magnitude) : ℚ :=
  (if m.narrowBelow then 4 * m.significand - 1 else 4 * m.significand - 2 : ℕ) *
    2 ^ (m.exponent - 2)

def Magnitude.high (m : Magnitude) : ℚ :=
  (4 * m.significand + 2 : ℕ) * 2 ^ (m.exponent - 2)

/-- The number lies between the midpoints, or on one of them if the significand is even. -/
def Magnitude.Holds (m : Magnitude) (number : ℚ) : Prop :=
  (m.low < number ∨ m.significand % 2 = 0 ∧ number = m.low) ∧
    (number < m.high ∨ m.significand % 2 = 0 ∧ number = m.high)

variable {m : Magnitude} {d other : Scaled} {a n : ℕ} {i j : ℤ}

theorem zpow_mul_pow_toNat_neg {base : ℚ} (nonzero : base ≠ 0) (i : ℤ) :
    base ^ i * base ^ (-i).toNat = base ^ i.toNat := by
  rw [← zpow_natCast, ← zpow_natCast, ← zpow_add₀ nonzero]
  congr 1
  omega

/-- Both sides of a comparison are the numbers, taken the same positive number of times. -/
theorem compareScaled_sides (a : ℕ) (i : ℤ) (n : ℕ) (j : ℤ) :
    ∃ factor : ℚ, 0 < factor ∧
      ((a * Nat.pow 10 i.toNat * Nat.pow 2 (-j).toNat : ℕ) : ℚ) = (a * 10 ^ i) * factor ∧
      ((n * Nat.pow 2 j.toNat * Nat.pow 10 (-i).toNat : ℕ) : ℚ) = (n * 2 ^ j) * factor := by
  have tens := zpow_mul_pow_toNat_neg (by norm_num : (10 : ℚ) ≠ 0) i
  have twos := zpow_mul_pow_toNat_neg (by norm_num : (2 : ℚ) ≠ 0) j
  refine ⟨10 ^ (-i).toNat * 2 ^ (-j).toNat, by positivity, ?_, ?_⟩
  · simp only [Nat.pow_eq]
    push_cast
    rw [← tens]
    ring
  · simp only [Nat.pow_eq]
    push_cast
    rw [← twos]
    ring

theorem compareScaled_eq_lt_iff : compareScaled a i n j = .lt ↔ (a * 10 ^ i : ℚ) < n * 2 ^ j := by
  obtain ⟨factor, positive, left, right⟩ := compareScaled_sides a i n j
  rw [compareScaled, Nat.compare_eq_lt, ← @Nat.cast_lt ℚ, left, right,
    mul_lt_mul_iff_left₀ positive]

theorem compareScaled_eq_gt_iff : compareScaled a i n j = .gt ↔ (n * 2 ^ j : ℚ) < a * 10 ^ i := by
  obtain ⟨factor, positive, left, right⟩ := compareScaled_sides a i n j
  rw [compareScaled, Nat.compare_eq_gt, ← @Nat.cast_lt ℚ, left, right,
    mul_lt_mul_iff_left₀ positive]

theorem compareScaled_eq_eq_iff : compareScaled a i n j = .eq ↔ (a * 10 ^ i : ℚ) = n * 2 ^ j := by
  obtain ⟨factor, positive, left, right⟩ := compareScaled_sides a i n j
  rw [compareScaled, Nat.compare_eq_eq, ← @Nat.cast_inj ℚ, left, right,
    mul_left_inj' positive.ne']

theorem roundsFrom_iff : m.roundsFrom d = true ↔ m.Holds d.value := by
  unfold Magnitude.roundsFrom Magnitude.Holds Magnitude.low Magnitude.high Scaled.value
  simp only [Bool.and_eq_true, Bool.or_eq_true, beq_iff_eq, compareScaled_eq_lt_iff,
    compareScaled_eq_gt_iff, compareScaled_eq_eq_iff]

/-! The shortest decimal. -/

theorem exact_value (m : Magnitude) : m.exact.value = m.value := by
  unfold Magnitude.exact Scaled.value Magnitude.value
  obtain ⟨k, whole | below⟩ := Int.eq_nat_or_neg m.exponent
  · rw [whole]
    simp
  · rw [below]
    have tens : (10 : ℚ) ^ k = 2 ^ k * 5 ^ k := by rw [← mul_pow]; norm_num
    have smaller : min (-(k : ℤ)) 0 = -k := by omega
    simp only [smaller, neg_neg, Int.toNat_natCast, zpow_neg, zpow_natCast, tens, Nat.pow_eq]
    push_cast
    simp
    field_simp

theorem stripZeros_value (fuel : ℕ) (d : Scaled) : (d.stripZeros fuel).value = d.value := by
  induction fuel generalizing d with
  | zero => rfl
  | succ fuel ih =>
    unfold Scaled.stripZeros
    split
    · rename_i ends
      rw [ih]
      have digits : d.digits = 10 * (d.digits / 10) := by omega
      unfold Scaled.value
      rw [zpow_add_one₀ (by norm_num)]
      nth_rewrite 2 [digits]
      push_cast
      ring
    · rfl

theorem holds_value (positive : m.significand ≠ 0) : m.Holds m.value := by
  have grid : (2 : ℚ) ^ m.exponent = 4 * 2 ^ (m.exponent - 2) := by
    rw [zpow_sub₀ (by norm_num)]
    norm_num
    ring
  have unit : (0 : ℚ) < 2 ^ (m.exponent - 2) := by positivity
  unfold Magnitude.Holds Magnitude.low Magnitude.high Magnitude.value
  rw [grid, ← mul_assoc]
  refine ⟨Or.inl (mul_lt_mul_of_pos_right ?_ unit), Or.inl (mul_lt_mul_of_pos_right ?_ unit)⟩
  · have below : (if m.narrowBelow then 4 * m.significand - 1 else 4 * m.significand - 2) <
        m.significand * 4 := by
      split <;> omega
    exact_mod_cast below
  · have above : m.significand * 4 < 4 * m.significand + 2 := by omega
    exact_mod_cast above

theorem holds_onGrid {exponent : ℤ} (found : m.onGrid? exponent = some d) : m.Holds d.value := by
  unfold Magnitude.onGrid? at found
  rw [← roundsFrom_iff]
  simp only at found
  split at found
  · rename_i below above
    cases found
    unfold Magnitude.nearer
    split
    · exact above
    · exact below
    · split
      · exact below
      · exact above
  · cases found
    assumption
  · cases found
    assumption
  · contradiction

/-- The shortest decimal lies where the double is the nearest. -/
theorem holds_shortest (m : Magnitude) : m.Holds m.shortest.value := by
  unfold Magnitude.shortest
  split
  · rename_i zero
    unfold Magnitude.Holds Magnitude.low Magnitude.high Scaled.value
    have unit : (0 : ℚ) < 2 ^ (m.exponent - 2) := by positivity
    simp only [zero]
    refine ⟨Or.inr ⟨trivial, by simp⟩, Or.inl ?_⟩
    simpa using unit
  · rename_i positive
    simp only [stripZeros_value]
    cases found : (List.range 17).findSome? fun (more : Nat) =>
        m.onGrid? (m.decimalSize - 1 - more) with
    | none => 
      rw [Option.getD_none, exact_value]
      exact holds_value positive
    | some d =>
      obtain ⟨_, _, _, _, here, _⟩ := List.findSome?_eq_some_iff.mp found
      exact holds_onGrid here

end MonthlyForecast.Decimal
