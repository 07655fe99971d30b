import Mathlib.Data.Nat.Log
import Mathlib.Tactic.Linarith
import MonthlyForecast.Decimal.Nearest
import MonthlyForecast.Proofs.Decimal.Value

/-! The nearest double. The doubles without sign stand in blocks with one spacing each. A number
that a double holds for lies within half a spacing of it, or within a quarter below the start of
a block, and rounding in the number's own block gives that double. -/
namespace MonthlyForecast.Decimal

variable {m : Magnitude} {d : Scaled}

/-- A quotient within half a unit of a number is rounded to it, on the edge if it is even. -/
theorem roundDiv_eq {numerator denominator nearest : ℕ} (positive : 0 < denominator)
    (low : 2 * (nearest * denominator) ≤ 2 * numerator + denominator)
    (high : 2 * numerator ≤ 2 * (nearest * denominator) + denominator)
    (even : 2 * (nearest * denominator) = 2 * numerator + denominator ∨
      2 * numerator = 2 * (nearest * denominator) + denominator → nearest % 2 = 0) :
    roundDiv numerator denominator = nearest := by
  have parts : numerator / denominator * denominator + numerator % denominator = numerator :=
    Nat.div_add_mod' numerator denominator
  have small := Nat.mod_lt numerator positive
  have near : nearest = numerator / denominator ∨ nearest = numerator / denominator + 1 := by
    have atLeast : numerator / denominator ≤ nearest := by
      by_contra less
      have := Nat.mul_le_mul_right denominator (Nat.lt_of_not_le less)
      rw [Nat.succ_mul] at this
      omega
    have atMost : nearest ≤ numerator / denominator + 1 := by
      by_contra more
      have := Nat.mul_le_mul_right denominator (Nat.lt_of_not_le more)
      rw [Nat.succ_mul, Nat.succ_mul] at this
      omega
    omega
  unfold roundDiv
  simp only
  rcases near with rfl | rfl
  · split
    · rfl
    · rename_i above
      have above := Nat.compare_eq_gt.mp above
      omega
    · rename_i tie
      have tie := Nat.compare_eq_eq.mp tie
      rw [if_pos (even (by omega))]
  · rw [Nat.succ_mul (numerator / denominator)] at low high even
    split
    · rename_i below
      have below := Nat.compare_eq_lt.mp below
      omega
    · rfl
    · rename_i tie
      have tie := Nat.compare_eq_eq.mp tie
      have odd := even (by omega)
      rw [if_neg (by omega)]

/-! The nearest double. -/

/-- The magnitude is that of the double with a number. The doubles come in blocks of
`2 ^ width`, each but the first with twice the spacing of the one before. -/
structure Magnitude.Numbered (m : Magnitude) (width depth doublings number : ℕ) : Prop where
  exponent_eq : m.exponent = doublings - depth
  number_eq : number = doublings * Nat.pow 2 width + m.significand
  inBlock : m.significand < Nat.pow 2 (width + 1)
  normal : doublings = 0 ∨ Nat.pow 2 width ≤ m.significand
  narrow_iff : m.narrowBelow = true ↔ m.significand = Nat.pow 2 width ∧ 0 < doublings

/-- The quotient lies where the magnitude's double is the nearest, in quarters of a spacing. -/
structure Magnitude.Covers (m : Magnitude) (units spacing : ℕ) : Prop where
  low : (if m.narrowBelow then 4 * m.significand - 1 else 4 * m.significand - 2) * spacing <
      4 * units ∨ m.significand % 2 = 0 ∧ 4 * units =
        (if m.narrowBelow then 4 * m.significand - 1 else 4 * m.significand - 2) * spacing
  high : 4 * units < (4 * m.significand + 2) * spacing ∨
    m.significand % 2 = 0 ∧ 4 * units = (4 * m.significand + 2) * spacing

theorem covers_of_holds {numerator denominator doublings depth : ℕ} (positive : 0 < denominator)
    (exponent_eq : m.exponent = doublings - depth)
    (holds : m.Holds (numerator / denominator : ℚ)) :
    m.Covers (numerator * Nat.pow 2 depth) (denominator * Nat.pow 2 doublings) := by
  have denominators : (denominator : ℚ) ≠ 0 := by exact_mod_cast positive.ne'
  -- Both sides over one denominator.
  have scale : (0 : ℚ) < 4 * 2 ^ depth * denominator := by positivity
  have number : (numerator / denominator : ℚ) =
      ((4 * (numerator * Nat.pow 2 depth) : ℕ) : ℚ) / (4 * 2 ^ depth * denominator) := by
    simp only [Nat.pow_eq]
    push_cast
    field_simp
  have midpoint : ∀ quarters : ℕ, (quarters : ℚ) * 2 ^ (m.exponent - 2) =
      ((quarters * (denominator * Nat.pow 2 doublings) : ℕ) : ℚ) /
        (4 * 2 ^ depth * denominator) := by
    intro quarters
    have shift : m.exponent - 2 = doublings - ((depth + 2 : ℕ) : ℤ) := by omega
    rw [shift, zpow_sub₀ (by norm_num), zpow_natCast, zpow_natCast, pow_add]
    simp only [Nat.pow_eq]
    push_cast
    field_simp
    norm_num
  unfold Magnitude.Holds Magnitude.low Magnitude.high at holds
  simp only [number, midpoint, div_lt_div_iff_of_pos_right scale, div_left_inj' scale.ne',
    Nat.cast_lt, Nat.cast_inj] at holds
  exact ⟨holds.1, holds.2⟩

/-- The block of a quotient, from its size. -/
theorem doublings_eq {units denominator width doublings : ℕ} (positive : 0 < denominator)
    (low : doublings = 0 ∨ Nat.pow 2 width * (denominator * Nat.pow 2 doublings) ≤ units)
    (high : units < Nat.pow 2 (width + 1) * (denominator * Nat.pow 2 doublings)) :
    (units / denominator).log2 - width = doublings := by
  have below : units / denominator < 2 ^ (width + 1 + doublings) := by
    rw [Nat.div_lt_iff_lt_mul positive, pow_add]
    calc units < Nat.pow 2 (width + 1) * (denominator * Nat.pow 2 doublings) := high
      _ = 2 ^ (width + 1) * 2 ^ doublings * denominator := by simp only [Nat.pow_eq]; ring
  rw [Nat.log2_eq_log_two]
  rcases low with rfl | low
  · have := Nat.log_lt_of_lt_pow' (Nat.succ_ne_zero width) below
    omega
  · have above : 2 ^ (width + doublings) ≤ units / denominator := by
      rw [Nat.le_div_iff_mul_le positive, pow_add]
      calc 2 ^ width * 2 ^ doublings * denominator
          = Nat.pow 2 width * (denominator * Nat.pow 2 doublings) := by simp only [Nat.pow_eq]; ring
        _ ≤ units := low
    have exact : Nat.log 2 (units / denominator) = width + doublings :=
      Nat.log_eq_of_pow_le_of_lt_pow above (by rwa [Nat.add_right_comm])
    omega

/-- The lower midpoint is at most half a spacing below. -/
theorem le_low_add (s spacing quarters : ℕ) :
    4 * (s * spacing) ≤ (4 * s - quarters) * spacing + quarters * spacing := by
  rw [← Nat.mul_assoc, ← Nat.add_mul]
  exact Nat.mul_le_mul_right spacing (by omega)

/-- In its own block a quotient is rounded to the significand. -/
theorem roundDiv_of_covers {units spacing : ℕ} (spaced : 0 < spacing)
    (covers : m.Covers units spacing)
    (above : m.narrowBelow = true → m.significand * spacing ≤ units) :
    roundDiv units spacing = m.significand := by
  obtain ⟨low, high⟩ := covers
  rw [Nat.add_mul, Nat.mul_assoc] at high
  cases narrow : m.narrowBelow with
  | true =>
    have above := above narrow
    apply roundDiv_eq spaced <;> omega
  | false =>
    simp only [narrow, Bool.false_eq_true, if_false, Nat.sub_mul, Nat.mul_assoc] at low
    apply roundDiv_eq spaced <;> omega

/-- Below its block, where the spacing is half as wide, a quotient is rounded to the end. -/
theorem roundDiv_of_carried {units spacing : ℕ} (spaced : 0 < spacing)
    (covers : m.Covers units (2 * spacing)) (narrow : m.narrowBelow = true)
    (below : units < m.significand * (2 * spacing)) :
    roundDiv units spacing = 2 * m.significand := by
  have low := covers.low
  simp only [narrow, if_true, Nat.sub_mul, Nat.mul_assoc] at low
  rw [Nat.mul_left_comm m.significand 2 spacing] at below low
  apply roundDiv_eq spaced <;> rw [Nat.mul_assoc] <;> omega

/-- A midpoint below the start of a block lies well within the block before. -/
theorem le_units_of_carried {units spacing : ℕ} (covers : m.Covers units (2 * spacing))
    (narrow : m.narrowBelow = true) (positive : 0 < m.significand) :
    m.significand * spacing ≤ units := by
  have low := covers.low
  have quarter := le_low_add m.significand (2 * spacing) 1
  have one := Nat.mul_le_mul_right spacing positive
  rw [if_pos narrow] at low
  rw [Nat.mul_left_comm m.significand 2 spacing] at quarter
  omega

/-- Behind the start of a block the midpoints lie within the block. -/
theorem le_units_of_covers {units spacing start : ℕ} (covers : m.Covers units spacing)
    (wide : m.narrowBelow = false) (inner : start < m.significand) :
    start * spacing ≤ units := by
  have low := covers.low
  have quarter := le_low_add m.significand spacing 2
  have above := Nat.mul_le_mul_right spacing (Nat.succ_le_of_lt inner)
  rw [wide, if_neg Bool.false_ne_true] at low
  rw [Nat.succ_mul start] at above
  omega

theorem units_lt_of_covers {units spacing stop : ℕ} (spaced : 0 < spacing)
    (covers : m.Covers units spacing) (inBlock : m.significand < stop) :
    units < stop * spacing := by
  have high := covers.high
  have above := Nat.mul_le_mul_right spacing (Nat.succ_le_of_lt inBlock)
  rw [Nat.add_mul, Nat.mul_assoc] at high
  rw [Nat.succ_mul m.significand] at above
  omega

/-- A quotient is rounded to the number of the double that covers it. -/
theorem number_of_covers {units denominator width depth doublings number : ℕ}
    (positive : 0 < denominator) (numbered : m.Numbered width depth doublings number)
    (covers : m.Covers units (denominator * Nat.pow 2 doublings)) :
    ((units / denominator).log2 - width) * Nat.pow 2 width +
      roundDiv units (denominator * Nat.pow 2 ((units / denominator).log2 - width)) = number := by
  obtain ⟨_, rfl, inBlock, normal, narrow_iff⟩ := numbered
  have spaced : ∀ blocks, 0 < denominator * Nat.pow 2 blocks :=
    fun blocks => Nat.mul_pos positive (Nat.two_pow_pos blocks)
  by_cases carried : m.narrowBelow = true ∧
      units < m.significand * (denominator * Nat.pow 2 doublings)
  · -- Rounded up to the end of the block below.
    obtain ⟨narrow, below⟩ := carried
    obtain ⟨first, later⟩ := narrow_iff.mp narrow
    obtain ⟨fewer, rfl⟩ := Nat.exists_eq_add_one_of_ne_zero later.ne'
    have halved : denominator * Nat.pow 2 (fewer + 1) = 2 * (denominator * Nat.pow 2 fewer) := by
      simp only [Nat.pow_eq, pow_succ]
      ring
    have doubled : Nat.pow 2 (width + 1) = Nat.pow 2 width * 2 := rfl
    rw [halved] at covers below
    have low := le_units_of_carried covers narrow (first ▸ Nat.two_pow_pos width)
    have block := doublings_eq positive (Or.inr (first ▸ low)) (by
      rwa [doubled, Nat.mul_assoc, ← first])
    rw [block, roundDiv_of_carried (spaced fewer) covers narrow below, first]
    ring
  · have standing : m.narrowBelow = true →
        m.significand * (denominator * Nat.pow 2 doublings) ≤ units :=
      fun narrow => Nat.le_of_not_lt fun below => carried ⟨narrow, below⟩
    have low : doublings = 0 ∨
        Nat.pow 2 width * (denominator * Nat.pow 2 doublings) ≤ units := by
      by_cases start : doublings = 0
      · exact Or.inl start
      have normal := normal.resolve_left start
      cases narrow : m.narrowBelow with
      | true => exact Or.inr ((narrow_iff.mp narrow).1 ▸ standing narrow)
      | false =>
        have inner : Nat.pow 2 width ≠ m.significand := by
          intro first
          rw [narrow_iff.mpr ⟨first.symm, Nat.pos_of_ne_zero start⟩] at narrow
          contradiction
        exact Or.inr (le_units_of_covers covers narrow (lt_of_le_of_ne normal inner))
    have block := doublings_eq positive low (units_lt_of_covers (spaced doublings) covers inBlock)
    rw [block, roundDiv_of_covers (spaced doublings) covers standing]

/-- The double nearest to a quotient for which it holds. -/
theorem nearestToQuotient_eq {numerator denominator doublings number : ℕ}
    (positive : 0 < denominator) (numbered : m.Numbered 52 1074 doublings number)
    (holds : m.Holds (numerator / denominator : ℚ)) :
    nearestToQuotient numerator denominator = number := by
  have covers := covers_of_holds positive numbered.exponent_eq holds
  revert covers numbered
  delta nearestToQuotient
  -- A power this large is not to be computed.
  generalize 1074 = depth
  intro numbered covers
  exact number_of_covers positive numbered covers

/-! The decades that are not computed. -/

theorem two_pow_le_ten_pow (places : ℕ) : (2 : ℚ) ^ (3 * places) ≤ 10 ^ places := by
  rw [pow_mul]
  gcongr
  norm_num

/-- Of the doubles only zero holds for numbers below half the smallest spacing. -/
theorem number_eq_zero {depth doublings number width : ℕ} {x : ℚ}
    (numbered : m.Numbered width depth doublings number) (holds : m.Holds x)
    (small : x < 2 ^ (-(depth : ℤ) - 1)) : number = 0 := by
  have below : m.low < 2 ^ (-(depth : ℤ) - 1) := by
    rcases holds.1 with low | ⟨_, same⟩
    · exact low.trans small
    · exact same ▸ small
  have zero : m.significand = 0 := by
    by_contra positive
    have enough : 2 ≤ (if m.narrowBelow then 4 * m.significand - 1 else 4 * m.significand - 2) := by
      split <;> omega
    have spacing : (2 : ℚ) ^ (-(depth : ℤ) - 2) ≤ 2 ^ (m.exponent - 2) := by
      apply zpow_le_zpow_right₀ (by norm_num)
      rw [numbered.exponent_eq]
      omega
    have : (2 : ℚ) ^ (-(depth : ℤ) - 1) ≤ m.low := by
      calc (2 : ℚ) ^ (-(depth : ℤ) - 1) = 2 * 2 ^ (-(depth : ℤ) - 2) := by
            rw [← zpow_one_add₀ (by norm_num)]
            congr 1
            omega
        _ ≤ m.low := by
            have enough := Nat.cast_le (α := ℚ) |>.mpr enough
            exact mul_le_mul enough spacing (by positivity) (Nat.cast_nonneg _)
    linarith
  have start : doublings = 0 :=
    numbered.normal.resolve_right (zero ▸ Nat.not_le_of_lt (Nat.two_pow_pos width))
  rw [numbered.number_eq, zero, start, Nat.zero_mul]

theorem value_lt_of_small (small : d.exponent + d.digits.log2 < -decadeLimit) :
    d.value < 2 ^ (-(1074 : ℕ) - 1 : ℤ) := by
  have digits : (d.digits : ℚ) < 2 * 10 ^ (d.digits.log2 : ℤ) := by
    have size : d.digits < 2 ^ (d.digits.log2 + 1) := Nat.lt_log2_self
    calc (d.digits : ℚ) < 2 ^ (d.digits.log2 + 1) := by exact_mod_cast size
      _ = 2 * 2 ^ d.digits.log2 := pow_succ' ..
      _ ≤ 2 * 10 ^ d.digits.log2 := by gcongr; norm_num
      _ = 2 * 10 ^ (d.digits.log2 : ℤ) := by rw [zpow_natCast]
  have decades : (10 : ℚ) ^ (-(401 : ℕ) : ℤ) ≤ 2 ^ (-((3 * 401 : ℕ) : ℤ)) := by
    rw [zpow_neg, zpow_neg, zpow_natCast, zpow_natCast]
    exact inv_anti₀ (by positivity) (two_pow_le_ten_pow 401)
  unfold decadeLimit at small
  calc d.value < 2 * 10 ^ (d.digits.log2 : ℤ) * 10 ^ d.exponent :=
        mul_lt_mul_of_pos_right digits (by positivity)
    _ = 2 * 10 ^ (d.digits.log2 + d.exponent : ℤ) := by
        rw [mul_assoc, ← zpow_add₀ (by norm_num)]
    _ ≤ 2 * 10 ^ (-(401 : ℕ) : ℤ) := by
        gcongr
        · norm_num
        · omega
    _ ≤ 2 * 2 ^ (-((3 * 401 : ℕ) : ℤ)) := by gcongr
    _ = 2 ^ (1 + -((3 * 401 : ℕ) : ℤ)) := (zpow_one_add₀ (by norm_num) _).symm
    _ ≤ 2 ^ (-(1074 : ℕ) - 1 : ℤ) := zpow_le_zpow_right₀ (by norm_num) (by omega)

theorem value_gt_of_large (digits : d.digits ≠ 0) (large : decadeLimit < d.exponent) :
    (2 : ℚ) ^ (1025 : ℤ) < d.value := by
  have one : (1 : ℚ) ≤ d.digits := by exact_mod_cast Nat.one_le_iff_ne_zero.mpr digits
  unfold decadeLimit at large
  calc (2 : ℚ) ^ (1025 : ℤ) < 2 ^ ((3 * 401 : ℕ) : ℤ) :=
        zpow_lt_zpow_right₀ (by norm_num) (by omega)
    _ ≤ 10 ^ ((401 : ℕ) : ℤ) := by
        rw [zpow_natCast, zpow_natCast]
        exact two_pow_le_ten_pow 401
    _ ≤ 10 ^ d.exponent := zpow_le_zpow_right₀ (by norm_num) (by omega)
    _ ≤ d.value := le_mul_of_one_le_left (by positivity) one

/-- No finite double holds for numbers so large. -/
theorem le_of_holds {doublings number : ℕ} {x : ℚ} (numbered : m.Numbered 52 1074 doublings number)
    (finite : number < infinityBits) (holds : m.Holds x) : x ≤ 2 ^ (1025 : ℤ) := by
  have atMost : x ≤ m.high := by
    rcases holds.2 with high | ⟨_, same⟩
    · exact high.le
    · exact same.le
  have block : doublings ≤ 2046 := by
    have width : Nat.pow 2 52 = 4503599627370496 := by decide
    rw [numbered.number_eq, width, infinityBits] at finite
    omega
  have quarters : 4 * m.significand + 2 ≤ 2 ^ 55 := by
    have inBlock : m.significand < 2 ^ 53 := numbered.inBlock
    omega
  calc x ≤ (4 * m.significand + 2 : ℕ) * 2 ^ (m.exponent - 2) := atMost
    _ ≤ (2 ^ 55 : ℕ) * 2 ^ (970 : ℤ) := by
        have exponent : m.exponent - 2 ≤ 970 := by
          rw [numbered.exponent_eq]
          omega
        gcongr
        norm_num
    _ = 2 ^ (1025 : ℤ) := by
        have fifty_five : ((2 ^ 55 : ℕ) : ℚ) = 2 ^ (55 : ℤ) := by norm_num
        rw [fifty_five, ← zpow_add₀ (by norm_num)]
        rfl

/-- The double nearest to a decimal is the one that holds for it. -/
theorem nearestBits_eq {doublings number : ℕ} (numbered : m.Numbered 52 1074 doublings number)
    (finite : number < infinityBits) (holds : m.Holds d.value) : d.nearestBits = number := by
  unfold Scaled.nearestBits
  split
  · rename_i small
    apply Eq.symm
    apply number_eq_zero numbered holds
    rcases small with zero | small
    · rw [Scaled.value, zero, Nat.cast_zero, zero_mul]
      positivity
    · exact value_lt_of_small small
  · rename_i sized
    obtain ⟨digits, _⟩ := not_or.mp sized
    split
    · rename_i large
      exact absurd (le_of_holds numbered finite holds) (not_le.mpr (value_gt_of_large digits large))
    · have quotient : d.value = ((d.digits * Nat.pow 10 d.exponent.toNat : ℕ) : ℚ) /
          (Nat.pow 10 (-d.exponent).toNat : ℕ) := by
        have tens := zpow_mul_pow_toNat_neg (by norm_num : (10 : ℚ) ≠ 0) d.exponent
        rw [eq_div_iff (by simp)]
        simp only [Nat.pow_eq]
        push_cast
        rw [Scaled.value, mul_assoc, tens]
      exact nearestToQuotient_eq (Nat.pow_pos (by decide)) numbered (quotient ▸ holds)

end MonthlyForecast.Decimal
