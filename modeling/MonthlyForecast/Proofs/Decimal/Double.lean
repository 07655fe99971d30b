import Mathlib
import MonthlyForecast.Proofs.Decimal.Nearest

/-! Finite doubles and their bits. The bits without the sign number the doubles from zero
upwards, and a double is finite exactly if its number is below that of infinity. So the double
nearest to a decimal that a finite double holds for is that double, with its sign, and the
shortest decimal of a double gives it back. -/
namespace MonthlyForecast.Decimal
open Float.Model

/-- The number of a double, counted from zero upwards without regard to its sign. -/
def numberOf (x : Float) : ℕ :=
  x.toBits.toNat % Nat.pow 2 63

variable {x : Float} {d : Scaled}

theorem sign_place : Nat.pow 2 63 = 9223372036854775808 := by
  decide

theorem isNegative_iff : isNegative x = true ↔ 9223372036854775808 ≤ x.toBits.toNat := by
  have bound := x.toBits.toNat_lt
  unfold isNegative
  rw [beq_iff_eq, ← UInt64.toNat_inj, UInt64.toNat_shiftRight]
  simp only [UInt64.reduceToNat, Nat.reduceMod, Nat.shiftRight_eq_div_pow]
  omega

/-- The bits of a double are its number and its sign. -/
theorem toBits_eq (x : Float) :
    x.toBits = (if isNegative x then signBit + numberOf x else numberOf x).toUInt64 := by
  have bound := x.toBits.toNat_lt
  rw [← UInt64.toNat_inj]
  unfold signBit numberOf
  rw [sign_place, Nat.toUInt64_eq, UInt64.toNat_ofNat']
  by_cases negative : isNegative x = true
  · have high := isNegative_iff.mp negative
    rw [if_pos negative]
    omega
  · have low := mt isNegative_iff.mpr negative
    rw [if_neg negative]
    omega

theorem magnitude_numbered (x : Float) :
    ∃ doublings, (magnitude x).Numbered 52 1074 doublings (numberOf x) := by
  have width : Nat.pow 2 52 = 4503599627370496 := by decide
  have block : Nat.pow 2 (52 + 1) = 9007199254740992 := by decide
  have biased : ((x.toBits >>> 52) &&& 0x7FF).toNat = x.toBits.toNat / 4503599627370496 % 2048 := by
    rw [UInt64.toNat_and, UInt64.toNat_shiftRight, Nat.shiftRight_eq_div_pow]
    exact Nat.and_two_pow_sub_one_eq_mod _ 11
  have fraction : (x.toBits &&& 0xFFFFFFFFFFFFF).toNat = x.toBits.toNat % 4503599627370496 := by
    rw [UInt64.toNat_and]
    exact Nat.and_two_pow_sub_one_eq_mod _ 52
  unfold magnitude numberOf
  simp only [biased, fraction, sign_place]
  generalize x.toBits.toNat = bits
  split
  · refine ⟨0, ⟨rfl, ?_, ?_, Or.inl rfl, ?_⟩⟩
    · simp only [width]
      omega
    · simp only [block]
      omega
    · simp
  · refine ⟨bits / 4503599627370496 % 2048 - 1, ⟨?_, ?_, ?_, ?_, ?_⟩⟩
    · simp only
      omega
    · simp only [width]
      omega
    · simp only [block, width]
      omega
    · exact Or.inr (Nat.le_add_right _ _)
    · simp only [Bool.and_eq_true, beq_iff_eq, decide_eq_true_eq]
      omega

theorem unpackExponent_eq_iff (word : UInt64) :
    @UnpackedFloat.unpackExponent Format.binary64 word.toBitVec = -1#11 ↔
      word.toNat / 4503599627370496 % 2048 = 2047 := by
  rw [UnpackedFloat.unpackExponent_def, ← BitVec.toNat_inj, BitVec.extractLsb'_toNat,
    Nat.shiftRight_eq_div_pow]
  rfl

/-- Bits are those of a finite double unless their exponent is the largest. -/
theorem isFinite_unpack_iff (word : UInt64) :
    (UnpackedFloat.unpack Format.binary64 word.toBitVec).isFinite = true ↔
      word.toNat / 4503599627370496 % 2048 ≠ 2047 := by
  rw [ne_eq, ← unpackExponent_eq_iff]
  unfold UnpackedFloat.unpack
  dsimp only
  split_ifs with largest
  · exact iff_of_false Bool.false_ne_true (not_not.mpr largest)
  · exact iff_of_false Bool.false_ne_true (not_not.mpr largest)
  all_goals exact iff_of_true rfl largest

theorem unpack_eq (x : Float) :
    x.toModel.unpack = UnpackedFloat.unpack Format.binary64 x.toBits.toBitVec :=
  rfl

theorem isNaN_eq_unpack (x : Float) : x.isNaN = x.toModel.unpack.isNaN :=
  rfl

theorem isFinite_eq_unpack (x : Float) : x.isFinite = x.toModel.unpack.isFinite :=
  rfl

theorem isFinite_iff : x.isFinite = true ↔ numberOf x < infinityBits := by
  have bound := x.toBits.toNat_lt
  rw [isFinite_eq_unpack, unpack_eq, isFinite_unpack_iff, numberOf, sign_place, infinityBits]
  omega

/-- A decimal for which a finite double holds is read as that double. -/
theorem toFloat?_eq (finite : x.isFinite = true) (holds : (magnitude x).Holds d.value) :
    d.toFloat? (isNegative x) = some x := by
  obtain ⟨doublings, numbered⟩ := magnitude_numbered x
  have below := isFinite_iff.mp finite
  have bits := nearestBits_eq numbered below holds
  rw [Scaled.toFloat?, bits, if_pos below, ← toBits_eq, Float.ofBits_toBits]

/-! The unpacked double. Its sign, exponent and mantissa are parts of the same bits. -/

def signOf (x : Float) : UnpackedFloat.Sign :=
  if isNegative x then .negative else .positive

theorem unpackSign_eq (x : Float) :
    UnpackedFloat.Sign.ofBitVec (@UnpackedFloat.unpackSign Format.binary64 x.toBits.toBitVec) =
      signOf x := by
  have bound := x.toBits.toNat_lt
  have bit : (@UnpackedFloat.unpackSign Format.binary64 x.toBits.toBitVec).toNat =
      x.toBits.toNat / 9223372036854775808 := by
    rw [UnpackedFloat.unpackSign_def, BitVec.extractLsb'_toNat, Nat.shiftRight_eq_div_pow]
    change x.toBits.toNat / 9223372036854775808 % 2 = _
    omega
  have clear : @UnpackedFloat.unpackSign Format.binary64 x.toBits.toBitVec = 0#1 ↔
      isNegative x ≠ true := by
    rw [ne_eq, isNegative_iff, ← BitVec.toNat_inj, bit]
    change _ = 0 ↔ _
    omega
  simp only [UnpackedFloat.Sign.ofBitVec, signOf, clear, ite_not]

theorem unpackExponent_toNat (word : UInt64) :
    (@UnpackedFloat.unpackExponent Format.binary64 word.toBitVec).toNat =
      ((word >>> 52) &&& 0x7FF).toNat := by
  rw [UnpackedFloat.unpackExponent_def, BitVec.extractLsb'_toNat, UInt64.toNat_and,
    UInt64.toNat_shiftRight]
  exact (Nat.and_two_pow_sub_one_eq_mod _ 11).symm

theorem unpackMantissa_toNat (word : UInt64) :
    (@UnpackedFloat.unpackMantissa Format.binary64 word.toBitVec).toNat =
      (word &&& 0xFFFFFFFFFFFFF).toNat := by
  rw [UnpackedFloat.unpackMantissa_def, BitVec.extractLsb'_toNat, UInt64.toNat_and]
  exact (Nat.and_two_pow_sub_one_eq_mod _ 52).symm

theorem magnitude_of_smallest
    (smallest : @UnpackedFloat.unpackExponent Format.binary64 x.toBits.toBitVec = 0#11) :
    magnitude x = ⟨(@UnpackedFloat.unpackMantissa Format.binary64 x.toBits.toBitVec).toNat, -1074,
      false⟩ := by
  have biased : ((x.toBits >>> 52) &&& 0x7FF).toNat = 0 := by
    rw [← unpackExponent_toNat, smallest]
    rfl
  rw [magnitude, if_pos biased, unpackMantissa_toNat]

theorem magnitude_of_larger
    (larger : @UnpackedFloat.unpackExponent Format.binary64 x.toBits.toBitVec ≠ 0#11) :
    (magnitude x).significand =
        Nat.pow 2 52 + (@UnpackedFloat.unpackMantissa Format.binary64 x.toBits.toBitVec).toNat ∧
      (magnitude x).exponent =
        (@UnpackedFloat.unpackExponent Format.binary64 x.toBits.toBitVec).toNat - 1075 := by
  have biased : ((x.toBits >>> 52) &&& 0x7FF).toNat ≠ 0 := by
    rw [← unpackExponent_toNat]
    exact mt (fun zero => BitVec.eq_of_toNat_eq zero) larger
  rw [magnitude, if_neg biased, unpackMantissa_toNat, unpackExponent_toNat]
  exact ⟨rfl, rfl⟩

/-- A finite double is a zero, or its magnitude with its sign. -/
theorem unpack_of_finite (finite : x.isFinite = true) :
    x.toModel.unpack = .zero (signOf x) ∧ (magnitude x).significand = 0 ∨
      ∃ positive, x.toModel.unpack =
        .finite (signOf x) (magnitude x).significand (magnitude x).exponent positive := by
  have sign := unpackSign_eq x
  rw [isFinite_eq_unpack, unpack_eq] at finite
  rw [unpack_eq]
  unfold UnpackedFloat.unpack at finite ⊢
  dsimp only at finite ⊢
  rw [sign] at finite ⊢
  split_ifs at finite ⊢ with largest infinite smallest none
  · contradiction
  · contradiction
  · rw [magnitude_of_smallest smallest, none]
    exact Or.inl ⟨rfl, rfl⟩
  · rw [magnitude_of_smallest smallest]
    refine Or.inr ⟨?_, ?_⟩
    · exact Nat.pos_of_ne_zero fun zero => none (BitVec.eq_of_toNat_eq zero)
    · rw [smallest]
      rfl
  · obtain ⟨significand, exponent⟩ := magnitude_of_larger smallest
    have joined : (1#1 ++ @UnpackedFloat.unpackMantissa Format.binary64 x.toBits.toBitVec).toNat =
        (magnitude x).significand := by
      have apart := Nat.two_pow_add_eq_or_of_lt (BitVec.isLt
        (@UnpackedFloat.unpackMantissa Format.binary64 x.toBits.toBitVec)) 1
      rw [significand, BitVec.toNat_append]
      exact apart.symm
    refine Or.inr ⟨?_, ?_⟩
    · rw [significand]
      exact Nat.add_pos_left (Nat.two_pow_pos 52) _
    · simp only [joined, exponent]
      rfl

theorem unpack_of_not_finite (infinite : x.isFinite = false) :
    x.toModel.unpack = .notANumber ∨ x.toModel.unpack = .infinity (signOf x) := by
  have sign := unpackSign_eq x
  rw [isFinite_eq_unpack, unpack_eq] at infinite
  rw [unpack_eq]
  unfold UnpackedFloat.unpack at infinite ⊢
  dsimp only at infinite ⊢
  rw [sign] at infinite ⊢
  split_ifs at infinite ⊢
  · exact Or.inr rfl
  · exact Or.inl rfl
  all_goals contradiction

end MonthlyForecast.Decimal
