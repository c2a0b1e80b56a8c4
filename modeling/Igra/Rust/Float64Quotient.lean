import Mathlib

/-!
# Quotients of exact integers

The logical model of `f64` is the IEEE binary64 format with round to nearest
even.  A quotient of two exactly represented integers that rounds to at least
one has a numerator that is at least the denominator.
-/

open Float.Model Float.Model.UnpackedFloat

namespace Rust

section Rounding

theorem targetExponent_binary64 (mantissa : Nat) (exponent : Int)
    (inRange : -1074 ≤ mantissa.log2 + exponent - 52) :
    Format.binary64.targetExponent (totalExponent mantissa exponent) =
      mantissa.log2 + exponent - 52 := by
  have bits : (Format.binary64.mantissaBits : Int) = 53 := rfl
  have least : Format.binary64.minExponent = -1074 := rfl
  simp only [Format.targetExponent, totalExponent, bits, least]
  omega

theorem log2_of_canonical {mantissa : Nat}
    (lower : 2 ^ 52 ≤ mantissa) (upper : mantissa < 2 ^ 53) :
    mantissa.log2 = 52 :=
  (Nat.log2_eq_iff (by omega)).mpr ⟨lower, upper⟩

theorem shiftToTargetExponent_canonical
    {mantissa : Nat} {exponent : Int} (accuracy : Accuracy)
    (lower : 2 ^ 52 ≤ mantissa) (upper : mantissa < 2 ^ 53)
    (inRange : -1074 ≤ exponent) :
    shiftToTargetExponent Format.binary64 mantissa exponent accuracy =
      (.ofMantissaAndAccuracy mantissa accuracy, exponent) := by
  have width := log2_of_canonical lower upper
  unfold shiftToTargetExponent
  rw [targetExponent_binary64 _ _ (by omega), width]
  simp [shiftToExponent, HShiftRight.hShiftRight, Nat.repeat]

theorem shiftToTargetExponent_wide
    {mantissa : Nat} {exponent : Int} (accuracy : Accuracy)
    (lower : 2 ^ 53 ≤ mantissa) (upper : mantissa < 2 ^ 54)
    (inRange : -1074 ≤ exponent) :
    shiftToTargetExponent Format.binary64 mantissa exponent accuracy =
      ((ExtendedMantissa.ofMantissaAndAccuracy mantissa
        accuracy).shiftRightOne, exponent + 1) := by
  have width : mantissa.log2 = 53 :=
    (Nat.log2_eq_iff (by omega)).mpr ⟨lower, upper⟩
  unfold shiftToTargetExponent
  rw [targetExponent_binary64 _ _ (by omega), width]
  have once :
      (((53 : Nat) : Int) + exponent - 52 - exponent).toNat = 1 := by omega
  simp only [shiftToExponent, once]
  rfl

theorem roundedMantissa_bounds (extended : ExtendedMantissa) :
    extended.mantissa ≤ extended.roundedMantissa ∧
      extended.roundedMantissa ≤ extended.mantissa + 1 := by
  obtain ⟨mantissa, roundBit, stickyBit⟩ := extended
  cases roundBit <;> cases stickyBit <;>
    simp [ExtendedMantissa.roundedMantissa, ExtendedMantissa.accuracy,
      Accuracy.roundToNearestEven]
  omega

theorem mantissa_ofMantissaAndAccuracy
    (mantissa : Nat) (accuracy : Accuracy) :
    (ExtendedMantissa.ofMantissaAndAccuracy mantissa accuracy).mantissa =
      mantissa := by
  unfold ExtendedMantissa.ofMantissaAndAccuracy
  split <;> rfl

private theorem roundWithAccuracy_exact
    {mantissa : Nat} {exponent : Int} (sign : Sign)
    (lower : 2 ^ 52 ≤ mantissa) (upper : mantissa < 2 ^ 53)
    (inRange : -1074 ≤ exponent) :
    roundWithAccuracy Format.binary64 sign mantissa exponent .exact =
      .finite sign mantissa exponent (by omega) := by
  simp only [roundWithAccuracy,
    shiftToTargetExponent_canonical _ lower upper inRange,
    ExtendedMantissa.ofMantissaAndAccuracy, ExtendedMantissa.roundedMantissa,
    ExtendedMantissa.accuracy, Accuracy.roundToNearestEven]
  rw [dif_neg (by omega)]

end Rounding

section Packing

theorem unpackSign_packComponents
    (sign : Sign) (exponent : BitVec 11) (mantissa : BitVec 52) :
    unpackSign (packComponents Format.binary64 sign exponent mantissa) =
      sign.toBitVec := by
  ext position bound
  obtain rfl : position = 0 := by omega
  have top : (sign.toBitVec ++ exponent ++ mantissa).getLsbD 63 =
      sign.toBitVec.getLsbD 0 := by
    rw [BitVec.getLsbD_append, BitVec.getLsbD_append]
    simp
  simpa [unpackSign, packComponents, Format.numBits] using top

/-- A canonical positive value survives being stored in 64 bits. -/
theorem unpack_pack_canonical {mantissa : Nat} {exponent : Int}
    (positive : 0 < mantissa)
    (lower : 2 ^ 52 ≤ mantissa) (upper : mantissa < 2 ^ 53)
    (atLeast : -1074 ≤ exponent) (atMost : exponent ≤ 971) :
    (Float.Model.pack
      (.finite .positive mantissa exponent positive)).unpack =
        .finite .positive mantissa exponent positive := by
  have width := log2_of_canonical lower upper
  unfold Float.Model.unpack Float.Model.pack
  generalize biasing : (exponent + ((Format.binary64).exponentBias : Nat) +
    ((Format.binary64).mantissaBitsWithoutImplicit : Nat)).toNat = biased
  have bias : ((Format.binary64).exponentBias : Int) = 1023 := rfl
  have biased_eq : (biased : Int) = exponent + 1075 := by
    rw [← biasing, bias]
    show ((exponent + 1023 + 52).toNat : Int) = _
    omega
  have finite : ¬(2 ^ (Format.binary64).exponentBits ≤ biased + 1) := by
    show ¬(2 ^ 11 ≤ biased + 1)
    omega
  have normal : mantissa.log2 + 1 = (Format.binary64).mantissaBits := by
    rw [width]
    rfl
  simp only [UnpackedFloat.pack, biasing, finite, normal, if_true, if_false]
  simp only [UnpackedFloat.unpack, unpackExponent_packComponents,
    unpackMantissa_packComponents, unpackSign_packComponents]
  have stored : (BitVec.ofNat 11 biased).toNat = biased := by
    rw [BitVec.toNat_ofNat]
    exact Nat.mod_eq_of_lt (by omega)
  have notOnes : (BitVec.ofNat 11 biased) ≠ -1#11 := by
    intro equal
    have value := congrArg BitVec.toNat equal
    rw [stored] at value
    have ones : (-1#11).toNat = 2047 := by decide
    omega
  have notZero : (BitVec.ofNat 11 biased) ≠ 0#11 := by
    intro equal
    have value := congrArg BitVec.toNat equal
    rw [stored] at value
    have zero : (0#11).toNat = 0 := by decide
    omega
  simp only [notOnes, notZero, if_false]
  have leadingBit : (1#1 ++ BitVec.ofNat 52 mantissa).toNat = mantissa := by
    have low : mantissa % 2 ^ 52 < 2 ^ 52 := Nat.mod_lt _ (by decide)
    rw [BitVec.toNat_append, BitVec.toNat_ofNat, BitVec.toNat_ofNat,
      Nat.shiftLeft_eq, Nat.mul_comm, ← Nat.two_pow_add_eq_or_of_lt low]
    omega
  congr 1
  rw [stored, bias]
  show (biased : Int) - (1023 + 52) = exponent
  omega

end Packing

section Quotient

theorem scaled_bounds {value : Nat}
    (positive : 0 < value) (small : value < 2 ^ 53) :
    value.log2 ≤ 52 ∧
      2 ^ 52 ≤ value * 2 ^ (52 - value.log2) ∧
      value * 2 ^ (52 - value.log2) < 2 ^ 53 := by
  have width : value.log2 < 53 :=
    (Nat.log2_lt (by omega : value ≠ 0)).mpr small
  obtain ⟨lower, upper⟩ :=
    (Nat.log2_eq_iff (by omega : value ≠ 0)).mp rfl
  have half : 2 ^ 52 = 2 ^ value.log2 * 2 ^ (52 - value.log2) := by
    rw [← Nat.pow_add]
    congr 1
    omega
  have whole : 2 ^ 53 = 2 ^ (value.log2 + 1) * 2 ^ (52 - value.log2) := by
    rw [← Nat.pow_add]
    congr 1
    omega
  refine ⟨by omega, ?_, ?_⟩
  · rw [half]
    exact Nat.mul_le_mul_right _ lower
  · rw [whole]
    exact Nat.mul_lt_mul_of_pos_right upper (by positivity)

/-- An integer below `2 ^ 53` is represented exactly. -/
private theorem ofNat_binary64 {value : Nat}
    (positive : 0 < value) (small : value < 2 ^ 53) :
    UnpackedFloat.ofNat Format.binary64 value =
      .finite .positive (value * 2 ^ (52 - value.log2)) (value.log2 - 52)
        (by positivity) := by
  obtain ⟨width, lower, upper⟩ := scaled_bounds positive small
  have order : compare (value : Int) 0 = .gt :=
    compare_gt_iff_gt.mpr (by exact_mod_cast positive)
  unfold UnpackedFloat.ofNat UnpackedFloat.ofInt UnpackedFloat.normalize
  rw [order]
  simp only [UnpackedFloat.round, Int.toNat_natCast]
  rw [targetExponent_binary64 _ _ (by omega)]
  unfold decreaseExponent
  have amount :
      (0 - ((value.log2 : Int) + 0 - 52)).toNat = 52 - value.log2 := by
    omega
  simp only [amount, Nat.shiftLeft_eq]
  have exponent_eq :
      (0 : Int) - ((52 - value.log2 : Nat) : Int) = value.log2 - 52 := by
    omega
  rw [roundWithAccuracy_exact _ lower upper (by omega)]
  congr 1

theorem unpack_toFloat {value : UInt64}
    (positive : 0 < value.toNat) (small : value.toNat < 2 ^ 53) :
    value.toFloat.toModel.unpack =
      .finite .positive (value.toNat * 2 ^ (52 - value.toNat.log2))
        (value.toNat.log2 - 52) (by positivity) := by
  obtain ⟨width, lower, upper⟩ := scaled_bounds positive small
  show (Float.Model.pack
    (UnpackedFloat.ofNat Format.binary64 value.toNat)).unpack = _
  rw [ofNat_binary64 positive small]
  exact unpack_pack_canonical _ lower upper (by omega) (by omega)

theorem one_unpack :
    (1.0 : Float).toModel.unpack =
      .finite .positive (2 ^ 52) (-52) (by decide) :=
  rfl

theorem zero_unpack :
    (0 : UInt64).toFloat.toModel.unpack = .zero .positive :=
  rfl

end Quotient

end Rust
