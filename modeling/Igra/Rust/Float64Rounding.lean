import Igra.Rust.Float64
import Igra.Rust.Float64Quotient

/-!
# Rounding of positive doubles

A positive double that is not too small stands for a rational number.  A
product is off by one unit in the last place at most, and rounding never
crosses a number that has few enough bits.
-/

open Float.Model Float.Model.UnpackedFloat

namespace Rust

section Shifting

theorem mantissa_shiftRight (extended : ExtendedMantissa) (amount : Nat) :
    (extended >>> amount).mantissa = extended.mantissa / 2 ^ amount := by
  induction amount with
  | zero => simp [HShiftRight.hShiftRight, Nat.repeat]
  | succ amount ih =>
      have step : (extended >>> (amount + 1)).mantissa =
          (extended >>> amount).mantissa / 2 :=
        rfl
      rw [step, ih, Nat.div_div_eq_div_mul, Nat.pow_succ]

/-- The bits of a mantissa that are more than a double holds. -/
def surplusBits (mantissa : Nat) : Nat :=
  mantissa.log2 - 52

theorem surplusBits_bounds {mantissa : Nat} (lower : 2 ^ 52 ≤ mantissa) :
    2 ^ 52 ≤ mantissa / 2 ^ surplusBits mantissa ∧
      mantissa / 2 ^ surplusBits mantissa < 2 ^ 53 := by
  have positive : mantissa ≠ 0 := by omega
  have width : 52 ≤ mantissa.log2 := (Nat.le_log2 positive).mpr lower
  obtain ⟨least, most⟩ := (Nat.log2_eq_iff positive).mp rfl
  constructor
  · rw [Nat.le_div_iff_mul_le (by positivity), ← Nat.pow_add, surplusBits,
      Nat.add_sub_cancel' width]
    exact least
  · rw [Nat.div_lt_iff_lt_mul (by positivity), ← Nat.pow_add, surplusBits,
      show 53 + (mantissa.log2 - 52) = mantissa.log2 + 1 by omega]
    exact most

/-- A rounding keeps the leading bits, or moves up to the next number. -/
theorem roundWithAccuracy_value {mantissa : Nat} {exponent : Int}
    (sign : Sign) (accuracy : Accuracy) (lower : 2 ^ 52 ≤ mantissa)
    (inRange : -1074 ≤ exponent) :
    ∃ rounded final positive leading,
      roundWithAccuracy Format.binary64 sign mantissa exponent accuracy =
        .finite sign rounded final positive ∧
      2 ^ 52 ≤ rounded ∧ rounded < 2 ^ 53 ∧ exponent ≤ final ∧
      mantissa / 2 ^ surplusBits mantissa ≤ leading ∧
      leading ≤ mantissa / 2 ^ surplusBits mantissa + 1 ∧
      (rounded : ℚ) * 2 ^ final =
        leading * 2 ^ (exponent + surplusBits mantissa) := by
  have positive : mantissa ≠ 0 := by omega
  have width : 52 ≤ mantissa.log2 := (Nat.le_log2 positive).mpr lower
  obtain ⟨least, most⟩ := surplusBits_bounds lower
  have amount : ((mantissa.log2 : Int) + exponent - 52 - exponent).toNat =
      surplusBits mantissa := by
    rw [surplusBits]
    omega
  have first : shiftToTargetExponent Format.binary64 mantissa exponent
      accuracy = (ExtendedMantissa.ofMantissaAndAccuracy mantissa accuracy >>>
        surplusBits mantissa, exponent + surplusBits mantissa) := by
    simp only [shiftToTargetExponent, shiftToExponent,
      targetExponent_binary64 mantissa exponent (by omega), amount]
  obtain ⟨above, below⟩ := roundedMantissa_bounds
    (ExtendedMantissa.ofMantissaAndAccuracy mantissa accuracy >>>
      surplusBits mantissa)
  rw [mantissa_shiftRight, mantissa_ofMantissaAndAccuracy] at above below
  rcases Nat.lt_or_ge ((ExtendedMantissa.ofMantissaAndAccuracy mantissa
    accuracy >>> surplusBits mantissa).roundedMantissa) (2 ^ 53) with
      fits | carried
  · refine ⟨_, exponent + surplusBits mantissa, by omega, _, ?_,
      least.trans above, fits, by omega, above, below, rfl⟩
    simp only [roundWithAccuracy, first,
      shiftToTargetExponent_canonical .exact (least.trans above) fits
        (show -1074 ≤ exponent + surplusBits mantissa by omega),
      mantissa_ofMantissaAndAccuracy]
    rw [dif_neg (by omega)]
  · have full : (ExtendedMantissa.ofMantissaAndAccuracy mantissa
        accuracy >>> surplusBits mantissa).roundedMantissa = 2 ^ 53 := by
      omega
    have halved : (ExtendedMantissa.ofMantissaAndAccuracy (2 ^ 53)
        .exact).shiftRightOne.mantissa = 2 ^ 52 :=
      rfl
    refine ⟨2 ^ 52, exponent + surplusBits mantissa + 1, by decide, 2 ^ 53,
      ?_, le_rfl, by decide, by omega, by omega, by omega, ?_⟩
    · simp only [roundWithAccuracy, first, full,
        shiftToTargetExponent_wide .exact (le_refl (2 ^ 53)) (by decide)
          (show -1074 ≤ exponent + surplusBits mantissa by omega), halved]
      rw [dif_neg (by decide)]
    · rw [zpow_add_one₀ (by norm_num)]
      push_cast
      ring

end Shifting

section Normals

/-- A positive number with all of its 53 bits, and its value. -/
inductive Normal : UnpackedFloat → ℚ → Prop
  | intro (mantissa : Nat) (exponent : Int) (positive : 0 < mantissa) :
      2 ^ 52 ≤ mantissa → mantissa < 2 ^ 53 →
      -1074 ≤ exponent → exponent ≤ 971 →
      Normal (.finite .positive mantissa exponent positive)
        (mantissa * 2 ^ exponent)

variable {x y : UnpackedFloat} {v w : ℚ}

theorem scaled_lt {mantissa other : Nat} {exponent higher : Int}
    (upper : mantissa < 2 ^ 53) (lower : 2 ^ 52 ≤ other)
    (below : exponent < higher) :
    (mantissa : ℚ) * 2 ^ exponent < other * 2 ^ higher := by
  have upperQ : (mantissa : ℚ) < 2 ^ 53 := by exact_mod_cast upper
  have lowerQ : (2 : ℚ) ^ 52 ≤ other := by exact_mod_cast lower
  have step : (2 : ℚ) * 2 ^ exponent ≤ 2 ^ higher := by
    rw [← zpow_one_add₀ (by norm_num)]
    exact zpow_le_zpow_right₀ (by norm_num) (by omega)
  have positive : (0 : ℚ) < 2 ^ exponent := by positivity
  calc (mantissa : ℚ) * 2 ^ exponent
      < 2 ^ 53 * 2 ^ exponent := by gcongr
    _ = 2 ^ 52 * (2 * 2 ^ exponent) := by ring
    _ ≤ other * 2 ^ higher := by gcongr

/-- The order of the bits is that of the values. -/
theorem Normal.lt_iff (left : Normal x v) (right : Normal y w) :
    UnpackedFloat.lt x y = true ↔ v < w := by
  obtain ⟨first, low, firstPositive, firstLower, firstUpper, -, -⟩ := left
  obtain ⟨second, high, secondPositive, secondLower, secondUpper, -, -⟩ :=
    right
  rcases lt_trichotomy low high with less | same | more
  · have order : compare low high = .lt := compare_lt_iff_lt.mpr less
    simp [UnpackedFloat.lt, UnpackedFloat.compare, order,
      scaled_lt firstUpper secondLower less]
  · subst same
    have order : compare low low = .eq := compare_eq_iff_eq.mpr rfl
    have positive : (0 : ℚ) < 2 ^ low := by positivity
    simp only [UnpackedFloat.lt, UnpackedFloat.compare, order,
      Ordering.eq_then, beq_iff_eq, Option.some.injEq, compare_lt_iff_lt,
      mul_lt_mul_iff_left₀ positive, Nat.cast_lt]
  · have order : compare low high = .gt := compare_gt_iff_gt.mpr more
    simp [UnpackedFloat.lt, UnpackedFloat.compare, order,
      (scaled_lt secondUpper firstLower more).le]

theorem Normal.le_iff (left : Normal x v) (right : Normal y w) :
    UnpackedFloat.le x y = true ↔ v ≤ w := by
  obtain ⟨first, low, firstPositive, firstLower, firstUpper, -, -⟩ := left
  obtain ⟨second, high, secondPositive, secondLower, secondUpper, -, -⟩ :=
    right
  rcases lt_trichotomy low high with less | same | more
  · have order : compare low high = .lt := compare_lt_iff_lt.mpr less
    simp [UnpackedFloat.le, UnpackedFloat.compare, order,
      (scaled_lt firstUpper secondLower less).le]
  · subst same
    have order : compare low low = .eq := compare_eq_iff_eq.mpr rfl
    have positive : (0 : ℚ) < 2 ^ low := by positivity
    simp only [UnpackedFloat.le, UnpackedFloat.compare, order,
      Ordering.eq_then, Option.any_some, mul_le_mul_iff_left₀ positive,
      Nat.cast_le]
    exact Std.isLE_compare
  · have order : compare low high = .gt := compare_gt_iff_gt.mpr more
    simp [UnpackedFloat.le, UnpackedFloat.compare, order,
      scaled_lt secondUpper firstLower more]

theorem Normal.zero_lt (normal : Normal x v) :
    UnpackedFloat.lt (.zero .positive) x = true := by
  obtain ⟨mantissa, exponent, positive, -, -, -, -⟩ := normal
  rfl

theorem Normal.positive (normal : Normal x v) : 0 < v := by
  obtain ⟨mantissa, exponent, positive, -, -, -, -⟩ := normal
  have positiveQ : (0 : ℚ) < mantissa := by exact_mod_cast positive
  positivity

theorem one_normal : Normal (1.0 : Float).toModel.unpack 1 := by
  rw [one_unpack]
  have value : (1 : ℚ) = ((2 ^ 52 : Nat) : ℚ) * 2 ^ (-52 : Int) := by
    norm_num
  rw [value]
  exact .intro _ _ _ le_rfl (by decide) (by decide) (by decide)

/-- The range of what the 64 bits of a double can stand for. -/
theorem range_of_unpack {stored : Float} {sign : Sign} {mantissa : Nat}
    {exponent : Int} {positive : 0 < mantissa}
    (unpacked : stored.toModel.unpack =
      .finite sign mantissa exponent positive) :
    mantissa < 2 ^ 53 ∧ -1074 ≤ exponent ∧ exponent ≤ 971 ∧
      (mantissa < 2 ^ 52 → exponent = -1074) := by
  have bias : ((Format.binary64).exponentBias : Int) = 1023 := rfl
  have width : ((Format.binary64).mantissaBitsWithoutImplicit : Int) = 52 :=
    rfl
  have bits := (@unpackMantissa Format.binary64
    stored.toModel.toBits.toBitVec).isLt
  change _ < 2 ^ 52 at bits
  have range := (@unpackExponent Format.binary64
    stored.toModel.toBits.toBitVec).isLt
  change _ < 2 ^ 11 at range
  unfold Float.Model.unpack UnpackedFloat.unpack at unpacked
  simp only [bias, width] at unpacked
  split_ifs at unpacked with ones nothing zeros zero
  · simp only [UnpackedFloat.finite.injEq] at unpacked
    obtain ⟨-, rfl, rfl⟩ := unpacked
    have least : (@unpackExponent Format.binary64
        stored.toModel.toBits.toBitVec).toNat = 0 := by
      rw [zeros]
      rfl
    rw [least]
    exact ⟨by omega, by decide, by decide, fun _ => by decide⟩
  · simp only [UnpackedFloat.finite.injEq] at unpacked
    obtain ⟨-, rfl, rfl⟩ := unpacked
    have leading : (1#1 ++ @unpackMantissa Format.binary64
        stored.toModel.toBits.toBitVec).toNat =
          2 ^ 52 + (@unpackMantissa Format.binary64
            stored.toModel.toBits.toBitVec).toNat := by
      rw [BitVec.toNat_append, Nat.shiftLeft_eq, BitVec.toNat_ofNat,
        Nat.mul_comm, ← Nat.two_pow_add_eq_or_of_lt bits]
      rfl
    have notZero : (@unpackExponent Format.binary64
        stored.toModel.toBits.toBitVec).toNat ≠ 0 :=
      fun zero => zeros (BitVec.eq_of_toNat_eq zero)
    have notOnes : (@unpackExponent Format.binary64
        stored.toModel.toBits.toBitVec).toNat ≠ 2047 :=
      fun full => ones (BitVec.eq_of_toNat_eq full)
    rw [leading]
    exact ⟨by omega, by omega, by omega, fun small => by omega⟩

/-- A rate of at least one is infinite or has all of its bits. -/
theorem unpack_of_one_le {rate : Float} (atLeast : 1.0 ≤ rate) :
    rate.toModel.unpack = .infinity .positive ∨
      ∃ value, 1 ≤ value ∧ Normal rate.toModel.unpack value := by
  have ordered : UnpackedFloat.le (1.0 : Float).toModel.unpack
      rate.toModel.unpack = true := by
    have decided : decide ((1.0 : Float).toModel.le rate.toModel = true) =
        true := atLeast
    rw [decide_eq_true_eq] at decided
    exact decided
  cases shape : rate.toModel.unpack with
  | notANumber =>
      rw [shape] at ordered
      exact absurd ordered (by decide)
  | infinity sign =>
      rw [shape] at ordered
      cases sign with
      | positive => exact .inl rfl
      | negative => exact absurd ordered (by decide)
  | zero sign =>
      rw [shape] at ordered
      cases sign <;> exact absurd ordered (by decide)
  | finite sign mantissa exponent positive =>
      rw [shape] at ordered
      cases sign with
      | negative => exact absurd ordered (by simp [one_unpack,
          UnpackedFloat.le, UnpackedFloat.compare])
      | positive =>
          obtain ⟨upper, least, most, subnormal⟩ := range_of_unpack shape
          have lower : 2 ^ 52 ≤ mantissa := by
            by_contra small
            have order : compare (-52) exponent = .gt :=
              compare_gt_iff_gt.mpr (by
                have := subnormal (by omega)
                omega)
            exact absurd ordered (by simp [one_unpack, UnpackedFloat.le,
              UnpackedFloat.compare, order])
          have normal : Normal _ _ :=
            .intro mantissa exponent positive lower upper least most
          exact .inr ⟨_, (one_normal.le_iff normal).mp ordered, normal⟩

/-- A number of 53 bits that is not below `2 ^ 53` is an integer, and
converting it back to a double loses nothing. -/
theorem Normal.integral (normal : Normal x v) (large : 2 ^ 53 ≤ v) :
    ∃ value : Nat, v = value ∧
      value / 2 ^ surplusBits value * 2 ^ surplusBits value = value := by
  obtain ⟨mantissa, exponent, positive, lower, upper, -, -⟩ := normal
  have upperQ : (mantissa : ℚ) < 2 ^ 53 := by exact_mod_cast upper
  have nonneg : 0 ≤ exponent := by
    by_contra negative
    have unit : (2 : ℚ) ^ exponent ≤ 1 :=
      zpow_le_one_of_nonpos₀ (by norm_num) (by omega)
    have small : (mantissa : ℚ) * 2 ^ exponent ≤ mantissa :=
      mul_le_of_le_one_right (by positivity) unit
    exact absurd (large.trans small) (not_le.mpr upperQ)
  obtain ⟨amount, rfl⟩ := Int.eq_ofNat_of_zero_le nonneg
  have width : (mantissa * 2 ^ amount).log2 = 52 + amount := by
    refine (Nat.log2_eq_iff (by positivity)).mpr ⟨?_, ?_⟩
    · rw [Nat.pow_add]
      exact Nat.mul_le_mul_right _ lower
    · rw [show 52 + amount + 1 = 53 + amount by omega, Nat.pow_add]
      exact Nat.mul_lt_mul_of_pos_right upper (by positivity)
  refine ⟨mantissa * 2 ^ amount, by push_cast; rw [zpow_natCast], ?_⟩
  rw [surplusBits, width, Nat.add_sub_cancel_left]
  exact Nat.div_mul_cancel (Nat.dvd_mul_left _ _)

/-- A number that is too large is stored as infinity. -/
theorem unpack_pack_overflow {mantissa : Nat} {exponent : Int}
    (positive : 0 < mantissa) (above : 971 < exponent) :
    (Float.Model.pack
      (.finite .positive mantissa exponent positive)).unpack =
        .infinity .positive := by
  have stored : Float.Model.pack
      (.finite .positive mantissa exponent positive) =
        Float.Model.pack (.infinity .positive) := by
    unfold Float.Model.pack
    congr 1
    have bias : ((Format.binary64).exponentBias : Int) = 1023 := rfl
    have width : ((Format.binary64).mantissaBitsWithoutImplicit : Int) = 52 :=
      rfl
    have large : 2 ^ (Format.binary64).exponentBits ≤
        (exponent + ((Format.binary64).exponentBias : Nat) +
          ((Format.binary64).mantissaBitsWithoutImplicit : Nat)).toNat + 1 := by
      show 2 ^ 11 ≤ _
      omega
    simp only [UnpackedFloat.pack, large, if_true]
  rw [stored]
  rfl

theorem unpack_pack_infinity :
    (Float.Model.pack (.infinity .positive)).unpack = .infinity .positive :=
  rfl

/-- What a rounding stores: a normal number, or infinity. -/
theorem unpack_pack_rounded {mantissa : Nat} {exponent : Int}
    (accuracy : Accuracy) (lower : 2 ^ 52 ≤ mantissa)
    (inRange : -1074 ≤ exponent) :
    ∃ leading : Nat, ∃ value : ℚ,
      mantissa / 2 ^ surplusBits mantissa ≤ leading ∧
      leading ≤ mantissa / 2 ^ surplusBits mantissa + 1 ∧
      value = leading * 2 ^ (exponent + surplusBits mantissa) ∧
      ((Float.Model.pack (roundWithAccuracy Format.binary64 .positive
          mantissa exponent accuracy)).unpack = .infinity .positive ∧
          2 ^ 1024 ≤ value ∨
        Normal (Float.Model.pack (roundWithAccuracy Format.binary64 .positive
          mantissa exponent accuracy)).unpack value) := by
  obtain ⟨rounded, final, positive, leading, result, least, most, above,
    atLeast, atMost, value⟩ :=
    roundWithAccuracy_value .positive accuracy lower inRange
  refine ⟨leading, _, atLeast, atMost, rfl, ?_⟩
  rw [result, ← value]
  rcases lt_or_ge 971 final with large | fits
  · refine .inl ⟨unpack_pack_overflow positive large, ?_⟩
    have leastQ : (2 : ℚ) ^ 52 ≤ rounded := by exact_mod_cast least
    have leastExponent : (2 : ℚ) ^ 972 ≤ 2 ^ final := by
      rw [← zpow_natCast]
      exact zpow_le_zpow_right₀ (by norm_num) (by push_cast; omega)
    calc (2 : ℚ) ^ 1024 = 2 ^ 52 * 2 ^ 972 := pow_add 2 52 972
      _ ≤ (rounded : ℚ) * 2 ^ final := by gcongr
  · rw [unpack_pack_canonical positive least most (by omega) fits]
    exact .inr (.intro _ _ _ least most (by omega) fits)

/-- The relative error of a rounding that started from an exact number. -/
theorem rounded_bounds {mantissa leading : Nat} {exponent : Int}
    (lower : 2 ^ 52 ≤ mantissa)
    (atLeast : mantissa / 2 ^ surplusBits mantissa ≤ leading)
    (atMost : leading ≤ mantissa / 2 ^ surplusBits mantissa + 1) :
    (mantissa : ℚ) * 2 ^ exponent * (1 - 2 ^ (-52 : Int)) ≤
        leading * 2 ^ (exponent + surplusBits mantissa) ∧
      (leading : ℚ) * 2 ^ (exponent + surplusBits mantissa) ≤
        mantissa * 2 ^ exponent * (1 + 2 ^ (-52 : Int)) := by
  obtain ⟨least, -⟩ := surplusBits_bounds lower
  have unit : (0 : ℚ) < 2 ^ exponent := by positivity
  have split : (2 : ℚ) ^ (exponent + surplusBits mantissa) =
      2 ^ exponent * (2 ^ surplusBits mantissa : Nat) := by
    rw [zpow_add₀ (by norm_num)]
    push_cast
    rfl
  have ulp : ((2 ^ surplusBits mantissa : Nat) : ℚ) ≤
      mantissa * 2 ^ (-52 : Int) := by
    have scaled := Nat.div_mul_le_self mantissa (2 ^ surplusBits mantissa)
    have grown := Nat.mul_le_mul_right (2 ^ surplusBits mantissa) least
    have boundQ : (2 : ℚ) ^ 52 * (2 ^ surplusBits mantissa : Nat) ≤
        mantissa := by
      exact_mod_cast grown.trans scaled
    rw [zpow_neg, ← div_eq_mul_inv, le_div_iff₀ (by positivity)]
    calc ((2 ^ surplusBits mantissa : Nat) : ℚ) * 2 ^ (52 : Int)
        = 2 ^ 52 * (2 ^ surplusBits mantissa : Nat) := by
          rw [mul_comm]
          norm_num
      _ ≤ mantissa := boundQ
  have below : (mantissa : ℚ) ≤
      (leading + 1) * (2 ^ surplusBits mantissa : Nat) := by
    have division := Nat.lt_div_mul_add (a := mantissa)
      (show 0 < 2 ^ surplusBits mantissa by positivity)
    have grown := Nat.mul_le_mul_right (2 ^ surplusBits mantissa) atLeast
    have boundN : mantissa ≤ (leading + 1) * 2 ^ surplusBits mantissa := by
      rw [Nat.add_mul, Nat.one_mul]
      omega
    exact_mod_cast boundN
  have above : (leading : ℚ) * (2 ^ surplusBits mantissa : Nat) ≤
      mantissa + (2 ^ surplusBits mantissa : Nat) := by
    have division := Nat.div_mul_le_self mantissa (2 ^ surplusBits mantissa)
    have grown := Nat.mul_le_mul_right (2 ^ surplusBits mantissa) atMost
    rw [Nat.add_mul, Nat.one_mul] at grown
    exact_mod_cast grown.trans (Nat.add_le_add_right division _)
  rw [split]
  constructor
  · nlinarith
  · nlinarith

/-- A product of normal numbers that is at least one. -/
theorem Normal.mul (left : Normal x v) (right : Normal y w)
    (atLeast : 1 ≤ v * w) :
    ∃ value : ℚ,
      v * w * (1 - 2 ^ (-52 : Int)) ≤ value ∧
      value ≤ v * w * (1 + 2 ^ (-52 : Int)) ∧
      ((Float.Model.pack (UnpackedFloat.mul Format.binary64 x y)).unpack =
          .infinity .positive ∧ 2 ^ 1024 ≤ value ∨
        Normal (Float.Model.pack
          (UnpackedFloat.mul Format.binary64 x y)).unpack value) := by
  obtain ⟨first, low, firstPositive, firstLower, firstUpper, -, -⟩ := left
  obtain ⟨second, high, secondPositive, secondLower, secondUpper, -, -⟩ :=
    right
  have product : (first : ℚ) * 2 ^ low * (second * 2 ^ high) =
      (first * second : Nat) * 2 ^ (low + high) := by
    rw [zpow_add₀ (by norm_num)]
    push_cast
    ring
  have wide : 2 ^ 52 ≤ first * second :=
    firstLower.trans (Nat.le_mul_of_pos_right _ secondPositive)
  have inRange : -1074 ≤ low + high := by
    by_contra tooSmall
    rw [product] at atLeast
    have narrow : first * second ≤ 2 ^ 53 * 2 ^ 53 :=
      Nat.mul_le_mul firstUpper.le secondUpper.le
    have narrowQ : ((first * second : Nat) : ℚ) ≤ 2 ^ 106 := by
      exact_mod_cast narrow
    have tiny : (2 : ℚ) ^ (low + high) ≤ 2 ^ (-107 : Int) :=
      zpow_le_zpow_right₀ (by norm_num) (by omega)
    have small : ((first * second : Nat) : ℚ) * 2 ^ (low + high) ≤
        2 ^ 106 * 2 ^ (-107 : Int) := by
      gcongr
    have half : (2 : ℚ) ^ 106 * 2 ^ (-107 : Int) < 1 := by norm_num
    exact absurd (atLeast.trans small) (not_le.mpr half)
  obtain ⟨leading, value, atLeading, atMost, valueEq, stored⟩ :=
    unpack_pack_rounded .exact wide inRange
  obtain ⟨lowerBound, upperBound⟩ :=
    @rounded_bounds _ _ (low + high) wide atLeading atMost
  rw [← valueEq, ← product] at lowerBound upperBound
  exact ⟨value, lowerBound, upperBound, stored⟩

theorem Normal.mul_infinity (normal : Normal x v) :
    UnpackedFloat.mul Format.binary64 x (.infinity .positive) =
      .infinity .positive := by
  obtain ⟨mantissa, exponent, positive, -, -, -, -⟩ := normal
  rfl

/-- A quotient of at least one is not rounded below one. -/
theorem Normal.not_div_lt_one (left : Normal x v) (right : Normal y w)
    (ordered : w ≤ v) :
    UnpackedFloat.lt (Float.Model.pack
        (UnpackedFloat.div Format.binary64 x y)).unpack
      (1.0 : Float).toModel.unpack = false := by
  suffices shape : (Float.Model.pack
        (UnpackedFloat.div Format.binary64 x y)).unpack =
          .infinity .positive ∨
      ∃ value, 1 ≤ value ∧ Normal (Float.Model.pack
        (UnpackedFloat.div Format.binary64 x y)).unpack value by
    rcases shape with infinite | ⟨value, large, normal⟩
    · rw [infinite]
      rfl
    · rw [Bool.eq_false_iff, ne_eq, normal.lt_iff one_normal]
      exact not_lt.mpr large
  obtain ⟨first, low, firstPositive, firstLower, firstUpper, -, -⟩ := left
  obtain ⟨second, high, secondPositive, secondLower, secondUpper, -, -⟩ :=
    right
  have exponents : high ≤ low := by
    by_contra less
    exact absurd ordered
      (not_le.mpr (scaled_lt firstUpper secondLower (by omega)))
  have bits : (Format.binary64.mantissaBits : Int) = 53 := rfl
  have least : Format.binary64.minExponent = -1074 := rfl
  have target :
      min (low - high) (Format.binary64.targetExponent
        (totalExponent first low - totalExponent second high)) =
          low - high - 53 := by
    simp only [Format.targetExponent, totalExponent, bits, least,
      log2_of_canonical firstLower firstUpper,
      log2_of_canonical secondLower secondUpper]
    omega
  have amount : (low - high - (low - high - 53)).toNat = 53 := by omega
  have lower : 2 ^ 52 ≤ first * 2 ^ 53 / second := by
    rw [Nat.le_div_iff_mul_le secondPositive]
    omega
  unfold UnpackedFloat.div
  simp only [divCore, target, amount, Nat.shiftLeft_eq]
  obtain ⟨leading, value, atLeading, -, valueEq, stored⟩ :=
    unpack_pack_rounded
      (accuracyOfFraction (first * 2 ^ 53 % second) second) lower
      (show -1074 ≤ low - high - 53 by omega)
  refine stored.imp And.left fun normal => ⟨value, ?_, normal⟩
  have exponent_ge : -52 ≤ low - high - 53 +
      (surplusBits (first * 2 ^ 53 / second) : Nat) := by
    rcases exponents.lt_or_eq with less | same
    · omega
    · subst same
      have unit : (0 : ℚ) < 2 ^ high := by positivity
      have mantissas : second ≤ first := by
        exact_mod_cast le_of_mul_le_mul_right ordered unit
      have wide : 2 ^ 53 ≤ first * 2 ^ 53 / second := by
        rw [Nat.le_div_iff_mul_le secondPositive, Nat.mul_comm]
        exact Nat.mul_le_mul_right _ mantissas
      have width := (Nat.le_log2 (by omega)).mpr wide
      rw [surplusBits]
      omega
  have leadingQ : (2 : ℚ) ^ 52 ≤ leading := by
    exact_mod_cast (surplusBits_bounds lower).1.trans atLeading
  rw [valueEq]
  calc (1 : ℚ) = 2 ^ 52 * 2 ^ (-52 : Int) := by norm_num
    _ ≤ leading * 2 ^ (low - high - 53 +
          (surplusBits (first * 2 ^ 53 / second) : Nat) : Int) := by
        gcongr
        norm_num

end Normals

end Rust
