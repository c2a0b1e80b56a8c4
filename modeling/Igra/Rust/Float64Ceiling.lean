import Igra.Rust.Float64Rounding

/-!
# Charges rounded up

Counts are charged at a rate in floating point, and the charge is rounded up
to an integer.  A charge is at least one for each unit counted, and what is
charged for parts covers the charge for a count that is a little smaller than
their sum.
-/

open Float.Model Float.Model.UnpackedFloat

namespace Rust

section Conversions

/-- The double nearest to a positive integer. -/
theorem normal_toFloat {value : UInt64} (positive : 0 < value.toNat) :
    ∃ v : ℚ, Normal value.toFloat.toModel.unpack v ∧
      (value.toNat : ℚ) * (1 - 2 ^ (-52 : Int)) ≤ v ∧
      ((value.toNat / 2 ^ surplusBits value.toNat *
        2 ^ surplusBits value.toNat : Nat) : ℚ) ≤ v ∧
      (value.toNat < 2 ^ 53 → v = value.toNat) := by
  rcases Nat.lt_or_ge value.toNat (2 ^ 53) with small | large
  · obtain ⟨width, lower, upper⟩ := scaled_bounds positive small
    have same : (value.toNat : ℚ) =
        ((value.toNat * 2 ^ (52 - value.toNat.log2) : Nat) : ℚ) *
          2 ^ ((value.toNat.log2 : Int) - 52) := by
      have exponent_eq : (value.toNat.log2 : Int) - 52 =
          -((52 - value.toNat.log2 : Nat) : Int) := by omega
      rw [exponent_eq, zpow_neg, zpow_natCast]
      push_cast
      rw [mul_assoc, mul_inv_cancel₀ (by positivity), mul_one]
    refine ⟨value.toNat, ?_, ?_, ?_, fun _ => rfl⟩
    · rw [unpack_toFloat positive small]
      have normal := Normal.intro (value.toNat * 2 ^ (52 - value.toNat.log2))
        ((value.toNat.log2 : Int) - 52) (by positivity) lower upper
        (by omega) (by omega)
      rwa [← same] at normal
    · have nonneg : (0 : ℚ) ≤ value.toNat := by positivity
      nlinarith [show (0 : ℚ) < 2 ^ (-52 : Int) by positivity]
    · exact_mod_cast Nat.div_mul_le_self _ _
  · have wide : 2 ^ 52 ≤ value.toNat := by omega
    have width : 53 ≤ value.toNat.log2 :=
      (Nat.le_log2 (by omega)).mpr large
    have order : compare (value.toNat : Int) 0 = .gt :=
      compare_gt_iff_gt.mpr (by exact_mod_cast positive)
    have converted : value.toFloat.toModel = Float.Model.pack
        (roundWithAccuracy Format.binary64 .positive value.toNat 0
          .exact) := by
      show Float.Model.pack (UnpackedFloat.ofNat Format.binary64
        value.toNat) = _
      unfold UnpackedFloat.ofNat UnpackedFloat.ofInt UnpackedFloat.normalize
      rw [order]
      simp only [UnpackedFloat.round, Int.toNat_natCast, decreaseExponent]
      rw [targetExponent_binary64 _ _ (by omega)]
      have amount : (0 - ((value.toNat.log2 : Int) + 0 - 52)).toNat = 0 := by
        omega
      simp only [amount, Nat.shiftLeft_zero, Nat.cast_zero, sub_zero]
    obtain ⟨leading, v, atLeast, atMost, valueEq, stored⟩ :=
      unpack_pack_rounded .exact wide (show -1074 ≤ (0 : Int) by decide)
    obtain ⟨lowerBound, upperBound⟩ :=
      @rounded_bounds _ _ 0 wide atLeast atMost
    rw [← valueEq, zpow_zero, mul_one] at lowerBound upperBound
    rw [converted]
    rcases stored with ⟨-, huge⟩ | normal
    · have bound : (value.toNat : ℚ) ≤ 2 ^ 64 := by
        exact_mod_cast value.toNat_lt.le
      have slack : (1 : ℚ) + 2 ^ (-52 : Int) ≤ 2 := by norm_num
      have small : v ≤ 2 ^ 65 := by
        calc v ≤ value.toNat * (1 + 2 ^ (-52 : Int)) := upperBound
          _ ≤ 2 ^ 64 * 2 := by gcongr
          _ = 2 ^ 65 := by norm_num
      have larger : (2 : ℚ) ^ 65 < 2 ^ 1024 :=
        pow_lt_pow_right₀ (by norm_num) (by norm_num)
      exact absurd (huge.trans small) (not_le.mpr larger)
    · refine ⟨v, normal, lowerBound, ?_, fun less => by omega⟩
      rw [valueEq, zero_add, zpow_natCast]
      push_cast
      gcongr

variable {x : UnpackedFloat} {v : ℚ}

/-- Truncation to an integer gives the floor. -/
theorem Normal.toInt_bounds (normal : Normal x v)
    (negativeInfinity positiveInfinity : Int) :
    ∃ floor : Nat, x.toInt negativeInfinity positiveInfinity = floor ∧
      (floor : ℚ) ≤ v ∧ v < floor + 1 := by
  obtain ⟨mantissa, exponent, positive, -, -, -, -⟩ := normal
  refine ⟨mantissa * 2 ^ exponent.toNat / 2 ^ (-exponent).toNat, ?_, ?_⟩
  · simp only [UnpackedFloat.toInt, roundToInt, decreaseExponent,
      shiftToExponent, mantissa_shiftRight, mantissa_ofMantissaAndAccuracy,
      Nat.shiftLeft_eq, Sign.apply, sub_zero]
    congr 3
    omega
  · rcases le_or_gt 0 exponent with nonneg | negative
    · obtain ⟨amount, rfl⟩ := Int.eq_ofNat_of_zero_le nonneg
      have none : (-(amount : Int)).toNat = 0 := by omega
      rw [none, Int.toNat_natCast, pow_zero, Nat.div_one, zpow_natCast]
      push_cast
      exact ⟨le_rfl, lt_add_one _⟩
    · obtain ⟨amount, exponent_eq⟩ :=
        Int.eq_ofNat_of_zero_le (show 0 ≤ -exponent by omega)
      have opposite : exponent = -(amount : Int) := by omega
      have none : exponent.toNat = 0 := by omega
      have some : (-exponent).toNat = amount := by omega
      rw [none, some, pow_zero, mul_one, opposite, zpow_neg, zpow_natCast,
        ← div_eq_mul_inv]
      have unit : (0 : ℚ) < 2 ^ amount := by positivity
      have below := Nat.div_mul_le_self mantissa (2 ^ amount)
      have above := Nat.lt_div_mul_add (a := mantissa)
        (show 0 < 2 ^ amount by positivity)
      rw [le_div_iff₀ unit, div_lt_iff₀ unit]
      constructor
      · exact_mod_cast below
      · rw [add_mul, one_mul]
        exact_mod_cast above

/-- A conversion to `u64` truncates, and saturates at the top. -/
theorem Normal.toUInt64_bounds (normal : Normal x v) :
    (x.toUInt64.toNat : ℚ) ≤ v ∧
      (x.toUInt64.toNat < 2 ^ 64 - 1 → v < x.toUInt64.toNat + 1) := by
  obtain ⟨floor, truncated, atMost, above⟩ :=
    normal.toInt_bounds 0 (UInt64.size - 1)
  unfold UnpackedFloat.toUInt64
  rw [truncated, Int.toNat_natCast]
  unfold UInt64.ofNatClamp
  split
  · rename_i fits
    rw [UInt64.toNat_ofNatLT]
    exact ⟨atMost, fun _ => above⟩
  · rename_i tooLarge
    have saturated : (UInt64.ofNatLT (UInt64.size - 1) (by decide)).toNat =
        2 ^ 64 - 1 :=
      rfl
    rw [saturated]
    have bound : 2 ^ 64 - 1 ≤ floor :=
      (Nat.sub_le _ _).trans (Nat.le_of_not_lt tooLarge)
    have boundQ : ((2 ^ 64 - 1 : Nat) : ℚ) ≤ floor := by exact_mod_cast bound
    exact ⟨boundQ.trans atMost, fun less => absurd less (lt_irrefl _)⟩

/-- `truncated as f64` is below a double that was truncated only if something
was cut off. -/
theorem toFloat_lt_iff {x : Float} {truncated : UInt64}
    (normal : Normal x.toModel.unpack v)
    (atMost : (truncated.toNat : ℚ) ≤ v) (above : v < truncated.toNat + 1) :
    truncated.toFloat < x ↔ (truncated.toNat : ℚ) < v := by
  have unfolded : truncated.toFloat < x ↔
      UnpackedFloat.lt truncated.toFloat.toModel.unpack x.toModel.unpack =
        true := by
    show decide (truncated.toFloat.toModel.lt x.toModel = true) = true ↔ _
    rw [decide_eq_true_eq]
    rfl
  rw [unfolded]
  rcases Nat.eq_zero_or_pos truncated.toNat with zero | positive
  · obtain rfl : truncated = 0 := UInt64.toNat_inj.mp zero
    have valuePositive := normal.positive
    rw [zero_unpack]
    exact iff_of_true normal.zero_lt (by simpa using valuePositive)
  · obtain ⟨w, exact, -, kept, small⟩ := normal_toFloat positive
    rw [exact.lt_iff normal]
    rcases Nat.lt_or_ge truncated.toNat (2 ^ 53) with narrow | wide
    · rw [small narrow]
    · have wideQ : (2 : ℚ) ^ 53 ≤ truncated.toNat := by exact_mod_cast wide
      obtain ⟨value, rfl, whole⟩ := normal.integral (wideQ.trans atMost)
      have same : value = truncated.toNat := by
        have least : truncated.toNat ≤ value := by exact_mod_cast atMost
        have most : value < truncated.toNat + 1 := by exact_mod_cast above
        omega
      rw [same] at whole ⊢
      rw [whole] at kept
      exact iff_of_false (not_lt.mpr kept) (lt_irrefl _)

/-- A count that is at least another one is not below it as a quotient. -/
theorem not_div_toFloat_lt_one {numerator denominator : UInt64}
    (positive : 0 < denominator.toNat) (exact : denominator.toNat < 2 ^ 53)
    (ordered : denominator.toNat ≤ numerator.toNat) :
    ¬(numerator.toFloat / denominator.toFloat < 1.0) := by
  obtain ⟨left, leftNormal, -, kept, small⟩ :=
    normal_toFloat (positive.trans_le ordered)
  obtain ⟨right, rightNormal, -, -, same⟩ := normal_toFloat positive
  have values : right ≤ left := by
    rw [same exact]
    rcases Nat.lt_or_ge numerator.toNat (2 ^ 53) with narrow | wide
    · rw [small narrow]
      exact_mod_cast ordered
    · have least := (surplusBits_bounds (show 2 ^ 52 ≤ numerator.toNat by
        omega)).1
      have width := (Nat.le_log2 (by omega)).mpr wide
      have doubled : 2 ≤ 2 ^ surplusBits numerator.toNat := by
        rw [← Nat.pow_one 2]
        exact Nat.pow_le_pow_right (by decide) (by rw [surplusBits]; omega)
      have grown := Nat.mul_le_mul least doubled
      refine le_trans ?_ kept
      exact_mod_cast exact.le.trans grown
  intro less
  have decided : decide ((Float.Model.pack (UnpackedFloat.div
      Format.binary64 numerator.toFloat.toModel.unpack
      denominator.toFloat.toModel.unpack)).lt (1.0 : Float).toModel = true) =
        true := less
  rw [decide_eq_true_eq, Float.Model.lt,
    leftNormal.not_div_lt_one rightNormal values] at decided
  exact Bool.false_ne_true decided

end Conversions

section Ceilings

variable {v : ℚ}

/-- `x.ceil() as u64` of a positive double is the ceiling, or all that
fits. -/
theorem ceilToUInt64_bounds {x : Float}
    (normal : Normal x.toModel.unpack v) :
    ((ceilToUInt64 x).toNat = 2 ^ 64 - 1 ∨ v ≤ (ceilToUInt64 x).toNat) ∧
      ∀ bound : Nat, v ≤ bound → (ceilToUInt64 x).toNat ≤ bound := by
  obtain ⟨atMost, above⟩ := normal.toUInt64_bounds
  change ((x.toUInt64.toNat : Nat) : ℚ) ≤ v at atMost
  change x.toUInt64.toNat < 2 ^ 64 - 1 → v < (x.toUInt64.toNat : Nat) + 1
    at above
  simp only [ceilToUInt64]
  split
  · rename_i cut
    obtain ⟨fits, less⟩ := cut
    rw [toFloat_lt_iff normal atMost (above fits)] at less
    have next : (x.toUInt64 + 1).toNat = x.toUInt64.toNat + 1 := by
      rw [UInt64.toNat_add]
      exact Nat.mod_eq_of_lt (by simp; omega)
    rw [next]
    refine ⟨.inr (by push_cast; exact (above fits).le), ?_⟩
    intro bound atLeast
    exact Nat.succ_le_of_lt (by exact_mod_cast less.trans_le atLeast)
  · rename_i whole
    refine ⟨?_, fun bound atLeast => by exact_mod_cast atMost.trans atLeast⟩
    rcases Nat.lt_or_ge x.toUInt64.toNat (2 ^ 64 - 1) with fits | full
    · rw [toFloat_lt_iff normal atMost (above fits)] at whole
      exact .inr (not_lt.mp fun less => whole ⟨fits, less⟩)
    · have bound := x.toUInt64.toNat_lt
      exact .inl (by omega)

/-- An infinite product saturates. -/
theorem ceilToUInt64_infinity {x : Float}
    (infinite : x.toModel.unpack = .infinity .positive) :
    (ceilToUInt64 x).toNat = 2 ^ 64 - 1 := by
  have truncated : x.toUInt64 = UInt64.ofNat (2 ^ 64 - 1) := by
    show x.toModel.unpack.toUInt64 = _
    rw [infinite]
    rfl
  unfold ceilToUInt64
  rw [truncated]
  rfl

theorem unpack_mul (left right : Float) :
    (left * right).toModel.unpack = (Float.Model.pack
      (UnpackedFloat.mul Format.binary64 left.toModel.unpack
        right.toModel.unpack)).unpack :=
  rfl

/-- What `(count as f64 * rate).ceil() as u64` is, up to the relative errors
of the conversion and of the product. -/
theorem ceil_mul_bounds {rate : Float} (atLeast : 1.0 ≤ rate) :
    (∀ count : UInt64, 0 < count.toNat →
      (ceilToUInt64 (count.toFloat * rate)).toNat = 2 ^ 64 - 1) ∨
    ∃ value : ℚ, 1 ≤ value ∧ ∀ count : UInt64, 0 < count.toNat →
      ((ceilToUInt64 (count.toFloat * rate)).toNat = 2 ^ 64 - 1 ∨
        count.toNat * value * (1 - 2 ^ (-51 : Int)) ≤
          (ceilToUInt64 (count.toFloat * rate)).toNat) ∧
      (count.toNat < 2 ^ 53 → ∀ bound : Nat,
        count.toNat * value * (1 + 2 ^ (-52 : Int)) ≤ bound →
          (ceilToUInt64 (count.toFloat * rate)).toNat ≤ bound) := by
  rcases unpack_of_one_le atLeast with infinite | ⟨value, large, normal⟩
  · refine .inl fun count positive => ceilToUInt64_infinity ?_
    obtain ⟨converted, exact, -, -, -⟩ := normal_toFloat positive
    rw [unpack_mul, infinite, exact.mul_infinity, unpack_pack_infinity]
  · refine .inr ⟨value, large, fun count positive => ?_⟩
    obtain ⟨converted, exact, close, -, small⟩ := normal_toFloat positive
    have one_le_converted : 1 ≤ converted := by
      rcases Nat.lt_or_ge count.toNat (2 ^ 53) with narrow | wide
      · rw [small narrow]
        exact_mod_cast positive
      · have wideQ : (2 : ℚ) ^ 53 ≤ count.toNat := by exact_mod_cast wide
        calc (1 : ℚ) ≤ 2 ^ 53 * (1 - 2 ^ (-52 : Int)) := by norm_num
          _ ≤ count.toNat * (1 - 2 ^ (-52 : Int)) := by gcongr
          _ ≤ converted := close
    have one_le : 1 ≤ converted * value :=
      one_le_mul_of_one_le_of_one_le one_le_converted large
    obtain ⟨product, below, above, stored⟩ := exact.mul normal one_le
    rw [← unpack_mul] at stored
    constructor
    · rcases stored with ⟨infinite, -⟩ | rounded
      · exact .inl (ceilToUInt64_infinity infinite)
      · refine (ceilToUInt64_bounds rounded).1.imp_right fun reached => ?_
        have errors : (1 : ℚ) - 2 ^ (-51 : Int) ≤
            (1 - 2 ^ (-52 : Int)) * (1 - 2 ^ (-52 : Int)) := by
          norm_num
        calc (count.toNat : ℚ) * value * (1 - 2 ^ (-51 : Int))
            ≤ count.toNat * value *
                ((1 - 2 ^ (-52 : Int)) * (1 - 2 ^ (-52 : Int))) := by gcongr
          _ = count.toNat * (1 - 2 ^ (-52 : Int)) * value *
                (1 - 2 ^ (-52 : Int)) := by ring
          _ ≤ converted * value * (1 - 2 ^ (-52 : Int)) := by gcongr
          _ ≤ product := below
          _ ≤ (ceilToUInt64 (count.toFloat * rate)).toNat := reached
    · intro narrow bound atMost
      rw [small narrow] at above
      have reached := above.trans atMost
      rcases stored with ⟨infinite, huge⟩ | rounded
      · rw [ceilToUInt64_infinity infinite]
        have larger : (2 : ℚ) ^ 64 ≤ 2 ^ 1024 :=
          pow_le_pow_right₀ (by norm_num) (by norm_num)
        have boundN : 2 ^ 64 ≤ bound := by
          exact_mod_cast larger.trans (huge.trans reached)
        omega
      · exact (ceilToUInt64_bounds rounded).2 bound reached

/-- A charge is at least one for each unit. -/
theorem le_ceil_mul {rate : Float} (atLeast : 1.0 ≤ rate) {count : UInt64}
    (positive : 0 < count.toNat) (small : count.toNat ≤ 2 ^ 50) :
    count.toNat ≤ (ceilToUInt64 (count.toFloat * rate)).toNat := by
  rcases ceil_mul_bounds atLeast with infinite | ⟨value, large, charged⟩
  · rw [infinite count positive]
    omega
  · rcases (charged count positive).1 with saturated | reached
    · rw [saturated]
      omega
    · have smallQ : (count.toNat : ℚ) ≤ 2 ^ 50 := by exact_mod_cast small
      have countNonneg : (0 : ℚ) ≤ count.toNat := by positivity
      have close : (count.toNat : ℚ) - 1 <
          count.toNat * value * (1 - 2 ^ (-51 : Int)) := by
        have grown : (count.toNat : ℚ) ≤ count.toNat * value :=
          le_mul_of_one_le_right countNonneg large
        have fraction : (2 : ℚ) ^ (-51 : Int) = 1 / 2 ^ 51 := by norm_num
        rw [fraction]
        nlinarith
      have lessQ := close.trans_le reached
      have lessNat : (count.toNat : ℚ) <
          (ceilToUInt64 (count.toFloat * rate)).toNat + 1 := by
        linarith
      exact Nat.le_of_lt_succ (by exact_mod_cast lessNat)

private theorem scaled_sum_le {parts : List UInt64} {charge : UInt64 → Nat}
    {unit : ℚ} (each : ∀ part ∈ parts, part.toNat * unit ≤ charge part) :
    ((parts.map UInt64.toNat).sum : ℚ) * unit ≤
      ((parts.map charge).sum : Nat) := by
  induction parts with
  | nil => simp
  | cons part parts ih =>
      have first := each part List.mem_cons_self
      have rest := ih fun other member =>
        each other (List.mem_cons_of_mem _ member)
      simp only [List.map_cons, List.sum_cons, Nat.cast_add, add_mul]
      exact add_le_add first rest

/-- The charge for a count is covered by the charges for parts whose sum is a
little more than the count. -/
theorem ceil_mul_le_sum {rate : Float} (atLeast : 1.0 ≤ rate)
    {count : UInt64} {parts : List UInt64} (positive : 0 < count.toNat)
    (narrow : count.toNat < 2 ^ 53)
    (allPositive : ∀ part ∈ parts, 0 < part.toNat)
    (slack : 2 ^ 50 * count.toNat + (parts.map UInt64.toNat).sum ≤
      2 ^ 50 * (parts.map UInt64.toNat).sum) :
    (ceilToUInt64 (count.toFloat * rate)).toNat ≤
      (parts.map fun part =>
        (ceilToUInt64 (part.toFloat * rate)).toNat).sum := by
  by_cases full : ∃ part ∈ parts,
      (ceilToUInt64 (part.toFloat * rate)).toNat = 2 ^ 64 - 1
  · obtain ⟨part, member, saturated⟩ := full
    have one := List.single_le_sum (fun _ _ => Nat.zero_le _) _
      (List.mem_map_of_mem (f := fun part : UInt64 =>
        (ceilToUInt64 (part.toFloat * rate)).toNat) member)
    have bound := (ceilToUInt64 (count.toFloat * rate)).toNat_lt
    omega
  · rcases ceil_mul_bounds atLeast with infinite | ⟨value, large, charged⟩
    · cases parts with
      | nil => simp at slack; omega
      | cons part parts =>
          exact absurd ⟨part, List.mem_cons_self,
            infinite part (allPositive part List.mem_cons_self)⟩ full
    · have lower := @scaled_sum_le parts
        (fun part => (ceilToUInt64 (part.toFloat * rate)).toNat)
        (value * (1 - 2 ^ (-51 : Int))) (by
          intro part member
          rw [← mul_assoc]
          exact (charged part (allPositive part member)).1.resolve_left
            fun saturated => full ⟨part, member, saturated⟩)
      refine (charged count positive).2 narrow _ (le_trans ?_ lower)
      have slackQ : (2 : ℚ) ^ 50 * count.toNat +
          (parts.map UInt64.toNat).sum ≤
            2 ^ 50 * (parts.map UInt64.toNat).sum := by
        exact_mod_cast slack
      have sumNonneg : (0 : ℚ) ≤ (parts.map UInt64.toNat).sum := by positivity
      have widened : (count.toNat : ℚ) * (1 + 2 ^ (-52 : Int)) ≤
          (parts.map UInt64.toNat).sum * (1 - 2 ^ (-51 : Int)) := by
        have fraction : (2 : ℚ) ^ (-52 : Int) = 1 / 2 ^ 52 := by norm_num
        have doubled : (2 : ℚ) ^ (-51 : Int) = 1 / 2 ^ 51 := by norm_num
        rw [fraction, doubled]
        linarith
      calc (count.toNat : ℚ) * value * (1 + 2 ^ (-52 : Int))
          = value * (count.toNat * (1 + 2 ^ (-52 : Int))) := by ring
        _ ≤ value * ((parts.map UInt64.toNat).sum *
              (1 - 2 ^ (-51 : Int))) := by gcongr
        _ = (parts.map UInt64.toNat).sum *
              (value * (1 - 2 ^ (-51 : Int))) := by ring

theorem ceil_mul_mono {rate : Float} (atLeast : 1.0 ≤ rate)
    {count other : UInt64} (positive : 0 < count.toNat)
    (ordered : count.toNat ≤ other.toNat) (small : other.toNat ≤ 2 ^ 50) :
    (ceilToUInt64 (count.toFloat * rate)).toNat ≤
      (ceilToUInt64 (other.toFloat * rate)).toNat := by
  rcases ordered.eq_or_lt with same | less
  · rw [UInt64.toNat_inj.mp same]
  · have single := @ceil_mul_le_sum rate atLeast count [other] positive
      (by omega) (by simp; omega) (by simp; omega)
    simpa using single

/-- Two units are enough to make up for the rounding. -/
theorem ceil_mul_le_parts {rate : Float} (atLeast : 1.0 ≤ rate)
    {count : UInt64} {parts : List UInt64} (positive : 0 < count.toNat)
    (small : count.toNat ≤ 2 ^ 50)
    (allPositive : ∀ part ∈ parts, 0 < part.toNat)
    (slack : count.toNat + 2 ≤ (parts.map UInt64.toNat).sum) :
    (ceilToUInt64 (count.toFloat * rate)).toNat ≤
      (parts.map fun part =>
        (ceilToUInt64 (part.toFloat * rate)).toNat).sum := by
  apply ceil_mul_le_sum atLeast positive (by omega) allPositive
  omega

end Ceilings

end Rust
