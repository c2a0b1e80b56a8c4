import Igra.Circom.Monolith
import Igra.Circom.Permutation

/-!
# What the layers compute

Lanes stand for the elements of the Goldilocks field that their values leave.
Each layer of the circuit computes the layer of the permutation on them, but
the bars, which see the values themselves.
-/

namespace Circom

open PrimeField

/-- The elements of the Goldilocks field that lanes stand for. -/
def residues (lanes : Lanes) : Permutation.State :=
  fun lane => ((lanes lane).val : Permutation.Element)

theorem residues_apply (lanes : Lanes) (lane : Fin spongeWidth) :
    residues lanes lane = ((lanes lane).val : Permutation.Element) := rfl

theorem natCast_mod_order {left right : Nat}
    (same : left % order = right % order) :
    (left : Permutation.Element) = right :=
  (ZMod.natCast_eq_natCast_iff' left right order).mpr same

private theorem val_add {x y : Signal} (small : x.val + y.val < scalarOrder) :
    (x + y).val = x.val + y.val :=
  ZMod.val_add_of_lt small

section GlMul

namespace GlMul

theorem val_square {x : Signal} (small : x.val < 2 ^ 66) :
    (x * x).val = x.val * x.val := by
  apply ZMod.val_mul_of_lt
  calc
    x.val * x.val ≤ 2 ^ 66 * 2 ^ 66 := Nat.mul_le_mul small.le small.le
    _ < scalarOrder := by decide

private theorem residue_out {signals : GlMul} {x : Signal}
    (small : x.val < 2 ^ 66)
    (holds : signals.Holds x x) :
    (signals.out.val : Permutation.Element) =
      (x.val : Permutation.Element) ^ 2 := by
  have reduced := natCast_mod_order (GlReduce.out_mod holds)
  rw [val_square small] at reduced
  rw [out, reduced, Nat.cast_mul, pow_two]

theorem out_lt {signals : GlMul} {a b : Signal} (holds : signals.Holds a b) :
    signals.out.val < 2 ^ 64 :=
  (GlReduce.division GlReduce.narrow holds).2.1

/-- From here on the quotient of a square does not fit into 64 bits. -/
def squareBound : Nat := order + 2 ^ 31

theorem lt_squareBound {signals : GlMul} {x : Signal} (small : x.val < 2 ^ 66)
    (holds : signals.Holds x x) : x.val < squareBound := by
  obtain ⟨quotient, remainder, splits⟩ :=
    GlReduce.division GlReduce.narrow holds
  rw [val_square small] at splits
  apply Nat.lt_of_not_le
  intro large
  have square := Nat.mul_le_mul large large
  have product := Nat.mul_le_mul_right order (Nat.le_sub_one_of_lt quotient)
  have apart : (2 ^ 64 - 1) * order + 2 ^ 64 ≤ squareBound * squareBound := by
    decide
  omega

theorem assign_holds {x : Signal} (small : x.val < squareBound) :
    (assign x x).Holds x x := by
  apply GlReduce.assign_holds
  rw [val_square (small.trans (by decide))]
  have square := Nat.mul_le_mul (Nat.le_sub_one_of_lt small)
    (Nat.le_sub_one_of_lt small)
  exact square.trans_lt (by decide)

end GlMul

end GlMul

section Concrete

namespace Concrete

/-- The sum of a row as a number. -/
def sum (round : Fin (nRounds + 1)) (input : Lanes) (row : Fin spongeWidth) :
    Nat :=
  roundConstants round row + ∑ column, (input column).val * mat12 row column

private theorem sum_bound (round : Fin (nRounds + 1)) (row : Fin spongeWidth) :
    roundConstants round row + ∑ column, 2 ^ 66 * mat12 row column <
      2 ^ 64 * order := by
  decide +kernel +revert

variable {round : Fin (nRounds + 1)} {input : Lanes}

theorem sum_lt (small : ∀ lane, (input lane).val < 2 ^ 66)
    (row : Fin spongeWidth) : sum round input row < 2 ^ 64 * order := by
  have terms : ∑ column, (input column).val * mat12 row column ≤
      ∑ column, 2 ^ 66 * mat12 row column := by
    apply Finset.sum_le_sum
    intro column _
    exact Nat.mul_le_mul_right _ (small column).le
  have bound := sum_bound round row
  unfold sum
  omega

/-- A sum does not wrap around the scalar field. -/
theorem val_acc (small : ∀ lane, (input lane).val < 2 ^ 66)
    (row : Fin spongeWidth) :
    (acc round input row).val = sum round input row := by
  apply val_of_eq_cast
  · exact (sum_lt small row).trans (by decide)
  · unfold acc sum
    push_cast
    simp only [ZMod.natCast_zmod_val]

theorem cast_sum (row : Fin spongeWidth) :
    (sum round input row : Permutation.Element) =
      Permutation.concrete round (residues input) row := by
  unfold sum Permutation.concrete residues
  push_cast
  rfl

theorem residues_out {signals : Concrete}
    (small : ∀ lane, (input lane).val < 2 ^ 66)
    (holds : signals.Holds round input) :
    residues signals.out = Permutation.concrete round (residues input) := by
  funext row
  have reduced := natCast_mod_order (GlReduce.out_mod (holds row))
  rw [val_acc small, cast_sum] at reduced
  exact reduced

theorem out_lt {signals : Concrete} (holds : signals.Holds round input)
    (row : Fin spongeWidth) : (signals.out row).val < 2 ^ 64 :=
  (GlReduce.division GlReduce.narrow (holds row)).2.1

theorem assign_holds (small : ∀ lane, (input lane).val < 2 ^ 66) :
    (assign round input).Holds round input := by
  intro row
  apply GlReduce.assign_holds
  rw [val_acc small]
  exact sum_lt small row

theorem out_assign_lt (row : Fin spongeWidth) :
    ((assign round input).out row).val < order := by
  have reduced := @GlReduce.out_assign 64 (acc round input row)
  exact reduced.trans_lt (Nat.mod_lt _ (by decide))

end Concrete

end Concrete

section Bars

namespace Bar

/-- The bits of a byte after the bar. -/
def outBits (bits : Fin 8 → Bool) : Fin 8 → Bool :=
  rotateBitArrayLeft 1 fun j =>
    bits j ^^ (rotateBitArrayLeft 1 (fun j => !bits j) j &&
      rotateBitArrayLeft 2 bits j && rotateBitArrayLeft 3 bits j)

private theorem ofBits_outBits_getLsbD (x : BitVec 8) :
    Nat.ofBits (outBits fun j => x.getLsbD j) =
      (Permutation.sboxByte x).toNat := by
  decide +kernel +revert

private theorem ofBits_outBits (bits : Fin 8 → Bool) :
    Nat.ofBits (outBits bits) =
      (Permutation.sboxByte (BitVec.ofNat 8 (Nat.ofBits bits))).toNat := by
  rw [← ofBits_outBits_getLsbD]
  congr 2
  funext j
  rw [BitVec.getLsbD_ofNat, Nat.testBit_ofBits_lt _ _ j.isLt]
  simp

theorem limbOutBitArrays_eq {signals : Bar} {bools : Fin 8 → Fin 8 → Bool}
    (same : signals.num2BitArrays.out = ofBools bools) :
    signals.limbOutBitArrays = ofBools fun i => outBits (bools i) := by
  unfold limbOutBitArrays
  rw [same]
  simp only [negateBitArrays_ofBools, rotateBitArraysLeft_ofBools,
    and3BitArrays_ofBools, xorBitArrays_ofBools]
  rfl

theorem ofBits_bytes (bools : Fin 8 → Fin 8 → Bool) :
    ∑ i, Nat.ofBits (bools i) * (2 ^ 8) ^ (i : Nat) =
      ∑ i, (BitVec.ofNat 8 (Nat.ofBits (bools i))).toNat * 256 ^ (i : Nat) := by
  apply Finset.sum_congr rfl
  intro i _
  rw [BitVec.toNat_ofNat, Nat.mod_eq_of_lt (Nat.ofBits_lt_two_pow _)]
  rfl

/-- The constraints of a bar leave nothing open: its input has 64 bits and its
output is the S-box of the bytes. -/
theorem val_limbOut {signals : Bar} {limbIn : Signal}
    (holds : signals.Holds limbIn) :
    limbIn.val < 2 ^ 64 ∧
      signals.limbOut.val = Permutation.sbox limbIn.val := by
  obtain ⟨bools, same⟩ := Num2BitArrays.exists_bools holds
  have enters := holds.2
  rw [same, bitArrays2Num_ofBools, ofBits_bytes] at enters
  have below := Permutation.sum_lt fun i =>
    BitVec.ofNat 8 (Nat.ofBits (bools i))
  have value := val_of_eq_cast (below.trans (by decide)) enters.symm
  have leaves : signals.limbOut = bitArrays2Num (ofBools fun i =>
      outBits (bools i)) := by
    rw [limbOut, limbOutBitArrays_eq same]
  rw [bitArrays2Num_ofBools, ofBits_bytes] at leaves
  refine ⟨by rw [value]; exact below, ?_⟩
  have box : Permutation.sbox limbIn.val =
      ∑ i, (BitVec.ofNat 8 (Nat.ofBits (outBits (bools i)))).toNat *
        256 ^ (i : Nat) := by
    unfold Permutation.sbox
    apply Finset.sum_congr rfl
    intro i _
    rw [value, Permutation.byte_sum, ofBits_outBits, BitVec.ofNat_toNat,
      BitVec.setWidth_eq]
  rw [box]
  apply val_of_eq_cast _ leaves
  exact (Permutation.sum_lt _).trans (by decide)

theorem assign_holds {limbIn : Signal} (below : limbIn.val < 2 ^ 64) :
    (assign limbIn).Holds limbIn := by
  constructor
  · intro i j
    rw [assign, Num2BitArrays.out_assign, ofBools, ← bit_not, ← bit_and,
      Bool.and_not_self, bit_false]
  · rw [assign, Num2BitArrays.out_assign, bitArrays2Num_ofBools, ofBits_bytes]
    have bytes : ∀ i : Fin 8, BitVec.ofNat 8
        (Nat.ofBits fun j : Fin 8 => limbIn.val.testBit (8 * i + j)) =
        Permutation.byte limbIn.val i := by
      intro i
      simp only [← Nat.testBit_shiftRight]
      apply BitVec.eq_of_toNat_eq
      rw [Nat.ofBits_testBit, Nat.shiftRight_eq_div_pow, pow_mul,
        Permutation.byte, BitVec.toNat_ofNat, BitVec.toNat_ofNat, Nat.mod_mod]
      rfl
    simp only [bytes]
    rw [Permutation.sum_byte below, ZMod.natCast_zmod_val]

end Bar

namespace Bars

variable {input : Lanes}

/-- The residues behind the bars, which see the values before them. -/
def barred (input : Lanes) : Permutation.State := fun row =>
  if (row : Nat) < nBars then
    (Permutation.sbox (input row).val : Permutation.Element)
  else ((input row).val : Permutation.Element)

theorem val_out_of_lt {signals : Bars} (holds : signals.Holds input)
    {row : Fin spongeWidth} (first : (row : Nat) < nBars) :
    (signals.out input row).val = Permutation.sbox (input row).val := by
  unfold out
  rw [dif_pos first]
  exact (Bar.val_limbOut (holds ⟨row, first⟩)).2

theorem out_of_le (signals : Bars) {row : Fin spongeWidth}
    (rest : ¬(row : Nat) < nBars) :
    signals.out input row = input row := by
  unfold out
  rw [dif_neg rest]

theorem residues_out {signals : Bars} (holds : signals.Holds input) :
    residues (signals.out input) = barred input := by
  funext row
  unfold residues barred
  split
  · rename_i first
    rw [val_out_of_lt holds first]
  · rename_i rest
    rw [out_of_le signals rest]

theorem out_lt {signals : Bars} (small : ∀ row, (input row).val < 2 ^ 64)
    (holds : signals.Holds input) (row : Fin spongeWidth) :
    (signals.out input row).val < 2 ^ 64 := by
  by_cases first : (row : Nat) < nBars
  · rw [val_out_of_lt holds first]
    exact Permutation.sbox_lt _
  · rw [out_of_le signals first]
    exact small row

theorem assign_holds (small : ∀ row, (input row).val < 2 ^ 64) :
    (assign input).Holds input := by
  intro index
  exact Bar.assign_holds (small (row index))

/-- On canonical representatives the bars are those of the permutation. -/
theorem barred_eq {state : Permutation.State}
    (canonical : ∀ row, (input row).val = (state row).val) :
    barred input = Permutation.bars state := by
  funext row
  unfold barred Permutation.bars
  rw [canonical, ZMod.natCast_zmod_val]

end Bars

end Bars

section Bricks

namespace Bricks

variable {input : Lanes}

theorem val_out {signals : Bricks} (small : ∀ lane, (input lane).val < 2 ^ 64)
    (holds : signals.Holds input) (i : Fin 11) :
    (signals.out input i.succ).val =
      (input i.succ).val + (signals.glMul i).out.val := by
  have product := GlMul.out_lt (holds i)
  apply val_add
  calc
    (input i.succ).val + (signals.glMul i).out.val < 2 ^ 64 + 2 ^ 64 :=
      Nat.add_lt_add (small i.succ) product
    _ ≤ scalarOrder := by decide

theorem out_lt {signals : Bricks} (small : ∀ lane, (input lane).val < 2 ^ 64)
    (holds : signals.Holds input) (lane : Fin spongeWidth) :
    (signals.out input lane).val < 2 ^ 65 := by
  cases lane using Fin.cases with
  | zero => exact (small 0).trans (by decide)
  | succ i =>
      have product := GlMul.out_lt (holds i)
      have value := small i.succ
      rw [val_out small holds]
      omega

theorem residues_out {signals : Bricks}
    (small : ∀ lane, (input lane).val < 2 ^ 64)
    (holds : signals.Holds input) :
    residues (signals.out input) = Permutation.bricks (residues input) := by
  funext lane
  cases lane using Fin.cases with
  | zero => rfl
  | succ i =>
      have narrow := (small i.castSucc).trans (show 2 ^ 64 < 2 ^ 66 by decide)
      rw [Permutation.bricks_succ]
      unfold residues
      rw [val_out small holds, Nat.cast_add, GlMul.residue_out narrow (holds i)]

theorem assign_holds
    (small : ∀ i : Fin 11, (input i.castSucc).val < GlMul.squareBound) :
    (assign input).Holds input := by
  intro i
  exact GlMul.assign_holds (small i)

end Bricks

end Bricks

section Monolith

namespace Monolith

@[simp] theorem tmp2_zero (signals : Monolith) :
    signals.tmp2 0 = signals.first.out := rfl

@[simp] theorem tmp2_succ (signals : Monolith) (rc : Fin nRounds) :
    signals.tmp2 rc.succ = (signals.rounds rc).concrete.out := rfl

variable {signals : Monolith} {input : Lanes}

theorem tmp2_lt (holds : signals.Holds input) (rc : Fin (nRounds + 1))
    (lane : Fin spongeWidth) : (signals.tmp2 rc lane).val < 2 ^ 64 := by
  cases rc using Fin.cases with
  | zero => exact Concrete.out_lt holds.1 lane
  | succ rc => exact Concrete.out_lt (holds.2 rc).2.2 lane

theorem tmp0_lt (holds : signals.Holds input) (rc : Fin nRounds)
    (lane : Fin spongeWidth) : (signals.tmp0 rc lane).val < 2 ^ 64 :=
  Bars.out_lt (tmp2_lt holds rc.castSucc) (holds.2 rc).1 lane

theorem tmp1_lt (holds : signals.Holds input) (rc : Fin nRounds)
    (lane : Fin spongeWidth) : (signals.tmp1 rc lane).val < 2 ^ 66 := by
  have bound := Bricks.out_lt (tmp0_lt holds rc) (holds.2 rc).2.1 lane
  exact bound.trans (by decide)

theorem residues_tmp2_zero (small : ∀ lane, (input lane).val < 2 ^ 64)
    (holds : signals.Holds input) :
    residues (signals.tmp2 0) = Permutation.concrete 0 (residues input) := by
  apply Concrete.residues_out _ holds.1
  intro lane
  exact (small lane).trans (by decide)

/-- A round in any signals that satisfy the constraints. -/
theorem residues_tmp2_succ (holds : signals.Holds input) (rc : Fin nRounds) :
    residues (signals.tmp2 rc.succ) =
      Permutation.concrete rc.succ
        (Permutation.bricks (Bars.barred (signals.tmp2 rc.castSucc))) := by
  obtain ⟨bars, bricks, concrete⟩ := holds.2 rc
  have reduced := Concrete.residues_out (tmp1_lt holds rc) concrete
  have bricked := Bricks.residues_out (tmp0_lt holds rc) bricks
  have boxed := Bars.residues_out bars
  calc
    residues (signals.tmp2 rc.succ)
      = Permutation.concrete rc.succ (residues (signals.tmp1 rc)) := reduced
    _ = Permutation.concrete rc.succ
          (Permutation.bricks (residues (signals.tmp0 rc))) := by
        rw [← bricked]
        rfl
    _ = _ := by
        rw [← boxed]
        rfl

end Monolith

end Monolith

end Circom
