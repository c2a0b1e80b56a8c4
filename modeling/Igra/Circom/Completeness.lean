import Igra.Circom.Layers

/-!
# The honest witness

What the witness generator computes satisfies the constraints: the bounds of
the layers fit together, so that no sum wraps around the scalar field and every
quotient passes its check.  The honest lanes are the canonical representatives
of the states of the permutation.
-/

namespace Circom

open PrimeField

section Ranges

variable {bits : Nat}

/-- The sums of the bits do not wrap around. -/
def LessNBits.InRange (signals : LessNBits bits) : Prop :=
  ∀ i : Fin bits, (signals.tmp2 i.succ).val =
    (signals.tmp1 i).val * 2 ^ (i : Nat) + (signals.tmp2 i.castSucc).val

/-- The quotient has the bits that its check allows, and the division does not
wrap around. -/
structure GlReduce.InRange (signals : GlReduce bits) : Prop where
  quotient : signals.tmp0.val < 2 ^ bits
  division : (signals.tmp0 * order + signals.out).val =
    signals.tmp0.val * order + signals.out.val
  c0 : signals.c0.InRange
  c1 : signals.c1.InRange

def BitArrays.InRange {nLimbs nBits : Nat} (arrays : BitArrays nLimbs nBits) :
    Prop :=
  (bitArrays2Num arrays).val =
    ∑ i, ∑ j, (arrays i j).val * 2 ^ (nBits * i + j : Nat)

structure Bar.InRange (signals : Bar) : Prop where
  limbIn : BitArrays.InRange signals.num2BitArrays.out
  limbOut : BitArrays.InRange signals.limbOutBitArrays

structure GlMul.InRange (signals : GlMul) (a b : Signal) : Prop where
  product : (a * b).val = a.val * b.val
  cr : signals.cr.InRange

structure Concrete.InRange (signals : Concrete) (round : Fin (nRounds + 1))
    (input : Lanes) : Prop where
  sum : ∀ row, (Concrete.acc round input row).val =
    Concrete.sum round input row
  glReduce : ∀ row, (signals.glReduce row).InRange

/-- No sum and no product of the permutation wraps around the scalar field, and
every quotient passes its check. -/
structure Monolith.InRange (signals : Monolith) (input : Lanes) : Prop where
  first : signals.first.InRange 0 input
  bars : ∀ rc index, ((signals.rounds rc).bars.bar index).InRange
  bricks : ∀ rc i, ((signals.rounds rc).bricks.glMul i).InRange
    (signals.tmp0 rc i.castSucc) (signals.tmp0 rc i.castSucc)
  bricksSum : ∀ rc i, (signals.tmp1 rc i.succ).val =
    (signals.tmp0 rc i.succ).val +
      ((signals.rounds rc).bricks.glMul i).out.val
  concrete : ∀ rc, (signals.rounds rc).concrete.InRange rc.succ
    (signals.tmp1 rc)

theorem bit_val (isOne : Bool) : (bit scalarOrder isOne).val = isOne.toNat := by
  cases isOne with
  | false => rw [bit_false, ZMod.val_zero]; rfl
  | true => rw [bit_true, ZMod.val_one]; rfl

namespace LessNBits

variable {signals : LessNBits bits} {x : Signal}

theorem sum_step (narrow : 2 ^ bits ≤ scalarOrder) (holds : signals.Holds x)
    {i : Fin bits} (before : (signals.tmp2 i.castSucc).val < 2 ^ (i : Nat)) :
    (signals.tmp2 i.succ).val =
        (signals.tmp1 i).val * 2 ^ (i : Nat) + (signals.tmp2 i.castSucc).val ∧
      (signals.tmp2 i.succ).val < 2 ^ (i + 1 : Nat) := by
  obtain ⟨-, roots, adds, -⟩ := holds
  obtain ⟨isOne, same⟩ := exists_bit (roots i)
  have bound : isOne.toNat * 2 ^ (i : Nat) ≤ 1 * 2 ^ (i : Nat) :=
    Nat.mul_le_mul_right _ isOne.toNat_le
  have room : 2 ^ (i + 1 : Nat) ≤ 2 ^ bits :=
    Nat.pow_le_pow_right (by omega) i.isLt
  rw [pow_succ] at room ⊢
  have value : (signals.tmp2 i.succ).val =
      isOne.toNat * 2 ^ (i : Nat) + (signals.tmp2 i.castSucc).val := by
    apply val_of_eq_cast (by omega)
    rw [adds i, same, bit]
    push_cast
    rw [ZMod.natCast_zmod_val]
  refine ⟨?_, by omega⟩
  rw [value, same, bit_val]

/-- The sum so far has no more bits than were added. -/
theorem sum_lt (narrow : 2 ^ bits ≤ scalarOrder) (holds : signals.Holds x)
    (i : Fin (bits + 1)) : (signals.tmp2 i).val < 2 ^ (i : Nat) := by
  induction i using Fin.induction with
  | zero =>
      rw [holds.1, ZMod.val_zero]
      exact Nat.one_pos
  | succ i before => exact (sum_step narrow holds before).2

theorem inRange (narrow : 2 ^ bits ≤ scalarOrder) (holds : signals.Holds x) :
    signals.InRange := by
  intro i
  exact (sum_step narrow holds (sum_lt narrow holds i.castSucc)).1

end LessNBits

theorem GlReduce.inRange {signals : GlReduce 64} {x : Signal}
    (holds : signals.Holds x) : signals.InRange := by
  obtain ⟨quotient, remainder, splits⟩ :=
    GlReduce.division GlReduce.narrow holds
  refine ⟨quotient, ?_, ?_, ?_⟩
  · rw [holds.1, splits]
  · exact LessNBits.inRange (by decide) holds.2.1
  · exact LessNBits.inRange (by decide) holds.2.2

theorem BitArrays.inRange_ofBools (bools : Fin 8 → Fin 8 → Bool) :
    BitArrays.InRange (ofBools bools) := by
  have limb : ∀ i : Fin 8,
      ∑ j, (ofBools bools i j).val * 2 ^ (8 * i + j : Nat) =
        Nat.ofBits (bools i) * (2 ^ 8) ^ (i : Nat) := by
    intro i
    rw [← sum_toNat, Finset.sum_mul]
    apply Finset.sum_congr rfl
    intro j _
    rw [ofBools, bit_val, pow_add, pow_mul]
    ring
  have below := Permutation.sum_lt fun i =>
    BitVec.ofNat 8 (Nat.ofBits (bools i))
  rw [← Bar.ofBits_bytes] at below
  unfold BitArrays.InRange
  simp only [limb]
  exact val_of_eq_cast (below.trans (by decide)) (bitArrays2Num_ofBools bools)

theorem Bar.inRange {signals : Bar} {limbIn : Signal}
    (holds : signals.Holds limbIn) : signals.InRange := by
  obtain ⟨bools, same⟩ := Num2BitArrays.exists_bools holds
  constructor
  · rw [same]
    exact BitArrays.inRange_ofBools bools
  · rw [limbOutBitArrays_eq same]
    exact BitArrays.inRange_ofBools _

theorem GlMul.inRange {signals : GlMul} {x : Signal} (small : x.val < 2 ^ 66)
    (holds : signals.Holds x x) : signals.InRange x x :=
  ⟨val_square small, GlReduce.inRange holds⟩

theorem Concrete.inRange {signals : Concrete} {round : Fin (nRounds + 1)}
    {input : Lanes} (small : ∀ lane, (input lane).val < 2 ^ 66)
    (holds : signals.Holds round input) : signals.InRange round input :=
  ⟨val_acc small, fun row => GlReduce.inRange (holds row)⟩

/-- Nothing wraps around in signals that satisfy the constraints. -/
theorem Monolith.inRange {signals : Monolith} {input : Lanes}
    (small : ∀ lane, (input lane).val < 2 ^ 64)
    (holds : signals.Holds input) : signals.InRange input where
  first := Concrete.inRange
    (fun lane => (small lane).trans (by decide)) holds.1
  bars rc index := Bar.inRange ((holds.2 rc).1 index)
  bricks rc i := GlMul.inRange
    ((tmp0_lt holds rc i.castSucc).trans (by decide)) ((holds.2 rc).2.1 i)
  bricksSum rc i := Bricks.val_out (tmp0_lt holds rc) (holds.2 rc).2.1 i
  concrete rc := Concrete.inRange (tmp1_lt holds rc) (holds.2 rc).2.2

end Ranges

section Assignment

namespace Monolith

variable {divide : Fin (nRounds + 1) → Lanes → Concrete} {input : Lanes}

@[simp] theorem assignTmp2_zero :
    assignTmp2 divide input 0 = (divide 0 input).out := by
  unfold assignTmp2
  exact Fin.induction_zero (motive := fun _ => Lanes) _ _

@[simp] theorem assignTmp2_succ (rc : Fin nRounds) :
    assignTmp2 divide input rc.succ =
      (divide rc.succ
        (assignTmp1 (assignTmp2 divide input rc.castSucc))).out := by
  unfold assignTmp2
  rw [Fin.induction_succ]

/-- The lanes after any layer are what its division leaves. -/
theorem exists_assignTmp2_eq (divide : Fin (nRounds + 1) → Lanes → Concrete)
    (input : Lanes) (rc : Fin (nRounds + 1)) :
    ∃ lanes, assignTmp2 divide input rc = (divide rc lanes).out := by
  cases rc using Fin.cases with
  | zero => exact ⟨_, assignTmp2_zero⟩
  | succ rc => exact ⟨_, assignTmp2_succ rc⟩

theorem tmp2_assignBy (rc : Fin (nRounds + 1)) :
    (assignBy divide input).tmp2 rc = assignTmp2 divide input rc := by
  cases rc using Fin.cases with
  | zero =>
      rw [assignTmp2_zero]
      rfl
  | succ rc =>
      rw [assignTmp2_succ]
      rfl

theorem tmp0_assignBy (rc : Fin nRounds) :
    (assignBy divide input).tmp0 rc =
      assignTmp0 (assignTmp2 divide input rc.castSucc) := by
  rw [tmp0, tmp2_assignBy]
  rfl

private theorem tmp1_assignBy (rc : Fin nRounds) :
    (assignBy divide input).tmp1 rc =
      assignTmp1 (assignTmp2 divide input rc.castSucc) := by
  rw [tmp1, tmp0_assignBy]
  rfl

/-- Lanes from which a round can be completed: the squares have quotients of 64
bits. -/
structure Completes (lanes : Lanes) : Prop where
  small : ∀ lane, (lanes lane).val < 2 ^ 64
  squares : ∀ lane, (assignTmp0 lanes lane).val < GlMul.squareBound

theorem Completes.bars {lanes : Lanes} (completes : Completes lanes) :
    (Bars.assign lanes).Holds lanes :=
  Bars.assign_holds completes.small

theorem Completes.bricks {lanes : Lanes} (completes : Completes lanes) :
    (Bricks.assign (assignTmp0 lanes)).Holds (assignTmp0 lanes) :=
  Bricks.assign_holds fun i => completes.squares i.castSucc

theorem Completes.tmp1_lt {lanes : Lanes} (completes : Completes lanes)
    (lane : Fin spongeWidth) : (assignTmp1 lanes lane).val < 2 ^ 66 := by
  have small := Bars.out_lt completes.small completes.bars
  exact (Bricks.out_lt small completes.bricks lane).trans (by decide)

/-- Signals that are computed in order satisfy the constraints when the
divisions do and every round can be completed. -/
theorem assignBy_holds (first : (divide 0 input).Holds 0 input)
    (completes : ∀ rc : Fin nRounds,
      Completes (assignTmp2 divide input rc.castSucc))
    (divides : ∀ rc : Fin nRounds,
      (divide rc.succ (assignTmp1 (assignTmp2 divide input rc.castSucc))).Holds
        rc.succ (assignTmp1 (assignTmp2 divide input rc.castSucc))) :
    (assignBy divide input).Holds input := by
  refine ⟨first, ?_⟩
  intro rc
  rw [tmp2_assignBy, tmp0_assignBy, tmp1_assignBy]
  exact ⟨(completes rc).bars, (completes rc).bricks, divides rc⟩

theorem assignTmp0_lt_order {lanes : Lanes}
    (canonical : ∀ lane, (lanes lane).val < order) (lane : Fin spongeWidth) :
    (assignTmp0 lanes lane).val < order := by
  have small : ∀ lane, (lanes lane).val < 2 ^ 64 := fun lane =>
    (canonical lane).trans (by decide)
  unfold assignTmp0
  by_cases first : (lane : Nat) < nBars
  · rw [Bars.val_out_of_lt (Bars.assign_holds small) first]
    exact Permutation.sbox_lt_order (canonical lane)
  · rw [Bars.out_of_le _ first]
    exact canonical lane

theorem completes_of_canonical {lanes : Lanes}
    (canonical : ∀ lane, (lanes lane).val < order) : Completes lanes where
  small lane := (canonical lane).trans (by decide)
  squares lane := (assignTmp0_lt_order canonical lane).trans (by decide)

theorem assignTmp2_lt_order (rc : Fin (nRounds + 1))
    (lane : Fin spongeWidth) :
    (assignTmp2 Concrete.assign input rc lane).val < order := by
  obtain ⟨lanes, same⟩ := exists_assignTmp2_eq Concrete.assign input rc
  rw [same]
  exact Concrete.out_assign_lt lane

theorem assign_holds (small : ∀ lane, (input lane).val < 2 ^ 64) :
    (assign input).Holds input := by
  apply assignBy_holds
  · exact Concrete.assign_holds fun lane => (small lane).trans (by decide)
  · intro rc
    exact completes_of_canonical (assignTmp2_lt_order rc.castSucc)
  · intro rc
    have completes : Completes (assignTmp2 Concrete.assign input rc.castSucc) :=
      completes_of_canonical (assignTmp2_lt_order rc.castSucc)
    exact Concrete.assign_holds completes.tmp1_lt

/-- Canonical lanes are those of the states that they stand for. -/
theorem val_eq_of_residues {lanes : Lanes} {state : Permutation.State}
    (canonical : ∀ lane, (lanes lane).val < order)
    (same : residues lanes = state) (lane : Fin spongeWidth) :
    (lanes lane).val = (state lane).val := by
  rw [← same]
  exact (ZMod.val_natCast_of_lt (canonical lane)).symm

/-- The honest lanes after each layer are the canonical representatives of the
states of the permutation. -/
theorem residues_tmp2_assign (small : ∀ lane, (input lane).val < 2 ^ 64)
    (rc : Fin (nRounds + 1)) :
    residues ((assign input).tmp2 rc) =
      Permutation.states (residues input) rc := by
  induction rc using Fin.induction with
  | zero => exact residues_tmp2_zero small (assign_holds small)
  | succ rc before =>
      have canonical : ∀ lane,
          ((assign input).tmp2 rc.castSucc lane).val < order := by
        intro lane
        rw [assign, tmp2_assignBy]
        exact assignTmp2_lt_order rc.castSucc lane
      rw [residues_tmp2_succ (assign_holds small), Permutation.states_succ,
        Bars.barred_eq (val_eq_of_residues canonical before)]

/-- For canonical inputs the honest witness is accepted, nothing in it wraps
around, the values that enter the bars and the squares are canonical, and so
are the outputs, which are those of the permutation. -/
theorem assign_correct (canonical : ∀ lane, (input lane).val < order) :
    (assign input).Holds input ∧
    (assign input).InRange input ∧
    (∀ rc lane, ((assign input).tmp2 rc lane).val < order) ∧
    (∀ rc lane, ((assign input).tmp0 rc lane).val < order) ∧
    ∀ lane, ((assign input).out lane).val =
      (Permutation.permutation (residues input) lane).val := by
  have small : ∀ lane, (input lane).val < 2 ^ 64 := fun lane =>
    (canonical lane).trans (by decide)
  have accepted := assign_holds small
  have reduced : ∀ rc lane, ((assign input).tmp2 rc lane).val < order := by
    intro rc lane
    rw [assign, tmp2_assignBy]
    exact assignTmp2_lt_order rc lane
  refine ⟨accepted, inRange small accepted, reduced, ?_, ?_⟩
  · intro rc lane
    rw [assign, tmp0_assignBy]
    exact assignTmp0_lt_order (assignTmp2_lt_order rc.castSucc) lane
  · exact val_eq_of_residues (reduced (Fin.last nRounds))
      (residues_tmp2_assign small (Fin.last nRounds))

/-- The lanes 0 to 11. -/
def countingLanes : Lanes := fun lane => ((lane : Nat) : Signal)

private theorem countingLanes_lt_order (lane : Fin spongeWidth) :
    (countingLanes lane).val < order := by
  have lanes := lane.isLt
  have value : (countingLanes lane).val = lane :=
    ZMod.val_natCast_of_lt (lanes.trans (by decide))
  rw [value]
  exact lanes.trans (by decide)

theorem assign_correct_countingLanes :
    (assign countingLanes).Holds countingLanes ∧
    ((assign countingLanes).out 0).val =
      (Permutation.permutation (residues countingLanes) 0).val := by
  obtain ⟨accepted, -, -, -, outputs⟩ := assign_correct countingLanes_lt_order
  exact ⟨accepted, outputs 0⟩

end Monolith

end Assignment

end Circom
