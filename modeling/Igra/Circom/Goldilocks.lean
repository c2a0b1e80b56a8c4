import Igra.Circom.ScalarField
import Igra.PrimeField

/-!
# Goldilocks arithmetic in circuits

A template is the record of its signals: `assign` computes them as the witness
generator does, and `Holds` says that they satisfy the constraints.  A signal
that is assigned with `<==` is constrained to what it is assigned; one that is
assigned with `<--` is free but for the constraints that are written out.
-/

namespace Circom

open PrimeField

/-- Order of Goldilocks field. -/
def order : Nat := 18446744069414584321

section LessNBits

structure LessNBits (bits : Nat) where
  tmp1 : Fin bits → Signal
  tmp2 : Fin (bits + 1) → Signal

namespace LessNBits

variable {bits : Nat}

/-- The sums of the bits so far, each over its power of two. -/
def sums (tmp1 : Fin bits → Signal) : Fin (bits + 1) → Signal :=
  Fin.induction 0 fun i sum => tmp1 i * 2 ^ (i : Nat) + sum

private theorem sums_succ (tmp1 : Fin bits → Signal) (i : Fin bits) :
    sums tmp1 i.succ = tmp1 i * 2 ^ (i : Nat) + sums tmp1 i.castSucc := by
  unfold sums
  rw [Fin.induction_succ]

def assign (bits : Nat) (x : Signal) : LessNBits bits where
  tmp1 i := ((x.val >>> (i : Nat) &&& 1 : Nat) : Signal)
  tmp2 := sums fun i => ((x.val >>> (i : Nat) &&& 1 : Nat) : Signal)

def Holds (signals : LessNBits bits) (x : Signal) : Prop :=
  signals.tmp2 0 = 0 ∧
  (∀ i, signals.tmp1 i * (signals.tmp1 i - 1) = 0) ∧
  (∀ i, signals.tmp2 i.succ =
    signals.tmp1 i * 2 ^ (i : Nat) + signals.tmp2 i.castSucc) ∧
  x = signals.tmp2 (Fin.last bits)

theorem last_eq_sum {bits : Nat} {tmp1 : Fin bits → Signal}
    {tmp2 : Fin (bits + 1) → Signal} (starts : tmp2 0 = 0)
    (adds : ∀ i, tmp2 i.succ = tmp1 i * 2 ^ (i : Nat) + tmp2 i.castSucc) :
    tmp2 (Fin.last bits) = ∑ i, tmp1 i * 2 ^ (i : Nat) := by
  induction bits with
  | zero =>
      rw [Fin.sum_univ_zero]
      exact starts
  | succ bits ih =>
      have before := @ih (fun i => tmp1 i.castSucc) (fun i => tmp2 i.castSucc)
        starts (fun i => adds i.castSucc)
      rw [Fin.sum_univ_castSucc, ← Fin.succ_last, adds (Fin.last bits),
        before, add_comm]
      simp only [Fin.val_castSucc, Fin.val_last]

/-- The checked signal is a number that the bits spell. -/
theorem exists_bits {signals : LessNBits bits} {x : Signal}
    (holds : signals.Holds x) :
    ∃ spelled : Fin bits → Bool, x = (Nat.ofBits spelled : Signal) := by
  obtain ⟨starts, roots, adds, ends⟩ := holds
  obtain ⟨spelled, same⟩ := PrimeField.exists_bits roots
  rw [last_eq_sum starts adds, same, sum_bit] at ends
  exact ⟨spelled, ends⟩

theorem val_lt {signals : LessNBits bits} {x : Signal}
    (narrow : 2 ^ bits ≤ scalarOrder) (holds : signals.Holds x) :
    x.val < 2 ^ bits := by
  obtain ⟨spelled, same⟩ := exists_bits holds
  have below := Nat.ofBits_lt_two_pow spelled
  rw [val_of_eq_cast (by omega) same]
  exact below

private theorem shiftRight_and_one (x place : Nat) :
    ((x >>> place &&& 1 : Nat) : Signal) =
      bit scalarOrder (x.testBit place) := by
  rw [bit, Nat.toNat_testBit, Nat.and_one_is_mod, Nat.shiftRight_eq_div_pow]

theorem assign_holds {x : Signal} (below : x.val < 2 ^ bits) :
    (assign bits x).Holds x := by
  have adds : ∀ i, (assign bits x).tmp2 i.succ =
      (assign bits x).tmp1 i * 2 ^ (i : Nat) +
        (assign bits x).tmp2 i.castSucc := by
    intro i
    simp only [assign, sums_succ]
  refine ⟨rfl, ?_, adds, ?_⟩
  · intro i
    simp only [assign, shiftRight_and_one]
    exact bit_root _
  · rw [last_eq_sum rfl adds]
    simp only [assign, shiftRight_and_one]
    rw [sum_bit, Nat.ofBits_testBit, Nat.mod_eq_of_lt below,
      ZMod.natCast_zmod_val]

end LessNBits

end LessNBits

section GlReduce

structure GlReduce (bits : Nat) where
  out : Signal
  tmp0 : Signal
  c0 : LessNBits bits
  c1 : LessNBits 64

namespace GlReduce

variable {bits : Nat}

def assign (bits : Nat) (x : Signal) : GlReduce bits :=
  let r := x.val % order
  let d := (x - (r : Signal)).val / order
  { out := r
    tmp0 := d
    c0 := LessNBits.assign bits d
    c1 := LessNBits.assign 64 r }

def Holds (signals : GlReduce bits) (x : Signal) : Prop :=
  signals.tmp0 * order + signals.out = x ∧
  signals.c0.Holds signals.tmp0 ∧
  signals.c1.Holds signals.out

/-- The signals of a division with the given results. -/
def ofParts (bits : Nat) (d r : Nat) : GlReduce bits where
  out := r
  tmp0 := d
  c0 := LessNBits.assign bits d
  c1 := LessNBits.assign 64 r

private theorem assign_eq (x : Signal) :
    assign bits x = ofParts bits (x.val / order) (x.val % order) := by
  have remainder : ((x.val % order : Nat) : Signal).val = x.val % order :=
    ZMod.val_natCast_of_lt ((Nat.mod_le _ _).trans_lt (ZMod.val_lt x))
  have quotient : (x - ((x.val % order : Nat) : Signal)).val / order =
      x.val / order := by
    rw [ZMod.val_sub (by rw [remainder]; exact Nat.mod_le _ _), remainder]
    unfold order
    omega
  unfold assign ofParts
  dsimp only
  rw [quotient]

theorem ofParts_holds {x : Signal} {d r : Nat} (quotient : d < 2 ^ bits)
    (remainder : r < 2 ^ 64) (splits : d * order + r = x.val) :
    (ofParts bits d r).Holds x := by
  have below := ZMod.val_lt x
  have quotientVal : (d : Signal).val = d := by
    apply ZMod.val_natCast_of_lt
    have least := Nat.le_mul_of_pos_right d (show 0 < order by decide)
    omega
  have remainderVal : (r : Signal).val = r := by
    apply ZMod.val_natCast_of_lt
    omega
  refine ⟨?_, LessNBits.assign_holds ?_, LessNBits.assign_holds ?_⟩
  · have cast := congrArg (Nat.cast : Nat → Signal) splits
    rw [ZMod.natCast_zmod_val] at cast
    push_cast at cast
    exact cast
  · rw [quotientVal]
    exact quotient
  · rw [remainderVal]
    exact remainder

/-- The constraints leave a division with a remainder that is only known to
fit into 64 bits. -/
theorem division {signals : GlReduce bits} {x : Signal}
    (narrow : 2 ^ bits * order + 2 ^ 64 ≤ scalarOrder)
    (holds : signals.Holds x) :
    signals.tmp0.val < 2 ^ bits ∧ signals.out.val < 2 ^ 64 ∧
      signals.tmp0.val * order + signals.out.val = x.val := by
  obtain ⟨splits, quotient, remainder⟩ := holds
  have positive : 0 < order := by decide
  have bitsFit := Nat.le_mul_of_pos_right (2 ^ bits) positive
  have quotientBelow := LessNBits.val_lt (by omega) quotient
  have remainderBelow := LessNBits.val_lt (by omega) remainder
  refine ⟨quotientBelow, remainderBelow, ?_⟩
  have product := Nat.mul_le_mul_right order quotientBelow.le
  symm
  apply val_of_eq_cast (by omega)
  rw [← splits]
  push_cast
  rw [ZMod.natCast_zmod_val, ZMod.natCast_zmod_val]

theorem narrow : 2 ^ 64 * order + 2 ^ 64 ≤ scalarOrder := by
  decide

theorem out_mod {signals : GlReduce 64} {x : Signal}
    (holds : signals.Holds x) :
    signals.out.val % order = x.val % order := by
  obtain ⟨-, -, splits⟩ := division narrow holds
  rw [← splits, Nat.mul_add_mod']

theorem out_assign (x : Signal) :
    (assign bits x).out.val = x.val % order :=
  ZMod.val_natCast_of_lt ((Nat.mod_le _ _).trans_lt (ZMod.val_lt x))

theorem assign_holds {x : Signal} (below : x.val < 2 ^ bits * order) :
    (assign bits x).Holds x := by
  have positive : 0 < order := by decide
  rw [assign_eq]
  apply ofParts_holds
  · exact (Nat.div_lt_iff_lt_mul positive).mpr below
  · exact (Nat.mod_lt _ positive).trans (by decide)
  · rw [mul_comm]
    exact Nat.div_add_mod _ _

/-- The other remainder that passes, when the quotient has one to give. -/
def forge (bits : Nat) (x : Signal) : GlReduce bits :=
  ofParts bits (x.val / order - 1) (x.val % order + order)

theorem out_forge (x : Signal) :
    (forge bits x).out.val = x.val % order + order := by
  have remainder := Nat.mod_lt x.val (show 0 < order by decide)
  have room : order + order ≤ scalarOrder := by decide
  exact ZMod.val_natCast_of_lt (by omega)

theorem forge_holds {x : Signal} (below : x.val < 2 ^ bits * order)
    (large : order ≤ x.val) (small : x.val % order + order < 2 ^ 64) :
    (forge bits x).Holds x := by
  have positive : 0 < order := by decide
  have quotient := (Nat.div_lt_iff_lt_mul positive).mpr below
  have quotientPos := Nat.div_pos large positive
  apply ofParts_holds (by omega) small
  have splits := Nat.div_add_mod x.val order
  rw [Nat.sub_one_mul]
  have least := Nat.le_mul_of_pos_left order quotientPos
  rw [mul_comm order] at splits
  omega

end GlReduce

end GlReduce

section GlMul

structure GlMul where
  cr : GlReduce 64

namespace GlMul

def out (signals : GlMul) : Signal := signals.cr.out

def assign (a b : Signal) : GlMul := ⟨GlReduce.assign 64 (a * b)⟩

def Holds (signals : GlMul) (a b : Signal) : Prop := signals.cr.Holds (a * b)

end GlMul

end GlMul

end Circom
