import Igra.Circom.ScalarField
import Igra.PrimeField

/-!
# Arrays of bits in circuits

Limbs of bits and the templates that compute with them.  On signals that are
bits the templates compute what their names say.
-/

namespace Circom

open PrimeField

abbrev BitArrays (nLimbs nBits : Nat) := Fin nLimbs → Fin nBits → Signal

variable {nLimbs nBits : Nat}

section Templates

def bitArrays2Num (input : BitArrays nLimbs nBits) : Signal :=
  ∑ i, ∑ j, input i j * 2 ^ (nBits * i + j : Nat)

structure Num2BitArrays (nLimbs nBits : Nat) where
  out : BitArrays nLimbs nBits

namespace Num2BitArrays

def assign (nLimbs nBits : Nat) (input : Signal) :
    Num2BitArrays nLimbs nBits where
  out i j := ((input.val >>> (nBits * i + j : Nat) &&& 1 : Nat) : Signal)

def Holds (signals : Num2BitArrays nLimbs nBits) (input : Signal) : Prop :=
  (∀ i j, signals.out i j * (1 - signals.out i j) = 0) ∧
  bitArrays2Num signals.out = input

end Num2BitArrays

def negateBitArrays (input : BitArrays nLimbs nBits) :
    BitArrays nLimbs nBits :=
  fun i j => 1 - input i j

def rotateBitArrayLeft {Value : Type} (k : Nat) (input : Fin nBits → Value) :
    Fin nBits → Value :=
  fun i => input ⟨(i + nBits - k) % nBits, Nat.mod_lt _ i.pos⟩

def rotateBitArraysLeft (k : Nat) (input : BitArrays nLimbs nBits) :
    BitArrays nLimbs nBits :=
  fun i => rotateBitArrayLeft k (input i)

/-- Assumes all are bit-arrays. -/
def and3BitArrays (in1 in2 in3 : BitArrays nLimbs nBits) :
    BitArrays nLimbs nBits :=
  fun i j => in1 i j * in2 i j * in3 i j

/-- Assumes both are bit-arrays. -/
def xorBitArrays (in1 in2 : BitArrays nLimbs nBits) : BitArrays nLimbs nBits :=
  fun i j => in1 i j + in2 i j - 2 * in1 i j * in2 i j

end Templates

section Booleans

/-- The signals of an array of bits. -/
def ofBools (bools : Fin nLimbs → Fin nBits → Bool) : BitArrays nLimbs nBits :=
  fun i j => bit scalarOrder (bools i j)

@[simp] theorem negateBitArrays_ofBools
    (bools : Fin nLimbs → Fin nBits → Bool) :
    negateBitArrays (ofBools bools) = ofBools fun i j => !bools i j := by
  funext i j
  exact (bit_not _).symm

@[simp] theorem rotateBitArraysLeft_ofBools (k : Nat)
    (bools : Fin nLimbs → Fin nBits → Bool) :
    rotateBitArraysLeft k (ofBools bools) =
      ofBools fun i => rotateBitArrayLeft k (bools i) := rfl

@[simp] theorem and3BitArrays_ofBools
    (bools1 bools2 bools3 : Fin nLimbs → Fin nBits → Bool) :
    and3BitArrays (ofBools bools1) (ofBools bools2) (ofBools bools3) =
      ofBools fun i j => bools1 i j && bools2 i j && bools3 i j := by
  funext i j
  simp only [and3BitArrays, ofBools, bit_and]

@[simp] theorem xorBitArrays_ofBools
    (bools1 bools2 : Fin nLimbs → Fin nBits → Bool) :
    xorBitArrays (ofBools bools1) (ofBools bools2) =
      ofBools fun i j => bools1 i j ^^ bools2 i j := by
  funext i j
  exact (bit_xor _ _).symm

theorem bitArrays2Num_ofBools (bools : Fin nLimbs → Fin nBits → Bool) :
    bitArrays2Num (ofBools bools) =
      ((∑ i, Nat.ofBits (bools i) * (2 ^ nBits) ^ (i : Nat) : Nat) : Signal) := by
  have limb : ∀ i, ∑ j, ofBools bools i j * 2 ^ (nBits * i + j : Nat) =
      (Nat.ofBits (bools i) : Signal) * (2 ^ nBits) ^ (i : Nat) := by
    intro i
    rw [← sum_bit, Finset.sum_mul]
    apply Finset.sum_congr rfl
    intro j _
    rw [ofBools, pow_add, pow_mul]
    ring
  unfold bitArrays2Num
  simp only [limb]
  push_cast
  rfl

namespace Num2BitArrays

theorem exists_bools {signals : Num2BitArrays nLimbs nBits} {input : Signal}
    (holds : signals.Holds input) : ∃ bools, signals.out = ofBools bools := by
  have roots : ∀ i j, signals.out i j * (signals.out i j - 1) = 0 := by
    intro i j
    have root := holds.1 i j
    rw [mul_sub, mul_one, sub_eq_zero] at root ⊢
    exact root.symm
  choose bools same using fun i => PrimeField.exists_bits (roots i)
  exact ⟨bools, funext same⟩

theorem out_assign (input : Signal) :
    (assign nLimbs nBits input).out =
      ofBools fun i j => input.val.testBit (nBits * i + j) := by
  funext i j
  simp only [assign, ofBools, bit, Nat.toNat_testBit, Nat.and_one_is_mod,
    Nat.shiftRight_eq_div_pow]

end Num2BitArrays

end Booleans

end Circom
