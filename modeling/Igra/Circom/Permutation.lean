import Igra.Circom.Constants
import Igra.Circom.Goldilocks
import Mathlib.Algebra.BigOperators.Fin
import Mathlib.LinearAlgebra.Matrix.ToLin

/-!
# The Monolith permutation

The permutation itself, on elements of the Goldilocks field and apart from any
circuit.  The bars work on the bytes of the canonical representatives; every
layer is injective.
-/

namespace Circom

instance : NeZero order := ⟨by decide⟩

namespace Permutation

abbrev Element := ZMod order

abbrev State := Fin spongeWidth → Element

section Sbox

def sboxByte (x : BitVec 8) : BitVec 8 :=
  (x ^^^ (~~~(x.rotateLeft 1) &&& x.rotateLeft 2 &&& x.rotateLeft 3)).rotateLeft
    1

def byte (value : Nat) (place : Fin 8) : BitVec 8 :=
  BitVec.ofNat 8 (value / 256 ^ (place : Nat))

/-- The bytes of a number of 64 bits go through the S-box each. -/
def sbox (value : Nat) : Nat :=
  ∑ place, (sboxByte (byte value place)).toNat * 256 ^ (place : Nat)

private theorem sboxByte_iterate (x : BitVec 8) : sboxByte^[8] x = x := by
  decide +kernel +revert

theorem sboxByte_injective : Function.Injective sboxByte := by
  intro x y same
  have iterated := congrArg sboxByte^[7] same
  rw [← Function.iterate_succ_apply, ← Function.iterate_succ_apply,
    sboxByte_iterate, sboxByte_iterate] at iterated
  exact iterated

theorem sboxByte_eq_zero_iff (x : BitVec 8) : sboxByte x = 0 ↔ x = 0 := by
  have atZero : sboxByte 0 = 0 := by decide
  constructor
  · intro isZero
    exact sboxByte_injective (isZero.trans atZero.symm)
  · rintro rfl
    exact atZero

theorem sboxByte_eq_ones_iff (x : BitVec 8) : sboxByte x = 255 ↔ x = 255 := by
  have atOnes : sboxByte 255 = 255 := by decide
  constructor
  · intro isOnes
    exact sboxByte_injective (isOnes.trans atOnes.symm)
  · rintro rfl
    exact atOnes

/-- A number of 64 bits is the sum of its bytes. -/
theorem sum_byte {value : Nat} (below : value < 2 ^ 64) :
    ∑ place, (byte value place).toNat * 256 ^ (place : Nat) = value := by
  have spelled := congrArg Fin.val
    (finFunctionFinEquiv.apply_symm_apply (⟨value, below⟩ : Fin (256 ^ 8)))
  rw [finFunctionFinEquiv_apply] at spelled
  exact spelled

theorem byte_sum (bytes : Fin 8 → BitVec 8) (place : Fin 8) :
    byte (∑ i, (bytes i).toNat * 256 ^ (i : Nat)) place = bytes place := by
  have read := congrFun (finFunctionFinEquiv.symm_apply_apply
    fun i => (bytes i).toFin) place
  apply BitVec.eq_of_toFin_eq
  rw [← read]
  apply Fin.ext
  rw [finFunctionFinEquiv_symm_apply_val, finFunctionFinEquiv_apply]
  rfl

theorem sum_lt (bytes : Fin 8 → BitVec 8) :
    ∑ i, (bytes i).toNat * 256 ^ (i : Nat) < 2 ^ 64 := by
  have below := (finFunctionFinEquiv fun i => (bytes i).toFin).isLt
  rw [finFunctionFinEquiv_apply] at below
  exact below

theorem sbox_lt (value : Nat) : sbox value < 2 ^ 64 :=
  sum_lt fun place => sboxByte (byte value place)

theorem byte_sbox (value : Nat) (place : Fin 8) :
    byte (sbox value) place = sboxByte (byte value place) :=
  byte_sum (fun place => sboxByte (byte value place)) place

private theorem sbox_injOn {left right : Nat} (leftBelow : left < 2 ^ 64)
    (rightBelow : right < 2 ^ 64) (same : sbox left = sbox right) :
    left = right := by
  have bytes : ∀ place, byte left place = byte right place := by
    intro place
    apply sboxByte_injective
    rw [← byte_sbox, ← byte_sbox, same]
  rw [← sum_byte leftBelow, ← sum_byte rightBelow]
  simp only [bytes]

/-- From the order on, the upper four bytes are ones and the lower four are not
all zero. -/
theorem order_le_iff {value : Nat} (below : value < 2 ^ 64) :
    order ≤ value ↔
      (byte value 4 = 255 ∧ byte value 5 = 255 ∧ byte value 6 = 255 ∧
        byte value 7 = 255) ∧
      ¬(byte value 0 = 0 ∧ byte value 1 = 0 ∧ byte value 2 = 0 ∧
        byte value 3 = 0) := by
  have spelled := sum_byte below
  rw [Fin.sum_univ_eight] at spelled
  simp only [BitVec.toNat_eq]
  have bounds := fun place => (byte value place).isLt
  have bound0 := bounds 0
  have bound1 := bounds 1
  have bound2 := bounds 2
  have bound3 := bounds 3
  have bound4 := bounds 4
  have bound5 := bounds 5
  have bound6 := bounds 6
  have bound7 := bounds 7
  simp at spelled bound0 bound1 bound2 bound3 bound4 bound5 bound6 bound7 ⊢
  unfold order
  omega

theorem order_le_sbox_iff {value : Nat} (below : value < 2 ^ 64) :
    order ≤ sbox value ↔ order ≤ value := by
  rw [order_le_iff (sbox_lt value), order_le_iff below]
  simp only [byte_sbox, sboxByte_eq_zero_iff, sboxByte_eq_ones_iff]

theorem sbox_lt_order {value : Nat} (below : value < order) :
    sbox value < order := by
  have narrow : value < 2 ^ 64 := below.trans (by decide)
  exact Nat.lt_of_not_le fun large =>
    absurd ((order_le_sbox_iff narrow).mp large) (by omega)

end Sbox

section Layers

def bars (state : State) : State := fun lane =>
  if (lane : Nat) < nBars then (sbox (state lane).val : Element)
  else state lane

def bricks (state : State) : State :=
  Fin.cases (state 0) fun lane => state lane.succ + state lane.castSucc ^ 2

def concrete (round : Fin (nRounds + 1)) (state : State) : State := fun row =>
  roundConstants round row + ∑ column, state column * mat12 row column

/-- The states after the first multiplication and after each round. -/
def states (input : State) : Fin (nRounds + 1) → State :=
  Fin.induction (concrete 0 input) fun round state =>
    concrete round.succ (bricks (bars state))

def permutation (input : State) : State := states input (Fin.last nRounds)

@[simp] theorem states_zero (input : State) :
    states input 0 = concrete 0 input := rfl

theorem states_succ (input : State) (round : Fin nRounds) :
    states input round.succ =
      concrete round.succ (bricks (bars (states input round.castSucc))) := by
  unfold states
  rw [Fin.induction_succ]

theorem bricks_succ (state : State) (lane : Fin 11) :
    bricks state lane.succ = state lane.succ + state lane.castSucc ^ 2 := rfl

private theorem val_cast_sbox (x : Element) :
    ((sbox x.val : Nat) : Element).val =
    sbox x.val :=
  ZMod.val_natCast_of_lt (sbox_lt_order (ZMod.val_lt x))

private theorem bars_injective : Function.Injective bars := by
  intro left right same
  funext lane
  have atLane := congrFun same lane
  unfold bars at atLane
  split at atLane
  · have values := congrArg ZMod.val atLane
    rw [val_cast_sbox, val_cast_sbox] at values
    have narrow : ∀ x : Element, x.val < 2 ^ 64 := fun x =>
      (ZMod.val_lt x).trans (by decide)
    exact ZMod.val_injective order
      (sbox_injOn (narrow _) (narrow _) values)
  · exact atLane

theorem bricks_injective : Function.Injective bricks := by
  intro left right same
  funext lane
  induction lane using Fin.induction with
  | zero => exact congrFun same 0
  | succ lane before =>
      have atLane := congrFun same lane.succ
      rw [bricks_succ, bricks_succ, before] at atLane
      exact add_right_cancel atLane

/-- The first row of the inverse of the circulant matrix. -/
def mat12InverseRow : Fin spongeWidth → Nat :=
  ![14868391535953158196, 13278298489594233127, 389999932707070822,
    9782021734907796003, 4829905704463175582, 7567822018949214430,
    14205019324568680367, 15489674211196160593, 17636013826542227504,
    16254215311946436093, 3641486184877122796, 11069068059762973582]

private theorem mat12_inverse (row column : Fin spongeWidth) :
    (∑ i, mat12InverseRow (i - row) * mat12 i column) % order =
      if row = column then 1 else 0 := by
  decide +kernel +revert

private theorem sum_inverse_mat12 (row column : Fin spongeWidth) :
    ∑ i, (mat12InverseRow (i - row) : Element) * mat12 i column =
      if row = column then 1 else 0 := by
  have cast := congrArg (Nat.cast : Nat → Element) (mat12_inverse row column)
  rw [ZMod.natCast_mod] at cast
  push_cast at cast
  exact cast

private theorem sum_mul_sum {Ring : Type} [CommRing Ring] {width : Nat}
    (weights state : Fin width → Ring) (matrix : Fin width → Fin width → Ring) :
    ∑ i, weights i * ∑ column, state column * matrix i column =
      ∑ column, state column * ∑ i, weights i * matrix i column := by
  simp only [Finset.mul_sum]
  rw [Finset.sum_comm]
  apply Finset.sum_congr rfl
  intro column _
  apply Finset.sum_congr rfl
  intro i _
  ring

theorem inverse_sum (state : State) (row : Fin spongeWidth) :
    ∑ i, (mat12InverseRow (i - row) : Element) *
      ∑ column, state column * (mat12 i column : Element) = state row := by
  rw [sum_mul_sum]
  simp only [sum_inverse_mat12]
  simp

theorem concrete_injective (round : Fin (nRounds + 1)) :
    Function.Injective (concrete round) := by
  intro left right same
  have sums : ∀ i, ∑ column, left column * (mat12 i column : Element) =
      ∑ column, right column * (mat12 i column : Element) := by
    intro i
    exact add_left_cancel (congrFun same i)
  funext row
  rw [← inverse_sum left row, ← inverse_sum right row]
  simp only [sums]

/-- States that part at one round stay apart. -/
theorem states_ne {left right : Fin (nRounds + 1) → State}
    {start : Fin (nRounds + 1)} (apart : left start ≠ right start)
    (leftSteps : ∀ round : Fin nRounds, start ≤ round.castSucc →
      left round.succ =
        concrete round.succ (bricks (bars (left round.castSucc))))
    (rightSteps : ∀ round : Fin nRounds, start ≤ round.castSucc →
      right round.succ =
        concrete round.succ (bricks (bars (right round.castSucc))))
    {round : Fin (nRounds + 1)} (later : start ≤ round) :
    left round ≠ right round := by
  induction round using Fin.induction with
  | zero =>
      rw [Fin.le_zero_iff.mp later] at apart
      exact apart
  | succ round ih =>
      rcases Fin.eq_or_lt_of_le later with same | before
      · rw [← same]
        exact apart
      · have earlier := Fin.le_castSucc_iff.mpr before
        rw [leftSteps round earlier, rightSteps round earlier]
        exact ((concrete_injective _).comp
          (bricks_injective.comp bars_injective)).ne (ih earlier)

end Layers

end Permutation

end Circom
