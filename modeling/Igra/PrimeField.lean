import Mathlib.Data.Nat.Bitwise
import Mathlib.Algebra.BigOperators.Fin
import Mathlib.Algebra.Field.ZMod
import Mathlib.Tactic.Ring

/-!
# Numbers in a prime field

An equation in the field between expressions that stay below the order is an
equation of natural numbers.  A variable is a bit when it is a root of
`x (x - 1)`, and a sum of bits over powers of two is the number that they
spell.
-/

namespace PrimeField

variable {order : Nat}

section Values

theorem val_of_eq_cast {x : ZMod order} {value : Nat} (below : value < order)
    (same : x = (value : ZMod order)) : x.val = value := by
  rw [same, ZMod.val_natCast_of_lt below]

end Values

section Bits

/-- The field element of a bit. -/
def bit (order : Nat) (isOne : Bool) : ZMod order := (isOne.toNat : ZMod order)

@[simp] theorem bit_true : bit order true = 1 := by
  simp [bit]

@[simp] theorem bit_false : bit order false = 0 := by
  simp [bit]

theorem bit_not (isOne : Bool) : bit order (!isOne) = 1 - bit order isOne := by
  cases isOne with
  | false => simp
  | true => simp

theorem bit_and (left right : Bool) :
    bit order (left && right) = bit order left * bit order right := by
  cases left with
  | false => simp
  | true => simp

theorem bit_xor (left right : Bool) :
    bit order (left ^^ right) =
      bit order left + bit order right -
        2 * bit order left * bit order right := by
  cases left with
  | false => simp
  | true =>
      rw [Bool.true_xor, bit_not, bit_true]
      ring

theorem sum_toNat {length : Nat} (bits : Fin length → Bool) :
    ∑ i, (bits i).toNat * 2 ^ (i : Nat) = Nat.ofBits bits := by
  induction length with
  | zero => simp
  | succ length ih =>
      have doubled : ∀ i : Fin length,
          (bits i.succ).toNat * 2 ^ (i.succ : Nat) =
            2 * (((bits ∘ Fin.succ) i).toNat * 2 ^ (i : Nat)) := by
        intro i
        rw [Fin.val_succ, pow_succ, Function.comp_apply]
        ring
      rw [Fin.sum_univ_succ, Nat.ofBits_succ,
        Finset.sum_congr rfl fun i _ => doubled i, ← Finset.mul_sum, ih,
        Fin.val_zero, pow_zero, mul_one, add_comm]

/-- Bits weighed by powers of two. -/
theorem sum_bit {length : Nat} (bits : Fin length → Bool) :
    ∑ i, bit order (bits i) * 2 ^ (i : Nat) =
      (Nat.ofBits bits : ZMod order) := by
  rw [← sum_toNat]
  push_cast
  rfl

variable [Fact order.Prime]

theorem exists_bit {x : ZMod order} (root : x * (x - 1) = 0) :
    ∃ isOne, x = bit order isOne := by
  rcases mul_eq_zero.mp root with zero | one
  · exact ⟨false, by rw [zero, bit_false]⟩
  · exact ⟨true, by rw [sub_eq_zero.mp one, bit_true]⟩

theorem exists_bits {length : Nat} {xs : Fin length → ZMod order}
    (roots : ∀ i, xs i * (xs i - 1) = 0) :
    ∃ bits : Fin length → Bool, xs = fun i => bit order (bits i) := by
  choose bits same using fun i => exists_bit (roots i)
  exact ⟨bits, funext same⟩

theorem bit_root (isOne : Bool) :
    bit order isOne * (bit order isOne - 1) = 0 := by
  cases isOne with
  | false => simp
  | true => simp

end Bits

end PrimeField
