import Mathlib.NumberTheory.LucasPrimality
import Mathlib.Data.List.Prime

/-!
# Certificates of primality

A number is prime when some base has order one less than it.  The order is
checked on the prime factors of that number, with powers that are computed by
repeated squaring.
-/

namespace Primality

/-- The power is taken from the binary digits of the exponent, the lowest
first. -/
def powMod (modulus : Nat) : Nat → Nat → Nat → Nat → Nat
  | 0, _, _, result => result % modulus
  | digits + 1, base, exponent, result =>
      powMod modulus digits (base * base % modulus) (exponent / 2)
        (if exponent % 2 = 1 then result * base % modulus else result)

theorem powMod_eq (modulus : Nat) {digits exponent : Nat}
    (fits : exponent < 2 ^ digits) (base result : Nat) :
    powMod modulus digits base exponent result =
      result * base ^ exponent % modulus := by
  induction digits generalizing exponent base result with
  | zero =>
      have isZero : exponent = 0 := by simpa using fits
      rw [powMod, isZero, pow_zero, mul_one]
  | succ digits ih =>
      have halfFits : exponent / 2 < 2 ^ digits := by
        rw [pow_succ] at fits
        omega
      have squares : (base * base % modulus) ^ (exponent / 2) ≡
          base ^ (2 * (exponent / 2)) [MOD modulus] := by
        rw [pow_mul, pow_two]
        exact (Nat.mod_modEq _ _).pow _
      rw [powMod, ih halfFits]
      split
      · rename_i odd
        have splits : exponent = 2 * (exponent / 2) + 1 := by omega
        have step := (Nat.mod_modEq (result * base) modulus).mul squares
        refine step.trans ?_
        conv_rhs => rw [splits, pow_succ]
        rw [mul_assoc, mul_comm base]
      · rename_i even
        have splits : exponent = 2 * (exponent / 2) := by omega
        conv_rhs => rw [splits]
        exact squares.mul_left result

/-- The base to the number less one is 1, and to no quotient of it by one of
the factors. -/
def lucasCheck (digits number base : Nat) (factors : List Nat) : Bool :=
  decide (1 < number ∧ number < 2 ^ digits ∧ factors.prod = number - 1 ∧
    powMod number digits base (number - 1) 1 = 1 ∧
    ∀ factor ∈ factors,
      powMod number digits base ((number - 1) / factor) 1 ≠ 1)

theorem pow_eq_one_iff {number : Nat} (large : 1 < number)
    (base exponent : Nat) :
    (base : ZMod number) ^ exponent = 1 ↔ base ^ exponent % number = 1 := by
  rw [← Nat.cast_pow, ← Nat.cast_one, ZMod.natCast_eq_natCast_iff',
    Nat.mod_eq_of_lt large]

theorem prime_of_lucasCheck {digits number base : Nat} {factors : List Nat}
    (primes : ∀ factor ∈ factors, factor.Prime)
    (checked : lucasCheck digits number base factors = true) :
    number.Prime := by
  obtain ⟨large, fits, product, isOne, notOne⟩ := of_decide_eq_true checked
  have power {exponent : Nat} (below : exponent ≤ number - 1) :
      (base : ZMod number) ^ exponent = 1 ↔
        powMod number digits base exponent 1 = 1 := by
    rw [powMod_eq number (by omega), one_mul, pow_eq_one_iff large]
  apply lucas_primality number (base : ZMod number)
  · exact (power le_rfl).mpr isOne
  · intro divisor isPrime divides
    rw [← product] at divides
    obtain ⟨factor, member, dividesFactor⟩ :=
      (Prime.dvd_prod_iff isPrime.prime).mp divides
    have same : divisor = factor :=
      (Nat.prime_dvd_prime_iff_eq isPrime (primes factor member)).mp
        dividesFactor
    rw [Ne, power (Nat.div_le_self _ _), same]
    exact notOne factor member

end Primality
