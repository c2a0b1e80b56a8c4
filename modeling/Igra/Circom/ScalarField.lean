import Igra.Primality
import Mathlib.Tactic.NormNum.Prime

/-!
# The scalar field of BN254

Signals of a circuit are elements of this field.
-/

namespace Circom

/-- The order of the scalar field of BN254. -/
def scalarOrder : Nat :=
  21888242871839275222246405745257275088548364400416034343698204186575808495617

/-- The order less one is a product of primes, and so on down to factors that
are small. -/
private theorem lucasChecks :
    Primality.lucasCheck 34 12048837557 2 [2, 2, 7, 7, 661, 93001] = true ∧
    Primality.lucasCheck 43 5156902474397 2 [2, 2, 107, 12048837557] = true ∧
    Primality.lucasCheck 51 1670836401704629 2
      [2, 2, 3, 3, 3, 3, 5156902474397] = true ∧
    Primality.lucasCheck 30 639533339 2 [2, 229, 853, 1637] = true ∧
    Primality.lucasCheck 29 405928799 22 [2, 11, 3691, 4999] = true ∧
    Primality.lucasCheck 56 65865678001877903 5
      [2, 83, 379, 1637, 639533339] = true ∧
    Primality.lucasCheck 94 13818364434197438864469338081 3
      [2, 2, 2, 2, 2, 5, 823, 1593227, 65865678001877903] = true ∧
    Primality.lucasCheck 254 scalarOrder 5
      (List.replicate 28 2 ++ [3, 3, 13, 29, 983, 11003, 237073, 405928799,
        1670836401704629, 13818364434197438864469338081]) = true := by
  decide +kernel

private theorem prime_twelveBillion : Nat.Prime 12048837557 := by
  apply Primality.prime_of_lucasCheck _ lucasChecks.1
  norm_num

private theorem prime_fiveTrillion : Nat.Prime 5156902474397 := by
  apply Primality.prime_of_lucasCheck _ lucasChecks.2.1
  simp only [List.forall_mem_cons, List.not_mem_nil, false_imp_iff,
    implies_true, and_true]
  exact ⟨by norm_num, by norm_num, by norm_num, prime_twelveBillion⟩

private theorem prime_quadrillion : Nat.Prime 1670836401704629 := by
  apply Primality.prime_of_lucasCheck _ lucasChecks.2.2.1
  simp only [List.forall_mem_cons, List.not_mem_nil, false_imp_iff,
    implies_true, and_true]
  refine ⟨?_, ?_, ?_, ?_, ?_, ?_, prime_fiveTrillion⟩ <;> norm_num

private theorem prime_sixHundredMillion : Nat.Prime 639533339 := by
  apply Primality.prime_of_lucasCheck _ lucasChecks.2.2.2.1
  norm_num

private theorem prime_fourHundredMillion : Nat.Prime 405928799 := by
  apply Primality.prime_of_lucasCheck _ lucasChecks.2.2.2.2.1
  norm_num

private theorem prime_sixtyFiveQuadrillion : Nat.Prime 65865678001877903 := by
  apply Primality.prime_of_lucasCheck _ lucasChecks.2.2.2.2.2.1
  simp only [List.forall_mem_cons, List.not_mem_nil, false_imp_iff,
    implies_true, and_true]
  refine ⟨?_, ?_, ?_, ?_, prime_sixHundredMillion⟩ <;> norm_num

private theorem prime_thirteenOctillion :
    Nat.Prime 13818364434197438864469338081 := by
  apply Primality.prime_of_lucasCheck _ lucasChecks.2.2.2.2.2.2.1
  simp only [List.forall_mem_cons, List.not_mem_nil, false_imp_iff,
    implies_true, and_true]
  refine ⟨?_, ?_, ?_, ?_, ?_, ?_, ?_, ?_, prime_sixtyFiveQuadrillion⟩ <;>
    norm_num

private theorem scalarOrder_prime : scalarOrder.Prime := by
  apply Primality.prime_of_lucasCheck _ lucasChecks.2.2.2.2.2.2.2
  intro factor member
  rcases List.mem_append.mp member with two | large
  · rw [List.eq_of_mem_replicate two]
    exact Nat.prime_two
  · clear member
    revert factor
    simp only [List.forall_mem_cons, List.not_mem_nil, false_imp_iff,
      implies_true, and_true]
    refine ⟨?_, ?_, ?_, ?_, ?_, ?_, ?_, prime_fourHundredMillion,
      prime_quadrillion, prime_thirteenOctillion⟩ <;> norm_num

instance : Fact scalarOrder.Prime := ⟨scalarOrder_prime⟩

abbrev Signal := ZMod scalarOrder

scoped instance two_atLeastTwo : Nat.AtLeastTwo 2 := ⟨Nat.le_refl 2⟩

end Circom
