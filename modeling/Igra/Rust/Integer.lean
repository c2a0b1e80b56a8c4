import Igra.Rust.Outcome
import Mathlib.Algebra.BigOperators.Group.List.Basic
import Mathlib.Algebra.Ring.Nat
import Mathlib.Order.Defs.LinearOrder

/-!
# Unsigned arithmetic

Arithmetic on `u64` and `u32` is that of a build with overflow checks: a
result that does not fit is a panic.  Each operation is characterised by the
arithmetic of the natural numbers it stands for.
-/

namespace Rust

instance instLinearOrderUInt64 : LinearOrder UInt64 where
  le_refl := UInt64.le_refl
  le_trans _ _ _ := UInt64.le_trans
  le_antisymm _ _ := UInt64.le_antisymm
  le_total := UInt64.le_total
  lt_iff_le_not_ge _ _ := by
    simp only [UInt64.lt_iff_toNat_lt, UInt64.le_iff_toNat_le]
    omega
  toDecidableLE := inferInstance
  toOrd := inferInstance
  toMin := inferInstance
  toMax := inferInstance

variable {ε : Type}

/-- `left + right` on `u64`. -/
def checkedAdd (left right : UInt64) : Outcome ε UInt64 :=
  if left.toNat + right.toNat < 2 ^ 64 then .ok (left + right) else .panic

/-- `left + right` on `u32`. -/
def checkedAdd32 (left right : UInt32) : Outcome ε UInt32 :=
  if left.toNat + right.toNat < 2 ^ 32 then .ok (left + right) else .panic

/-- `left - right` on `u64`. -/
def checkedSub (left right : UInt64) : Outcome ε UInt64 :=
  if right.toNat ≤ left.toNat then .ok (left - right) else .panic

/-- `left * right` on `u64`. -/
def checkedMul (left right : UInt64) : Outcome ε UInt64 :=
  if left.toNat * right.toNat < 2 ^ 64 then .ok (left * right) else .panic

/-- `left / right` on `u64`, which panics on a zero divisor. -/
def checkedDiv (left right : UInt64) : Outcome ε UInt64 :=
  if right = 0 then .panic else .ok (left / right)

/-- `left % right` on `u64`, which panics on a zero divisor. -/
def checkedRem (left right : UInt64) : Outcome ε UInt64 :=
  if right = 0 then .panic else .ok (left % right)

/-- `items.sum::<u64>()`. -/
def checkedSum : List UInt64 → Outcome ε UInt64 :=
  List.foldlM checkedAdd 0

/-- `items.len() as u64`: a vector cannot grow to `2 ^ 64` items. -/
def checkedLength {α : Type} (items : List α) : Outcome ε UInt64 :=
  if items.length < 2 ^ 64 then .ok (UInt64.ofNat items.length) else .panic

theorem exists_toNat_eq {value : Nat} (fits : value < 2 ^ 64) :
    ∃ word : UInt64, word.toNat = value :=
  ⟨UInt64.ofNat value, UInt64.toNat_ofNat_of_lt' fits⟩

@[simp] theorem checkedAdd_eq_ok {left right result : UInt64} :
    (checkedAdd left right : Outcome ε UInt64) = .ok result ↔
      left.toNat + right.toNat = result.toNat := by
  unfold checkedAdd
  have resultBound := result.toNat_lt
  split
  · rename_i fits
    simp only [Except.ok.injEq, ← UInt64.toNat_inj, UInt64.toNat_add]
    omega
  · simp only [Outcome.panic_ne_ok, false_iff]
    omega

@[simp] theorem checkedAdd32_eq_ok {left right result : UInt32} :
    (checkedAdd32 left right : Outcome ε UInt32) = .ok result ↔
      left.toNat + right.toNat = result.toNat := by
  unfold checkedAdd32
  have resultBound := result.toNat_lt
  split
  · rename_i fits
    simp only [Except.ok.injEq, ← UInt32.toNat_inj, UInt32.toNat_add]
    omega
  · simp only [Outcome.panic_ne_ok, false_iff]
    omega

@[simp] theorem checkedSub_eq_ok {left right result : UInt64} :
    (checkedSub left right : Outcome ε UInt64) = .ok result ↔
      left.toNat = right.toNat + result.toNat := by
  unfold checkedSub
  split
  · rename_i fits
    have subtraction :=
      UInt64.toNat_sub_of_le left right (UInt64.le_iff_toNat_le.mpr fits)
    simp only [Except.ok.injEq, ← UInt64.toNat_inj, subtraction]
    omega
  · simp only [Outcome.panic_ne_ok, false_iff]
    omega

@[simp] theorem checkedMul_eq_ok {left right result : UInt64} :
    (checkedMul left right : Outcome ε UInt64) = .ok result ↔
      left.toNat * right.toNat = result.toNat := by
  unfold checkedMul
  have resultBound := result.toNat_lt
  split
  · rename_i fits
    simp only [Except.ok.injEq, ← UInt64.toNat_inj, UInt64.toNat_mul,
      Nat.mod_eq_of_lt fits]
  · simp only [Outcome.panic_ne_ok, false_iff]
    omega

@[simp] theorem checkedDiv_eq_ok {left right result : UInt64} :
    (checkedDiv left right : Outcome ε UInt64) = .ok result ↔
      right.toNat ≠ 0 ∧ left.toNat / right.toNat = result.toNat := by
  have zero : right = 0 ↔ right.toNat = 0 := by
    simp [← UInt64.toNat_inj]
  unfold checkedDiv
  by_cases divisor : right.toNat = 0
  · simp [zero, divisor]
  · simp [zero, divisor, ← UInt64.toNat_inj]

@[simp] theorem checkedRem_eq_ok {left right result : UInt64} :
    (checkedRem left right : Outcome ε UInt64) = .ok result ↔
      right.toNat ≠ 0 ∧ left.toNat % right.toNat = result.toNat := by
  have zero : right = 0 ↔ right.toNat = 0 := by
    simp [← UInt64.toNat_inj]
  unfold checkedRem
  by_cases divisor : right.toNat = 0
  · simp [zero, divisor]
  · simp [zero, divisor, ← UInt64.toNat_inj]

@[simp] theorem checkedLength_eq_ok {α : Type} {items : List α}
    {result : UInt64} :
    (checkedLength items : Outcome ε UInt64) = .ok result ↔
      items.length = result.toNat := by
  unfold checkedLength
  have resultBound := result.toNat_lt
  split
  · rename_i fits
    simp only [Except.ok.injEq, ← UInt64.toNat_inj, UInt64.toNat_ofNat',
      Nat.mod_eq_of_lt fits]
  · simp only [Outcome.panic_ne_ok, false_iff]
    omega

@[simp] theorem checkedAdd_ne_err (left right : UInt64) (error : ε) :
    checkedAdd left right ≠ Outcome.err error := by
  unfold checkedAdd
  split <;> simp

@[simp] theorem checkedSub_ne_err (left right : UInt64) (error : ε) :
    checkedSub left right ≠ Outcome.err error := by
  unfold checkedSub
  split <;> simp

@[simp] theorem checkedMul_ne_err (left right : UInt64) (error : ε) :
    checkedMul left right ≠ Outcome.err error := by
  unfold checkedMul
  split <;> simp

@[simp] theorem checkedLength_ne_err {α : Type} (items : List α)
    (error : ε) : checkedLength items ≠ Outcome.err error := by
  unfold checkedLength
  split <;> simp

@[simp] theorem checkedSum_ne_err (items : List UInt64) (error : ε) :
    checkedSum items ≠ Outcome.err error :=
  Outcome.foldlM_ne_err checkedAdd_ne_err items 0 error

private theorem foldlM_checkedAdd_eq_ok
    {items : List UInt64} {start result : UInt64} :
    (items.foldlM checkedAdd start : Outcome ε UInt64) = .ok result ↔
      start.toNat + (items.map UInt64.toNat).sum = result.toNat := by
  induction items generalizing start with
  | nil => simp [UInt64.toNat_inj]
  | cons item items ih =>
      simp only [List.foldlM_cons, Outcome.bind_eq_ok, checkedAdd_eq_ok, ih,
        List.map_cons, List.sum_cons]
      constructor
      · rintro ⟨middle, first, rest⟩
        omega
      · intro total
        have bound := result.toNat_lt
        refine ⟨UInt64.ofNat (start.toNat + item.toNat), ?_, ?_⟩
        · simp only [UInt64.toNat_ofNat']
          omega
        · simp only [UInt64.toNat_ofNat']
          omega

@[simp] theorem checkedSum_eq_ok {items : List UInt64} {result : UInt64} :
    (checkedSum items : Outcome ε UInt64) = .ok result ↔
      (items.map UInt64.toNat).sum = result.toNat := by
  simp [checkedSum, foldlM_checkedAdd_eq_ok]

end Rust
