import Mathlib.Algebra.Ring.Nat

/-!
# Double-precision rates

`f64` is Lean's `Float`, whose logical model is the IEEE binary64 format.
-/

namespace Rust

/-- `x.ceil() as u64`: the least integer that is not below `x`, saturating at
both ends of the range and zero on a NaN. -/
def ceilToUInt64 (x : Float) : UInt64 :=
  let truncated := x.toUInt64
  if truncated.toNat < 2 ^ 64 - 1 ∧ truncated.toFloat < x then
    truncated + 1
  else
    truncated

/-- `f64::min`: a NaN operand is ignored. -/
def floatMin (left right : Float) : Float :=
  if left.isNaN then right
  else if right < left then right
  else left

example : ceilToUInt64 1.5 = 2 := by decide +kernel

example : ceilToUInt64 (3.0 : Float) = 3 := by decide +kernel

end Rust
