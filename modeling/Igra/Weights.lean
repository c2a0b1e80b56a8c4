import Mathlib.Algebra.Group.Action.Defs
import Mathlib.Algebra.Order.BigOperators.Group.List
import Mathlib.Algebra.Order.Field.Rat
import Mathlib.Tactic.Linarith
import Mathlib.Tactic.Positivity
import Mathlib.Tactic.Ring

/-!
# Affine weights

The weight of a record is affine in the number of its inputs, in its outputs
and in the bytes of its payload.  It is scaled and rounded, and the larger of
two such weights counts.  Because the fixed part is not paid for once more with
each input, a record weighs less than its inputs would one by one.
-/

namespace Weights

/-- What the weight of a record depends on: the number of inputs, the size of
each output and the size of the payload. -/
structure Shape where
  inputs : Nat
  outputs : List Nat
  payload : Nat

/-- A record with as many outputs of one size. -/
def Shape.uniform (inputs count size payload : Nat) : Shape :=
  ⟨inputs, List.replicate count size, payload⟩

structure Affine where
  base : Nat
  perInput : Nat
  perOutput : Nat → Nat
  perByte : Nat
  grows : Monotone perOutput

namespace Affine

variable (affine : Affine)

def outputsWeight (outputs : List Nat) : Nat :=
  (outputs.map affine.perOutput).sum

def weigh (shape : Shape) : Nat :=
  affine.base + affine.perInput * shape.inputs +
    affine.outputsWeight shape.outputs + affine.perByte * shape.payload

variable {affine}

theorem outputsWeight_replicate (count size : Nat) :
    affine.outputsWeight (List.replicate count size) =
      count * affine.perOutput size := by
  simp [outputsWeight]

theorem outputsWeight_le {outputs : List Nat} {count widest : Nat}
    (few : outputs.length ≤ count)
    (narrow : ∀ size ∈ outputs, size ≤ widest) :
    affine.outputsWeight outputs ≤ count * affine.perOutput widest := by
  have each : ∀ weight ∈ outputs.map affine.perOutput,
      weight ≤ affine.perOutput widest := by
    intro weight member
    obtain ⟨size, inOutputs, rfl⟩ := List.mem_map.mp member
    exact affine.grows (narrow size inOutputs)
  have total := List.sum_le_card_nsmul _ _ each
  rw [List.length_map, smul_eq_mul] at total
  exact total.trans (Nat.mul_le_mul_right _ few)

variable {outputs : List Nat} {count widest payload : Nat}

theorem weigh_le_uniform (inputs : Nat) (few : outputs.length ≤ count)
    (narrow : ∀ size ∈ outputs, size ≤ widest) :
    affine.weigh ⟨inputs, outputs, payload⟩ ≤
      affine.weigh (.uniform inputs count widest payload) := by
  have outputsBound := @outputsWeight_le affine _ _ _ few narrow
  simp only [weigh, Shape.uniform, outputsWeight_replicate]
  omega

/-- Each input beyond the first saves the fixed part. -/
theorem weigh_sublinear {inputs : Nat} (several : 2 ≤ inputs)
    (few : outputs.length ≤ 2) (some : 0 < count)
    (narrow : ∀ size ∈ outputs, size ≤ widest) :
    affine.weigh ⟨inputs, outputs, payload⟩ + (inputs - 1) * affine.base ≤
      inputs * affine.weigh (.uniform 1 count widest payload) := by
  obtain ⟨more, rfl⟩ := Nat.exists_eq_add_of_le several
  have outputsBound := @outputsWeight_le affine _ _ _ few narrow
  have atLeastOne : affine.perOutput widest ≤
      count * affine.perOutput widest :=
    Nat.le_mul_of_pos_left _ some
  have outputsAgain :=
    Nat.zero_le (more * (count * affine.perOutput widest))
  have payloadAgain :=
    Nat.zero_le ((more + 1) * (affine.perByte * payload))
  have subtraction : 2 + more - 1 = more + 1 := by omega
  simp only [weigh, Shape.uniform, outputsWeight_replicate, Nat.mul_one]
  rw [subtraction]
  linarith

theorem weigh_more_inputs (inputs added : Nat) (few : outputs.length ≤ count)
    (narrow : ∀ size ∈ outputs, size ≤ widest) :
    affine.weigh ⟨inputs + added, outputs, payload⟩ ≤
      affine.weigh (.uniform inputs count widest payload) +
        affine.perInput * added := by
  have outputsBound := @outputsWeight_le affine _ _ _ few narrow
  simp only [weigh, Shape.uniform, outputsWeight_replicate, Nat.mul_add]
  omega

theorem base_le_weigh (shape : Shape) : affine.base ≤ affine.weigh shape := by
  unfold weigh
  omega

end Affine

/-- Multiplication by a cofactor, rounded to an integer one way or the
other. -/
structure Scaling where
  scale : Nat → Nat
  cofactor : ℚ
  cofactor_nonneg : 0 ≤ cofactor
  grows : Monotone scale
  above : ∀ weight, (scale weight : ℚ) ≤ cofactor * weight + 1
  below : ∀ weight, cofactor * weight ≤ scale weight + 1

/-- A weight to which each input adds a constant, in units that are scaled to
the common one.  The fixed part makes up for the rounding. -/
structure Component where
  affine : Affine
  extraPerInput : Nat
  factor : Nat
  scaling : Scaling
  fixed : 5 ≤ scaling.cofactor * (factor * affine.base : Nat)

namespace Component

variable (component : Component)

def raw (shape : Shape) : Nat :=
  component.factor * (component.affine.weigh shape +
    component.extraPerInput * shape.inputs)

def weigh (shape : Shape) : Nat :=
  component.scaling.scale (component.raw shape)

/-- What an input adds, before it is rounded. -/
def pricePerInput : ℚ :=
  component.scaling.cofactor *
    (component.factor * (component.affine.perInput +
      component.extraPerInput) : Nat)

variable {component} {outputs : List Nat} {count widest payload : Nat}

theorem raw_le_uniform (inputs : Nat) (few : outputs.length ≤ count)
    (narrow : ∀ size ∈ outputs, size ≤ widest) :
    component.raw ⟨inputs, outputs, payload⟩ ≤
      component.raw (.uniform inputs count widest payload) :=
  Nat.mul_le_mul_left _
    (Nat.add_le_add_right (Affine.weigh_le_uniform inputs few narrow) _)

theorem weigh_le_uniform (inputs : Nat) (few : outputs.length ≤ count)
    (narrow : ∀ size ∈ outputs, size ≤ widest) :
    component.weigh ⟨inputs, outputs, payload⟩ ≤
      component.weigh (.uniform inputs count widest payload) :=
  component.scaling.grows (raw_le_uniform inputs few narrow)

theorem raw_le_inputs {fewer inputs : Nat} (ordered : fewer ≤ inputs) :
    component.raw ⟨fewer, outputs, payload⟩ ≤
      component.raw ⟨inputs, outputs, payload⟩ := by
  have affine := Nat.mul_le_mul_left component.affine.perInput ordered
  have extra := Nat.mul_le_mul_left component.extraPerInput ordered
  apply Nat.mul_le_mul_left
  simp only [Affine.weigh]
  omega

theorem pricePerInput_nonneg : 0 ≤ component.pricePerInput :=
  mul_nonneg component.scaling.cofactor_nonneg (Nat.cast_nonneg _)

theorem four_le_weigh (shape : Shape) : 4 ≤ component.weigh shape := by
  have least : component.factor * component.affine.base ≤
      component.raw shape :=
    Nat.mul_le_mul_left _
      ((Affine.base_le_weigh shape).trans (Nat.le_add_right _ _))
  have leastQ : ((component.factor * component.affine.base : Nat) : ℚ) ≤
      component.raw shape := by
    exact_mod_cast least
  have scaled := mul_le_mul_of_nonneg_left leastQ
    component.scaling.cofactor_nonneg
  have below := component.scaling.below (component.raw shape)
  have fixed := component.fixed
  have boundQ : (4 : ℚ) ≤ component.weigh shape := by
    unfold weigh
    linarith
  exact_mod_cast boundQ

theorem raw_sublinear {inputs : Nat} (several : 2 ≤ inputs)
    (few : outputs.length ≤ 2) (some : 0 < count)
    (narrow : ∀ size ∈ outputs, size ≤ widest) :
    component.raw ⟨inputs, outputs, payload⟩ +
        (inputs - 1) * (component.factor * component.affine.base) ≤
      inputs * component.raw (.uniform 1 count widest payload) := by
  have weights := Nat.mul_le_mul_left component.factor
    (@Affine.weigh_sublinear component.affine _ _ _ payload _ several few some
      narrow)
  have inputs_eq : (Shape.uniform 1 count widest payload).inputs = 1 := rfl
  unfold raw
  rw [inputs_eq]
  nlinarith

theorem weigh_sublinear {inputs : Nat} (several : 2 ≤ inputs)
    (few : outputs.length ≤ 2) (some : 0 < count)
    (narrow : ∀ size ∈ outputs, size ≤ widest) :
    component.weigh ⟨inputs, outputs, payload⟩ + 2 ≤
      inputs * component.weigh (.uniform 1 count widest payload) := by
  have raws := @raw_sublinear component _ _ _ payload _ several few some
    narrow
  have rawsQ : (component.raw ⟨inputs, outputs, payload⟩ : ℚ) +
      (inputs - 1) * (component.factor * component.affine.base : Nat) ≤
        inputs * component.raw (.uniform 1 count widest payload) := by
    have cast : ((inputs - 1 : Nat) : ℚ) = inputs - 1 := by
      push_cast [Nat.cast_sub (show 1 ≤ inputs by omega)]
      ring
    rw [← cast]
    exact_mod_cast raws
  have scaled := mul_le_mul_of_nonneg_left rawsQ
    component.scaling.cofactor_nonneg
  have above := component.scaling.above
    (component.raw ⟨inputs, outputs, payload⟩)
  have below := component.scaling.below
    (component.raw (.uniform 1 count widest payload))
  have severalQ : (2 : ℚ) ≤ inputs := by exact_mod_cast several
  have fixed := mul_le_mul_of_nonneg_left component.fixed
    (show (0 : ℚ) ≤ inputs - 1 by linarith)
  have belowAll := mul_le_mul_of_nonneg_left below
    (show (0 : ℚ) ≤ inputs by linarith)
  have boundQ : (component.weigh ⟨inputs, outputs, payload⟩ : ℚ) + 2 ≤
      inputs * component.weigh (.uniform 1 count widest payload) := by
    unfold weigh
    linarith
  exact_mod_cast boundQ

theorem weigh_more_inputs {inputs added price : Nat} (some : 0 < added)
    (few : outputs.length ≤ count)
    (narrow : ∀ size ∈ outputs, size ≤ widest)
    (covered : component.pricePerInput + 4 ≤ price) :
    component.weigh ⟨inputs + added, outputs, payload⟩ + 2 ≤
      component.weigh (.uniform inputs count widest payload) +
        added * price := by
  have weights := @Affine.weigh_more_inputs component.affine _ _ _ payload
    inputs added few narrow
  have raws : component.raw ⟨inputs + added, outputs, payload⟩ ≤
      component.raw (.uniform inputs count widest payload) +
        added * (component.factor * (component.affine.perInput +
          component.extraPerInput)) := by
    have factored := Nat.mul_le_mul_left component.factor weights
    have inputs_eq :
        (Shape.uniform inputs count widest payload).inputs = inputs := rfl
    unfold raw
    rw [inputs_eq]
    nlinarith
  have rawsQ : (component.raw ⟨inputs + added, outputs, payload⟩ : ℚ) ≤
      component.raw (.uniform inputs count widest payload) +
        added * (component.factor * (component.affine.perInput +
          component.extraPerInput) : Nat) := by
    exact_mod_cast raws
  have scaled := mul_le_mul_of_nonneg_left rawsQ
    component.scaling.cofactor_nonneg
  have above := component.scaling.above
    (component.raw ⟨inputs + added, outputs, payload⟩)
  have below := component.scaling.below
    (component.raw (.uniform inputs count widest payload))
  have someQ : (1 : ℚ) ≤ added := by exact_mod_cast some
  have prices := mul_le_mul_of_nonneg_left covered
    (show (0 : ℚ) ≤ added by linarith)
  unfold pricePerInput at prices
  have boundQ : (component.weigh ⟨inputs + added, outputs, payload⟩ : ℚ) +
      2 ≤ component.weigh (.uniform inputs count widest payload) +
        added * price := by
    unfold weigh
    linarith
  exact_mod_cast boundQ

end Component

/-- The larger of two weights counts. -/
structure Measure where
  first : Component
  second : Component

namespace Measure

variable (measure : Measure)

def weigh (shape : Shape) : Nat :=
  max (measure.first.weigh shape) (measure.second.weigh shape)

/-- Neither weight exceeds the bound, before it is scaled or after. -/
structure Within (bound : Nat) (shape : Shape) : Prop where
  first : measure.first.raw shape ≤ bound
  second : measure.second.raw shape ≤ bound
  scaled : measure.weigh shape ≤ bound

variable {measure} {outputs : List Nat} {count widest payload : Nat}

theorem four_le_weigh (shape : Shape) : 4 ≤ measure.weigh shape :=
  (measure.first.four_le_weigh shape).trans (Nat.le_max_left _ _)

/-- A record weighs no more than one with as many of the widest outputs. -/
theorem weigh_le_uniform (inputs : Nat) (few : outputs.length ≤ count)
    (narrow : ∀ size ∈ outputs, size ≤ widest) :
    measure.weigh ⟨inputs, outputs, payload⟩ ≤
      measure.weigh (.uniform inputs count widest payload) := by
  have first := @Component.weigh_le_uniform measure.first _ _ _ payload inputs
    few narrow
  have second := @Component.weigh_le_uniform measure.second _ _ _ payload
    inputs few narrow
  unfold weigh
  omega

theorem Within.of_uniform {bound inputs : Nat}
    (within : measure.Within bound (.uniform inputs count widest payload))
    (few : outputs.length ≤ count)
    (narrow : ∀ size ∈ outputs, size ≤ widest) :
    measure.Within bound ⟨inputs, outputs, payload⟩ where
  first := (Component.raw_le_uniform inputs few narrow).trans within.first
  second := (Component.raw_le_uniform inputs few narrow).trans within.second
  scaled := (weigh_le_uniform inputs few narrow).trans within.scaled

/-- What holds of a record holds of one with fewer inputs. -/
theorem Within.of_inputs_le {bound inputs fewer : Nat}
    (within : measure.Within bound ⟨inputs, outputs, payload⟩)
    (ordered : fewer ≤ inputs) :
    measure.Within bound ⟨fewer, outputs, payload⟩ := by
  have first := @Component.raw_le_inputs measure.first outputs payload _ _
    ordered
  have second := @Component.raw_le_inputs measure.second outputs payload _ _
    ordered
  exact ⟨first.trans within.first, second.trans within.second,
    (max_le_max (measure.first.scaling.grows first)
      (measure.second.scaling.grows second)).trans within.scaled⟩

/-- Several inputs weigh less than as many records with one of them. -/
theorem weigh_sublinear {inputs : Nat} (several : 2 ≤ inputs)
    (few : outputs.length ≤ 2) (some : 0 < count)
    (narrow : ∀ size ∈ outputs, size ≤ widest) :
    measure.weigh ⟨inputs, outputs, payload⟩ + 2 ≤
      inputs * measure.weigh (.uniform 1 count widest payload) := by
  unfold weigh
  have first := @Component.weigh_sublinear measure.first _ _ _ payload _
    several few some narrow
  have second := @Component.weigh_sublinear measure.second _ _ _ payload _
    several few some narrow
  generalize measure.first.weigh (.uniform 1 count widest payload) = left
    at first
  generalize measure.second.weigh (.uniform 1 count widest payload) = right
    at second
  have larger := Nat.mul_le_mul_left inputs (Nat.le_max_left left right)
  have other := Nat.mul_le_mul_left inputs (Nat.le_max_right left right)
  omega

/-- Added inputs weigh less than a price that covers each of them. -/
theorem weigh_more_inputs {inputs added price : Nat} (some : 0 < added)
    (few : outputs.length ≤ count)
    (narrow : ∀ size ∈ outputs, size ≤ widest)
    (coversFirst : measure.first.pricePerInput + 4 ≤ price)
    (coversSecond : measure.second.pricePerInput + 4 ≤ price) :
    measure.weigh ⟨inputs + added, outputs, payload⟩ + 2 ≤
      measure.weigh (.uniform inputs count widest payload) +
        added * price := by
  have first := @Component.weigh_more_inputs measure.first _ _ _ payload
    inputs _ _ some few narrow coversFirst
  have second := @Component.weigh_more_inputs measure.second _ _ _ payload
    inputs _ _ some few narrow coversSecond
  unfold weigh
  omega

end Measure

end Weights
