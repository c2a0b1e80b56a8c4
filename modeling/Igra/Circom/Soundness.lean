import Igra.Circom.Completeness

/-!
# Forged witnesses

A division leaves two remainders of 64 bits when the canonical one is below
`2 ^ 32 - 1`.  The bars see which one it is.  The permutation is sound for the
inputs of which no value that enters a bar can be forged so, and for no others.
-/

namespace Circom

section Forgeable

/-- The other representative of a canonical value has 64 bits, leaves the bar
with another residue, and has a square that can be reduced. -/
def Forgeable (value : Nat) : Prop :=
  value + order < 2 ^ 64 ∧
  Permutation.sbox (value + order) % order ≠ Permutation.sbox value % order ∧
  Permutation.sbox (value + order) < GlMul.squareBound

instance (value : Nat) : Decidable (Forgeable value) :=
  inferInstanceAs (Decidable (_ ∧ _ ∧ _))

/-- The value at a lane that enters the bars of a round can be forged.  The first
sums are as small as the inputs make them; the later ones have large constants
added. -/
structure Exploit (input : Lanes) (rc : Fin nRounds) (lane : Fin spongeWidth) :
    Prop where
  first : (lane : Nat) < nBars
  large : rc = 0 → order ≤ Concrete.sum 0 input lane
  forgeable : Forgeable
    (Permutation.states (residues input) rc.castSucc lane).val

def Exploitable (input : Lanes) : Prop := ∃ rc lane, Exploit input rc lane

/-- A number of 64 bits is one of two representatives. -/
theorem eq_or_eq_add_order {value : Nat} {x : Permutation.Element}
    (small : value < 2 ^ 64) (same : (value : Permutation.Element) = x) :
    value = x.val ∨ value = x.val + order := by
  have remainder : value % order = x.val := by
    rw [← same, ZMod.val_natCast]
  unfold order at *
  omega

end Forgeable

section Sound

namespace Monolith

variable {signals : Monolith} {input : Lanes}

/-- A lane that enters a bar and of which the value cannot be forged leaves the
bar with the right residue. -/
theorem sbox_residue (small : ∀ lane, (input lane).val < 2 ^ 64)
    (holds : signals.Holds input) (safe : ¬Exploitable input)
    {rc : Fin nRounds}
    (before : residues (signals.tmp2 rc.castSucc) =
      Permutation.states (residues input) rc.castSucc)
    {lane : Fin spongeWidth} (first : (lane : Nat) < nBars) :
    (Permutation.sbox (signals.tmp2 rc.castSucc lane).val :
        Permutation.Element) =
      Permutation.sbox
        (Permutation.states (residues input) rc.castSucc lane).val := by
  have below := tmp2_lt holds rc.castSucc lane
  rcases eq_or_eq_add_order below (congrFun before lane) with same | other
  · rw [same]
  · apply natCast_mod_order
    by_contra differ
    apply safe
    refine ⟨rc, lane, first, ?_, ?_, ?_, ?_⟩
    · rintro rfl
      obtain ⟨-, -, splits⟩ :=
        GlReduce.division GlReduce.narrow (holds.1 lane)
      have outer : ∀ lane, (input lane).val < 2 ^ 66 := fun lane =>
        (small lane).trans (by decide)
      rw [Concrete.val_acc outer] at splits
      have value : (signals.first.glReduce lane).out.val =
          (Permutation.states (residues input) 0 lane).val + order := other
      omega
    · rw [← other]
      exact below
    · rw [← other]
      exact differ
    · obtain ⟨bars, bricks, -⟩ := holds.2 rc
      have square : (⟨lane, by unfold nBars at first; omega⟩ :
          Fin 11).castSucc = lane := rfl
      have reducible := GlMul.lt_squareBound
        ((tmp0_lt holds rc _).trans (by decide))
        (bricks ⟨lane, by unfold nBars at first; omega⟩)
      rw [square] at reducible
      rw [← other, ← Bars.val_out_of_lt bars first]
      exact reducible

theorem residues_tmp2 (small : ∀ lane, (input lane).val < 2 ^ 64)
    (holds : signals.Holds input) (safe : ¬Exploitable input)
    (rc : Fin (nRounds + 1)) :
    residues (signals.tmp2 rc) =
      Permutation.states (residues input) rc := by
  induction rc using Fin.induction with
  | zero => exact residues_tmp2_zero small holds
  | succ rc before =>
      have boxed : Bars.barred (signals.tmp2 rc.castSucc) =
          Permutation.bars
            (Permutation.states (residues input) rc.castSucc) := by
        funext lane
        unfold Bars.barred Permutation.bars
        split
        · rename_i first
          exact sbox_residue small holds safe before first
        · exact congrFun before lane
      rw [residues_tmp2_succ holds, Permutation.states_succ, boxed]

end Monolith

end Sound

section Forgery

/-- One row is divided with the other remainder. -/
def Concrete.forge (lane : Fin spongeWidth) (round : Fin (nRounds + 1))
    (input : Lanes) : Concrete where
  glReduce row :=
    if row = lane then GlReduce.forge 64 (acc round input row)
    else GlReduce.assign 64 (acc round input row)

namespace Monolith

/-- The layer whose output enters round `rc` is divided with the other
remainder at one lane. -/
def forgeAt (rc : Fin nRounds) (lane : Fin spongeWidth)
    (round : Fin (nRounds + 1)) (input : Lanes) : Concrete :=
  if round = rc.castSucc then Concrete.forge lane round input
  else Concrete.assign round input

def forge (rc : Fin nRounds) (lane : Fin spongeWidth) (input : Lanes) :
    Monolith :=
  assignBy (forgeAt rc lane) input

end Monolith

namespace Concrete

variable {round : Fin (nRounds + 1)} {input : Lanes} {lane : Fin spongeWidth}

theorem glReduce_forge_self :
    (forge lane round input).glReduce lane =
      GlReduce.forge 64 (acc round input lane) :=
  if_pos rfl

theorem glReduce_forge_of_ne {row : Fin spongeWidth} (other : row ≠ lane) :
    (forge lane round input).glReduce row =
      GlReduce.assign 64 (acc round input row) :=
  if_neg other

theorem forge_holds (small : ∀ lane, (input lane).val < 2 ^ 66)
    (large : order ≤ sum round input lane)
    (second : sum round input lane % order + order < 2 ^ 64) :
    (forge lane round input).Holds round input := by
  intro row
  by_cases same : row = lane
  · rw [same, glReduce_forge_self]
    rw [← val_acc small] at large second
    apply GlReduce.forge_holds _ large second
    rw [val_acc small]
    exact sum_lt small lane
  · rw [glReduce_forge_of_ne same]
    exact assign_holds small row

private theorem out_forge_self :
    ((forge lane round input).out lane).val =
      (acc round input lane).val % order + order := by
  rw [out, glReduce_forge_self]
  exact GlReduce.out_forge _

private theorem out_forge_of_ne {row : Fin spongeWidth} (other : row ≠ lane) :
    ((forge lane round input).out row).val < order := by
  rw [out, glReduce_forge_of_ne other, GlReduce.out_assign]
  exact Nat.mod_lt _ (by decide)

theorem sum_mod (state : Permutation.State)
    (same : Permutation.concrete round (residues input) = state) :
    sum round input lane % order = (state lane).val := by
  rw [← same, ← cast_sum, ZMod.val_natCast]

theorem large_constant (round : Fin (nRounds + 1)) (inner : round ≠ 0)
    (notLast : round ≠ Fin.last nRounds) (row : Fin spongeWidth)
    (first : (row : Nat) < nBars) :
    2 ^ 64 - order ≤ roundConstants round row := by
  revert round row
  decide +kernel

theorem order_le_sum (inner : round ≠ 0) (notLast : round ≠ Fin.last nRounds)
    (first : (lane : Nat) < nBars)
    (second : sum round input lane % order + order < 2 ^ 64) :
    order ≤ sum round input lane := by
  have constant := large_constant round inner notLast lane first
  have atLeast : roundConstants round lane ≤ sum round input lane :=
    Nat.le_add_right _ _
  by_contra below
  rw [Nat.mod_eq_of_lt (by omega)] at second
  unfold order at *
  omega

end Concrete

namespace Monolith

variable {rc : Fin nRounds} {lane : Fin spongeWidth} {input : Lanes}

theorem forgeAt_self (lanes : Lanes) :
    forgeAt rc lane rc.castSucc lanes =
      Concrete.forge lane rc.castSucc lanes :=
  if_pos rfl

theorem forgeAt_of_ne {round : Fin (nRounds + 1)} (other : round ≠ rc.castSucc)
    (lanes : Lanes) :
    forgeAt rc lane round lanes = Concrete.assign round lanes :=
  if_neg other

theorem canonical_of_ne {round : Fin (nRounds + 1)}
    (other : round ≠ rc.castSucc) (row : Fin spongeWidth) :
    (assignTmp2 (forgeAt rc lane) input round row).val < order := by
  obtain ⟨lanes, same⟩ := exists_assignTmp2_eq (forgeAt rc lane) input round
  rw [same, forgeAt_of_ne other]
  exact Concrete.out_assign_lt row

theorem forgeAt_holds (exploit : Exploit input rc lane)
    {round : Fin (nRounds + 1)} {lanes : Lanes}
    (small : ∀ lane, (lanes lane).val < 2 ^ 66)
    (same : round = rc.castSucc → Permutation.concrete round (residues lanes) =
      Permutation.states (residues input) round)
    (first : round = 0 → lanes = input) :
    (forgeAt rc lane round lanes).Holds round lanes := by
  by_cases atForged : round = rc.castSucc
  · subst atForged
    have remainder : Concrete.sum rc.castSucc lanes lane % order =
        (Permutation.states (residues input) rc.castSucc lane).val :=
      Concrete.sum_mod _ (same rfl)
    have second := exploit.forgeable.1
    rw [← remainder] at second
    rw [forgeAt_self]
    apply Concrete.forge_holds small _ second
    by_cases atFirst : rc = 0
    · subst atFirst
      rw [first rfl]
      exact exploit.large rfl
    · apply Concrete.order_le_sum _ _ exploit.first second
      · intro isZero
        exact atFirst (Fin.castSucc_eq_zero_iff.mp isZero)
      · exact (Fin.castSucc_lt_last rc).ne
  · rw [forgeAt_of_ne atForged]
    exact Concrete.assign_holds small

private theorem residues_assignTmp1 {lanes : Lanes}
    (completes : Completes lanes) :
    residues (assignTmp1 lanes) =
      Permutation.bricks (Bars.barred lanes) := by
  have small : ∀ row, (assignTmp0 lanes row).val < 2 ^ 64 :=
    Bars.out_lt completes.small completes.bars
  unfold assignTmp1
  rw [Bricks.residues_out small completes.bricks]
  exact congrArg Permutation.bricks (Bars.residues_out completes.bars)

theorem concrete_assignTmp1 {lanes : Lanes} {round : Fin nRounds}
    (canonical : ∀ row, (lanes row).val < order)
    (before : residues lanes =
      Permutation.states (residues input) round.castSucc) :
    Permutation.concrete round.succ (residues (assignTmp1 lanes)) =
      Permutation.states (residues input) round.succ := by
  rw [residues_assignTmp1 (completes_of_canonical canonical),
    Permutation.states_succ,
    Bars.barred_eq (val_eq_of_residues canonical before)]

/-- Up to the forged layer, and with it, the lanes stand for the states of the
permutation. -/
theorem residues_forge (exploit : Exploit input rc lane)
    (small : ∀ lane, (input lane).val < 2 ^ 64)
    (round : Fin (nRounds + 1)) (early : round ≤ rc.castSucc) :
    residues (assignTmp2 (forgeAt rc lane) input round) =
      Permutation.states (residues input) round := by
  induction round using Fin.induction with
  | zero =>
      have narrow : ∀ lane, (input lane).val < 2 ^ 66 := fun lane =>
        (small lane).trans (by decide)
      rw [assignTmp2_zero]
      exact Concrete.residues_out narrow
        (forgeAt_holds exploit narrow (fun _ => rfl) (fun _ => rfl))
  | succ round ih =>
      have earlier : round.castSucc < rc.castSucc :=
        Fin.castSucc_lt_iff_succ_le.mpr early
      have canonical : ∀ row, (assignTmp2 (forgeAt rc lane) input
          round.castSucc row).val < order := canonical_of_ne earlier.ne
      have states := concrete_assignTmp1 canonical (ih earlier.le)
      have narrow := (completes_of_canonical canonical).tmp1_lt
      rw [assignTmp2_succ, ← states]
      exact Concrete.residues_out narrow
        (forgeAt_holds exploit narrow (fun _ => states)
          (fun isZero => absurd isZero (Fin.succ_ne_zero round)))

/-- The forged value is the other representative. -/
theorem forged_value (exploit : Exploit input rc lane)
    (small : ∀ lane, (input lane).val < 2 ^ 64) :
    (assignTmp2 (forgeAt rc lane) input rc.castSucc lane).val =
      (Permutation.states (residues input) rc.castSucc lane).val + order := by
  have residue := congrFun (residues_forge exploit small _ le_rfl) lane
  obtain ⟨lanes, same⟩ :=
    exists_assignTmp2_eq (forgeAt rc lane) input rc.castSucc
  rw [same, forgeAt_self] at residue ⊢
  have value := @Concrete.out_forge_self rc.castSucc lanes lane
  have remainder := congrArg ZMod.val residue
  rw [residues_apply, value, ZMod.val_natCast, Nat.add_mod_right,
    Nat.mod_mod] at remainder
  rw [value, remainder]

theorem forged_completes (exploit : Exploit input rc lane)
    (small : ∀ lane, (input lane).val < 2 ^ 64) :
    Completes (assignTmp2 (forgeAt rc lane) input rc.castSucc) := by
  have value := forged_value exploit small
  have others : ∀ row, row ≠ lane →
      (assignTmp2 (forgeAt rc lane) input rc.castSucc row).val < order := by
    intro row other
    obtain ⟨lanes, same⟩ :=
      exists_assignTmp2_eq (forgeAt rc lane) input rc.castSucc
    rw [same, forgeAt_self]
    exact Concrete.out_forge_of_ne other
  have narrow : ∀ row,
      (assignTmp2 (forgeAt rc lane) input rc.castSucc row).val < 2 ^ 64 := by
    intro row
    by_cases same : row = lane
    · rw [same, value]
      exact exploit.forgeable.1
    · exact (others row same).trans (by decide)
  refine ⟨narrow, ?_⟩
  intro row
  unfold assignTmp0
  by_cases first : (row : Nat) < nBars
  · rw [Bars.val_out_of_lt (Bars.assign_holds narrow) first]
    by_cases same : row = lane
    · rw [same, value]
      exact exploit.forgeable.2.2
    · exact (Permutation.sbox_lt_order (others row same)).trans (by decide)
  · have other : row ≠ lane := by
      rintro rfl
      exact first exploit.first
    rw [Bars.out_of_le _ first]
    exact (others row other).trans (by decide)

private theorem completes_forge (exploit : Exploit input rc lane)
    (small : ∀ lane, (input lane).val < 2 ^ 64) (round : Fin nRounds) :
    Completes (assignTmp2 (forgeAt rc lane) input round.castSucc) := by
  by_cases same : round = rc
  · rw [same]
    exact forged_completes exploit small
  · apply completes_of_canonical
    exact canonical_of_ne fun atForged => same (Fin.castSucc_inj.mp atForged)

theorem forge_holds (exploit : Exploit input rc lane)
    (small : ∀ lane, (input lane).val < 2 ^ 64) :
    (forge rc lane input).Holds input := by
  apply assignBy_holds
  · exact forgeAt_holds exploit (fun lane => (small lane).trans (by decide))
      (fun _ => rfl) (fun _ => rfl)
  · exact completes_forge exploit small
  · intro round
    apply forgeAt_holds exploit (completes_forge exploit small round).tmp1_lt
    · intro atForged
      have earlier : round.castSucc < rc.castSucc :=
        Fin.castSucc_lt_iff_succ_le.mpr atForged.le
      exact concrete_assignTmp1 (canonical_of_ne earlier.ne)
        (residues_forge exploit small _ earlier.le)
    · intro isZero
      exact absurd isZero (Fin.succ_ne_zero round)

theorem residues_succ_ne (exploit : Exploit input rc lane)
    (small : ∀ lane, (input lane).val < 2 ^ 64) :
    residues ((forge rc lane input).tmp2 rc.succ) ≠
      Permutation.states (residues input) rc.succ := by
  rw [residues_tmp2_succ (forge_holds exploit small), Permutation.states_succ]
  apply ((Permutation.concrete_injective _).comp
    Permutation.bricks_injective).ne
  intro same
  have atLane := congrFun same lane
  unfold Bars.barred Permutation.bars at atLane
  rw [if_pos exploit.first, if_pos exploit.first, forge, tmp2_assignBy,
    forged_value exploit small] at atLane
  exact exploit.forgeable.2.1
    ((ZMod.natCast_eq_natCast_iff' _ _ order).mp atLane)

theorem out_forge_ne (exploit : Exploit input rc lane)
    (small : ∀ lane, (input lane).val < 2 ^ 64) :
    residues (forge rc lane input).out ≠
      Permutation.permutation (residues input) := by
  have steps : ∀ round : Fin nRounds, rc.succ ≤ round.castSucc →
      residues ((forge rc lane input).tmp2 round.succ) =
        Permutation.concrete round.succ (Permutation.bricks (Permutation.bars
          (residues ((forge rc lane input).tmp2 round.castSucc)))) := by
    intro round later
    have other : round.castSucc ≠ rc.castSucc :=
      (Fin.castSucc_lt_iff_succ_le.mpr later).ne'
    have canonical : ∀ row,
        ((forge rc lane input).tmp2 round.castSucc row).val < order := by
      rw [forge, tmp2_assignBy]
      exact canonical_of_ne other
    rw [residues_tmp2_succ (forge_holds exploit small),
      Bars.barred_eq (val_eq_of_residues canonical rfl)]
  exact @Permutation.states_ne
    (fun round => residues ((forge rc lane input).tmp2 round))
    (Permutation.states (residues input)) rc.succ
    (residues_succ_ne exploit small) steps
    (fun round _ => Permutation.states_succ (residues input) round)
    (Fin.last nRounds) (Fin.le_last _)

end Monolith

end Forgery

section Congruence

namespace Monolith

variable {input : Lanes}

theorem congruent_of_safe {signals : Monolith}
    (small : ∀ lane, (input lane).val < 2 ^ 64) (holds : signals.Holds input)
    (safe : ¬Exploitable input) :
    residues signals.out = Permutation.permutation (residues input) :=
  residues_tmp2 small holds safe (Fin.last nRounds)

theorem modEq_iff_residues_eq {left right : Lanes} :
    (∀ lane, (left lane).val ≡ (right lane).val [MOD order]) ↔
      residues left = residues right := by
  rw [funext_iff]
  exact forall_congr' fun lane =>
    (ZMod.natCast_eq_natCast_iff _ _ order).symm

/-- The outputs are determined up to the order for the inputs that cannot be
exploited, and for no others. -/
theorem congruent_iff (small : ∀ lane, (input lane).val < 2 ^ 64) :
    (∀ signals : Monolith, signals.Holds input → ∀ lane,
      (signals.out lane).val ≡ ((assign input).out lane).val [MOD order]) ↔
      ¬Exploitable input := by
  have honest : residues (assign input).out =
      Permutation.permutation (residues input) :=
    residues_tmp2_assign small (Fin.last nRounds)
  constructor
  · rintro congruent ⟨rc, lane, exploit⟩
    apply out_forge_ne exploit small
    rw [← honest]
    exact modEq_iff_residues_eq.mp
      (congruent _ (forge_holds exploit small))
  · intro safe signals holds
    rw [modEq_iff_residues_eq, honest]
    exact congruent_of_safe small holds safe

end Monolith

end Congruence

end Circom
