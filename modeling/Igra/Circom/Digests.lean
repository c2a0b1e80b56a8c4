import Igra.Circom.Soundness

/-!
# Digests

A block that is absorbed after another one holds representatives of the state
before, which need not be canonical.  A digest is determined up to the order
when none of the blocks that can be absorbed can be exploited.
-/

namespace Circom

section Blocks

variable {nInputs : Nat}

/-- The input that a block takes at a lane. -/
def absorbedInput (input : Fin nInputs → Signal) (i : Nat)
    (j : Fin spongeWidth) : Option Signal :=
  if inside : (j : Nat) < spongeRate ∧ i * spongeRate + j < nInputs then
    some (input ⟨_, inside.2⟩)
  else none

/-- The blocks that a prover can have absorbed when the blocks before were
permuted as they should. -/
def Absorbable (input : Fin nInputs → Signal) : Nat → Lanes → Prop
  | 0, block => ∀ j, block j = (absorbedInput input 0 j).getD 0
  | i + 1, block => ∃ before, Absorbable input i before ∧ ∀ j,
      match absorbedInput input (i + 1) j with
      | some x => block j = x
      | none => (block j).val < 2 ^ 64 ∧
          ((block j).val : Permutation.Element) =
            Permutation.permutation (residues before) j

/-- No block that can be absorbed can be exploited. -/
def SafeMessage (input : Fin nInputs → Signal) : Prop :=
  ∀ i < nHash nInputs, ∀ block, Absorbable input i block → ¬Exploitable block

variable {input : Fin nInputs → Signal}

private theorem val_of_absorbedInput (canonical : ∀ i, (input i).val < order)
    {i : Nat} {j : Fin spongeWidth} {x : Signal}
    (taken : absorbedInput input i j = some x) : x.val < order := by
  unfold absorbedInput at taken
  split at taken
  · cases taken
    exact canonical _
  · cases taken

theorem Absorbable.small (canonical : ∀ i, (input i).val < order) {i : Nat}
    {block : Lanes} (absorbable : Absorbable input i block)
    (j : Fin spongeWidth) : (block j).val < 2 ^ 64 := by
  cases i with
  | zero =>
      rw [absorbable j]
      cases taken : absorbedInput input 0 j with
      | none => decide
      | some x => exact (val_of_absorbedInput canonical taken).trans (by decide)
  | succ i =>
      obtain ⟨_, _, lanes⟩ := absorbable
      have atLane := lanes j
      cases taken : absorbedInput input (i + 1) j with
      | none =>
          rw [taken] at atLane
          exact atLane.1
      | some x =>
          rw [taken] at atLane
          rw [atLane]
          exact (val_of_absorbedInput canonical taken).trans (by decide)

/-- All blocks that can be absorbed stand for one state. -/
theorem Absorbable.residues_eq {i : Nat} {left right : Lanes}
    (leftAbsorbable : Absorbable input i left)
    (rightAbsorbable : Absorbable input i right) :
    residues left = residues right := by
  induction i generalizing left right with
  | zero =>
      have same : left = right := by
        funext j
        rw [leftAbsorbable j, rightAbsorbable j]
      rw [same]
  | succ i ih =>
      obtain ⟨leftBefore, leftEarlier, leftLanes⟩ := leftAbsorbable
      obtain ⟨rightBefore, rightEarlier, rightLanes⟩ := rightAbsorbable
      have before := ih leftEarlier rightEarlier
      funext j
      have atLeft := leftLanes j
      have atRight := rightLanes j
      rw [residues_apply, residues_apply]
      cases taken : absorbedInput input (i + 1) j with
      | none =>
          rw [taken] at atLeft atRight
          rw [atLeft.2, atRight.2, before]
      | some x =>
          rw [taken] at atLeft atRight
          rw [atLeft, atRight]

end Blocks

section Hash

namespace HashNToMNoPad

variable {nInputs : Nat} {signals : HashNToMNoPad nInputs}
  {input : Fin nInputs → Signal}

theorem absorbed_eq (signals : HashNToMNoPad nInputs)
    (input : Fin nInputs → Signal) (i : Fin (nHash nInputs))
    (j : Fin spongeWidth) :
    signals.absorbed input i j =
      (absorbedInput input i j).getD (signals.left i j) := by
  unfold absorbed absorbedInput
  split
  · rename_i rate
    split
    · rename_i inside
      rw [dif_pos ⟨rate, inside⟩, Option.getD_some]
    · rename_i outside
      rw [dif_neg fun inside => outside inside.2, Option.getD_none]
  · rename_i capacity
    rw [dif_neg fun inside => capacity inside.1, Option.getD_none]

theorem permuted_of_absorbable (canonical : ∀ i, (input i).val < order)
    (holds : signals.Holds input) (safe : SafeMessage input)
    (i : Fin (nHash nInputs))
    (absorbable : Absorbable input i (signals.absorbed input i)) :
    residues (signals.cMonolith i).out =
      Permutation.permutation (residues (signals.absorbed input i)) :=
  Monolith.congruent_of_safe (absorbable.small canonical) (holds i)
    (safe i i.isLt _ absorbable)

theorem absorbable_of_safe (canonical : ∀ i, (input i).val < order)
    (holds : signals.Holds input) (safe : SafeMessage input) (i : Nat)
    (inside : i < nHash nInputs) :
    Absorbable input i (signals.absorbed input ⟨i, inside⟩) := by
  induction i with
  | zero =>
      intro j
      rw [absorbed_eq]
      rfl
  | succ i ih =>
      have earlier : i < nHash nInputs := Nat.lt_of_succ_lt inside
      have absorbable := ih earlier
      have permuted := permuted_of_absorbable canonical holds safe
        ⟨i, earlier⟩ absorbable
      refine ⟨_, absorbable, ?_⟩
      intro j
      rw [absorbed_eq]
      have kept : signals.left ⟨i + 1, inside⟩ =
          (signals.cMonolith ⟨i, earlier⟩).out :=
        if_pos (Nat.succ_pos i)
      cases taken : absorbedInput input (i + 1) j with
      | none =>
          rw [Option.getD_none, kept]
          exact ⟨Monolith.tmp2_lt (holds ⟨i, earlier⟩) _ j,
            congrFun permuted j⟩
      | some x => rfl

theorem digests_congruent {left right : HashNToMNoPad nInputs}
    (positive : 0 < nInputs) (canonical : ∀ i, (input i).val < order)
    (safe : SafeMessage input) (leftHolds : left.Holds input)
    (rightHolds : right.Holds input) (i : Fin numHashOutElts) :
    (HashNoPad.out left positive i).val ≡
      (HashNoPad.out right positive i).val [MOD order] := by
  have inside := (last positive).isLt
  have leftAbsorbable := absorbable_of_safe canonical leftHolds safe _ inside
  have rightAbsorbable := absorbable_of_safe canonical rightHolds safe _ inside
  have same : residues (left.cMonolith (last positive)).out =
      residues (right.cMonolith (last positive)).out := by
    rw [permuted_of_absorbable canonical leftHolds safe _ leftAbsorbable,
      permuted_of_absorbable canonical rightHolds safe _ rightAbsorbable,
      leftAbsorbable.residues_eq rightAbsorbable]
  exact Monolith.modEq_iff_residues_eq.mpr same _

end HashNToMNoPad

namespace TwoToOne

variable {left right : Fin numHashOutElts → Signal}

theorem val_input (leftCanonical : ∀ i, (left i).val < order)
    (rightCanonical : ∀ i, (right i).val < order) (lane : Fin spongeWidth) :
    (input left right lane).val < order := by
  unfold input
  split
  · exact leftCanonical _
  · split
    · exact rightCanonical _
    · rw [ZMod.val_zero]
      decide

theorem digests_congruent {one other : Monolith}
    (leftCanonical : ∀ i, (left i).val < order)
    (rightCanonical : ∀ i, (right i).val < order)
    (safe : ¬Exploitable (input left right)) (oneHolds : Holds one left right)
    (otherHolds : Holds other left right) (i : Fin numHashOutElts) :
    (out one i).val ≡ (out other i).val [MOD order] := by
  have small : ∀ lane, (input left right lane).val < 2 ^ 64 := fun lane =>
    (val_input leftCanonical rightCanonical lane).trans (by decide)
  have same : residues one.out = residues other.out := by
    rw [Monolith.congruent_of_safe small oneHolds safe,
      Monolith.congruent_of_safe small otherHolds safe]
  exact Monolith.modEq_iff_residues_eq.mpr same _

end TwoToOne

end Hash

section Claimed

/-- The permutation is sound exactly for the inputs that cannot be exploited,
and for those the digests are determined. -/
theorem sound_iff_not_exploitable {input : Lanes}
    {left right : Fin numHashOutElts → Signal} {nInputs : Nat}
    {message : Fin nInputs → Signal}
    (canonical : ∀ lane, (input lane).val < order)
    (leftCanonical : ∀ i, (left i).val < order)
    (rightCanonical : ∀ i, (right i).val < order) (positive : 0 < nInputs)
    (messageCanonical : ∀ i, (message i).val < order) :
    ((∀ signals : Monolith, signals.Holds input → ∀ lane,
        (signals.out lane).val ≡
          ((Monolith.assign input).out lane).val [MOD order]) ↔
      ¬Exploitable input) ∧
    (¬Exploitable (TwoToOne.input left right) →
      ∀ one other : Monolith, TwoToOne.Holds one left right →
        TwoToOne.Holds other left right → ∀ i,
        (TwoToOne.out one i).val ≡ (TwoToOne.out other i).val [MOD order]) ∧
    (SafeMessage message →
      ∀ one other : HashNToMNoPad nInputs, one.Holds message →
        other.Holds message → ∀ i,
        (HashNoPad.out one positive i).val ≡
          (HashNoPad.out other positive i).val [MOD order]) := by
  refine ⟨?_, ?_, ?_⟩
  · exact Monolith.congruent_iff fun lane =>
      (canonical lane).trans (by decide)
  · intro safe one other oneHolds otherHolds
    exact TwoToOne.digests_congruent leftCanonical rightCanonical safe oneHolds
      otherHolds
  · intro safe one other oneHolds otherHolds
    exact HashNToMNoPad.digests_congruent positive messageCanonical safe
      oneHolds otherHolds

/-- The states of a run of the permutation, checked round by round. -/
structure IsTrace (state : Permutation.State)
    (trace : Fin nRounds → Permutation.State) : Prop where
  starts : Permutation.concrete 0 state = trace 0
  steps : ∀ rc : Fin 5,
    Permutation.concrete rc.castSucc.succ
      (Permutation.bricks (Permutation.bars (trace rc.castSucc))) =
        trace rc.succ

namespace IsTrace

variable {state : Permutation.State} {trace : Fin nRounds → Permutation.State}

theorem states_eq (isTrace : IsTrace state trace) (rc : Fin nRounds) :
    Permutation.states state rc.castSucc = trace rc := by
  induction rc using Fin.induction with
  | zero => exact isTrace.starts
  | succ rc before =>
      rw [← Fin.succ_castSucc, Permutation.states_succ, before,
        isTrace.steps]

private theorem permutation_eq (isTrace : IsTrace state trace) :
    Permutation.permutation state =
      Permutation.concrete (Fin.last nRounds)
        (Permutation.bricks (Permutation.bars (trace (Fin.last 5)))) := by
  rw [← isTrace.states_eq]
  exact Permutation.states_succ state (Fin.last 5)

theorem not_exploitable {block : Lanes} (isTrace : IsTrace (residues block) trace)
    (single : ∀ rc (lane : Fin spongeWidth), (lane : Nat) < nBars →
      2 ^ 64 ≤ (trace rc lane).val + order) : ¬Exploitable block := by
  rintro ⟨rc, lane, first, -, forgeable⟩
  have second := forgeable.1
  rw [isTrace.states_eq] at second
  exact absurd second (Nat.not_lt.mpr (single rc lane first))

end IsTrace

/-- Nine elements are absorbed in two blocks. -/
def sampleMessage : Fin 9 → Signal := fun i =>
  (((i + 1) * 10 ^ 18 : Nat) : Signal)

def sampleLeft (i : Fin numHashOutElts) : Signal :=
  sampleMessage (i.castLE (by decide))

def sampleRight (i : Fin numHashOutElts) : Signal :=
  sampleMessage ((i.natAdd numHashOutElts).castLE (by decide))

def sampleBlock : Lanes := TwoToOne.input sampleLeft sampleRight

def sampleTrace : Fin nRounds → Permutation.State :=
  ![
    ![
      724886403464560617, 11831398264635391975, 491166056391639012,
      11597677917562470370, 10150933848147886049, 14831398264635391975,
      16937910125806223333, 15171630472879144938, 18278142334049976296,
      12937910125806223333, 1278142334049976296, 1065118611708313580
    ],
    ![
      9206819627989078665, 11945686596259730918, 5985079647641668558,
      16402068518883434570, 16403882821730699290, 17154831716930262934,
      6182691490043897077, 9037824169533674488, 9602153063159364022,
      15893952483366367544, 7182028673670285880, 12972895631925130659
    ],
    ![
      13195451487271345770, 4134044011577606581, 10464063517507889432,
      9569542599873602777, 2037267270011481325, 18141256771297088063,
      16268822082023949973, 16190872599125172717, 12875077580166657601,
      4656612971820643246, 9592466514537473698, 14698906128118571773
    ],
    ![
      901170280819496597, 14064300467205744290, 488692500272630325,
      10135677249281166906, 14728839808795102586, 1640081128050193858,
      16086318163762541108, 7798264949332691518, 1360968227116718487,
      3457407907909750356, 4753966565063840734, 16236480899506736634
    ],
    ![
      1918455368151183091, 11577057549490459084, 12725619271993674011,
      7202310956490277130, 10925669152935838183, 5240905729795066317,
      15686412607957979333, 12841752598001960994, 17756026594884090085,
      11680859574793134931, 7699240886394779524, 3145500392834335166
    ],
    ![
      4895644607992538363, 12925254887332576697, 4669683155612100238,
      12244353156175401544, 3260511914359487133, 190591211101695802,
      17123465424308079320, 5133268094143132833, 14280423516064931983,
      9659767260996636639, 7943590289579453385, 13122605450898572474
    ]
  ]

/-- The state that the second block brings to the permutation. -/
def sampleSecond : Permutation.State :=
  Function.update (Permutation.permutation (residues sampleBlock)) 0
    (9 * 10 ^ 18)

def sampleSecondTrace : Fin nRounds → Permutation.State :=
  ![
    ![
      4421640309613768055, 11437244697408203798, 17309714287044356487,
      8569463582716212829, 8423951889536706376, 4420413758452670456,
      12041228628212902443, 18092851148507797184, 3944095300726923438,
      2891987742440499626, 10483587060168303674, 2055106376598583946
    ],
    ![
      13770006037279318522, 17153021453690407310, 1376092713338539629,
      3165359051201682620, 6289461631775919872, 10025612001650377367,
      10862218639905352297, 1663934228595555523, 10383870780470656276,
      14349389502348482788, 6412052840369398195, 8887110514026496227
    ],
    ![
      11635456938956398512, 5167659392363532023, 222518626700690663,
      466686499692575017, 1124525156715065695, 17607173355262100364,
      10691312903739510391, 8418998012821005843, 17023704539122150214,
      6211061569850315783, 9952816914248812858, 5087041789749725863
    ],
    ![
      4003292870679401644, 7692439643695320060, 6203336324659703430,
      14034263065766351045, 6995813095172209674, 11906194653265067690,
      5853510769730200820, 11720191703498426096, 6169197404058090653,
      10671370990098293682, 8629701991585973673, 16271031096997463151
    ],
    ![
      1612219766271362943, 6749208001140000225, 7308056796445171801,
      1189222557082445117, 14449514631983962784, 15036939384075297670,
      6595323089012763159, 8602374887598847515, 15313321708813384761,
      12638256490003808198, 8840867183060315238, 11899563286810624361
    ],
    ![
      6758231598082401468, 16848499855095505105, 14470904212271747479,
      15584234983045986506, 2543032585098554665, 13212601004946186644,
      15843047026003676553, 6841058176915279092, 5930187303139931552,
      16069318782991244931, 17712980017317094443, 17496425900362534074
    ]
  ]

theorem sampleTrace_isTrace : IsTrace (residues sampleBlock) sampleTrace where
  starts := by decide +kernel
  steps := by decide +kernel

private theorem sampleSecondTrace_isTrace :
    IsTrace sampleSecond sampleSecondTrace where
  starts := by
    unfold sampleSecond
    rw [sampleTrace_isTrace.permutation_eq]
    decide +kernel
  steps := by decide +kernel

theorem sampleTraces_single (rc : Fin nRounds) (lane : Fin spongeWidth)
    (first : (lane : Nat) < nBars) :
    2 ^ 64 ≤ (sampleTrace rc lane).val + order ∧
      2 ^ 64 ≤ (sampleSecondTrace rc lane).val + order := by
  revert rc lane
  decide +kernel

private theorem sampleMessage_lt_order (i : Fin 9) :
    (sampleMessage i).val < order := by
  revert i
  decide +kernel

theorem absorbedInput_sampleMessage (j : Fin spongeWidth) :
    (absorbedInput sampleMessage 0 j).getD 0 = sampleBlock j ∧
      absorbedInput sampleMessage 1 j =
        if j = 0 then some (sampleMessage 8) else none := by
  revert j
  decide +kernel

theorem sampleBlock_not_exploitable : ¬Exploitable sampleBlock :=
  sampleTrace_isTrace.not_exploitable fun rc lane first =>
    (sampleTraces_single rc lane first).1

theorem eq_sampleBlock {block : Lanes}
    (absorbable : Absorbable sampleMessage 0 block) : block = sampleBlock := by
  funext j
  rw [absorbable j, (absorbedInput_sampleMessage j).1]

theorem residues_eq_sampleSecond {block : Lanes}
    (absorbable : Absorbable sampleMessage 1 block) :
    residues block = sampleSecond := by
  obtain ⟨before, earlier, lanes⟩ := absorbable
  rw [eq_sampleBlock earlier] at lanes
  funext j
  have atLane := lanes j
  rw [(absorbedInput_sampleMessage j).2] at atLane
  rw [residues_apply]
  unfold sampleSecond
  by_cases first : j = 0
  · rw [if_pos first] at atLane
    rw [atLane, first, Function.update_self]
    decide +kernel
  · rw [if_neg first] at atLane
    rw [atLane.2, Function.update_of_ne first]

private theorem sampleMessage_safe : SafeMessage sampleMessage := by
  intro i inside block absorbable
  have blocks : nHash 9 = 2 := rfl
  rw [blocks] at inside
  interval_cases i
  · rw [eq_sampleBlock absorbable]
    exact sampleBlock_not_exploitable
  · have trace := sampleSecondTrace_isTrace
    rw [← residues_eq_sampleSecond absorbable] at trace
    exact trace.not_exploitable fun rc lane first =>
      (sampleTraces_single rc lane first).2

theorem sound_iff_not_exploitable_sample :
    (∀ signals : Monolith, signals.Holds sampleBlock → ∀ lane,
      (signals.out lane).val ≡
        ((Monolith.assign sampleBlock).out lane).val [MOD order]) ∧
    (∀ one other : Monolith, TwoToOne.Holds one sampleLeft sampleRight →
      TwoToOne.Holds other sampleLeft sampleRight → ∀ i,
      (TwoToOne.out one i).val ≡ (TwoToOne.out other i).val [MOD order]) ∧
    ∀ one other : HashNToMNoPad 9, one.Holds sampleMessage →
      other.Holds sampleMessage → ∀ i,
      (HashNoPad.out one (by decide) i).val ≡
        (HashNoPad.out other (by decide) i).val [MOD order] := by
  have leftCanonical (i) : (sampleLeft i).val < order :=
    sampleMessage_lt_order _
  have rightCanonical (i) : (sampleRight i).val < order :=
    sampleMessage_lt_order _
  have canonical := TwoToOne.val_input leftCanonical rightCanonical
  obtain ⟨outputs, digests, hashes⟩ := sound_iff_not_exploitable canonical
    leftCanonical rightCanonical (by decide) sampleMessage_lt_order
  exact ⟨outputs.mpr sampleBlock_not_exploitable,
    digests sampleBlock_not_exploitable, hashes sampleMessage_safe⟩

/-- The first sum is one more than the order. -/
def forgedInput : Lanes := fun lane =>
  if lane = 0 then ((order / 7 + 1 : Nat) : Signal) else 0

private theorem forgedInput_lt_order (lane : Fin spongeWidth) :
    (forgedInput lane).val < order := by
  revert lane
  decide +kernel

private theorem forgedInput_exploitable : Exploitable forgedInput := by
  have sum : Concrete.sum 0 forgedInput 0 = order + 1 := by
    decide +kernel
  have state : (Permutation.states (residues forgedInput) 0 0).val = 1 := by
    rw [Permutation.states_zero, ← Concrete.sum_mod _ rfl, sum]
    decide
  refine ⟨0, 0, by decide, fun _ => ?_, ?_⟩
  · rw [sum]
    exact Nat.le_succ _
  · have forgeable : Forgeable 1 := by
      decide +kernel
    rw [← state] at forgeable
    exact forgeable

theorem outputs_of_forgedInput :
    (∀ lane, (forgedInput lane).val < order) ∧
    ∃ signals : Monolith, signals.Holds forgedInput ∧ ∃ lane,
      ¬(signals.out lane).val ≡
        ((Monolith.assign forgedInput).out lane).val [MOD order] := by
  refine ⟨forgedInput_lt_order, ?_⟩
  have small : ∀ lane, (forgedInput lane).val < 2 ^ 64 := fun lane =>
    (forgedInput_lt_order lane).trans (by decide)
  by_contra none
  apply (Monolith.congruent_iff small).mp _ forgedInput_exploitable
  intro signals holds lane
  by_contra differ
  exact none ⟨signals, holds, lane, differ⟩

end Claimed

end Circom
