import Igra.Kaswallet.CompoundingEnds

/-!
# What a round adds

The transaction before a round, the request and the store settle whether the
outputs of the splits suffice, and which UTXOs the merge transaction adds when
they do not: the groups of inputs pass on their value less a fee each, and
what is missing is covered by the shortest initial segment of the addable
UTXOs that covers it.
-/

open Kaspa Rust

namespace Kaswallet

namespace TransactionGenerator

section Draws

variable (upstream : Upstream) (generator : TransactionGenerator)
  (request : CompoundingRequest) (replies : NodeReplies)
  (manager : UtxoManager)

/-- What the groups of inputs yield is short of the amount and the fee
estimated for the merge. -/
structure ShortBy (original : WalletSignableTransaction) (mergeFee : UInt64)
    (missing : Nat) : Prop where
  exactAmount : request.isSendAll = false
  positive : 0 < missing
  yields : ∃ utxos,
    List.Forall₂ (Yields upstream generator request original)
        (List.range (splitCount upstream generator request original.tx))
        utxos ∧
      generator.estimateFee upstream utxos request.feeRate request.maxFee
        request.amount original.tx.payload = .ok mergeFee ∧
      totalAmount utxos + missing =
        request.amount.toNat + mergeFee.toNat

def FallsShort (original : WalletSignableTransaction) : Prop :=
  ∃ mergeFee missing,
    ShortBy upstream generator request original mergeFee missing

/-- The shortest initial segment of the addable UTXOs that covers what is
missing, each UTXO less the fee for its input. -/
def Draws (round : Nat) (original : WalletSignableTransaction)
    (drawn : List WalletUtxo) : Prop :=
  ∃ mergeFee missing virtualDaaScore feePerInput,
    ShortBy upstream generator request original mergeFee missing ∧
      replies.virtualDaaScore (round + 1) = .ok virtualDaaScore ∧
      generator.feePerInput request original.tx = .ok feePerInput ∧
      ShortestFunding feePerInput missing
        (candidates manager request virtualDaaScore) drawn

end Draws

section Determined

variable {upstream : Upstream} {generator : TransactionGenerator}
  {request : CompoundingRequest} {original : WalletSignableTransaction}

theorem IsGroup.unique {position : Nat} {group other : List WalletUtxo}
    (isGroup : IsGroup upstream generator request original position group)
    (isOther : IsGroup upstream generator request original position other) :
    group = other :=
  Except.ok.inj (isGroup.symm.trans isOther)

theorem Yields.unique {position : Nat} {utxo other : WalletUtxo}
    (yields : Yields upstream generator request original position utxo)
    (yieldsOther : Yields upstream generator request original position
      other) :
    utxo = other := by
  obtain ⟨group, total, fee, value, isGroup, summed, estimated, left, rfl⟩ :=
    yields
  obtain ⟨group, _, _, otherValue, isSame, otherSummed, otherEstimated,
    otherLeft, rfl⟩ := yieldsOther
  obtain rfl := isGroup.unique isSame
  obtain rfl := UInt64.toNat_inj.mp (summed.symm.trans otherSummed)
  obtain rfl := Except.ok.inj (estimated.symm.trans otherEstimated)
  have same : value = otherValue := by
    rw [← UInt64.toNat_inj]
    omega
  rw [same]

theorem yields_unique {positions : List Nat} {utxos others : List WalletUtxo}
    (yields : List.Forall₂ (Yields upstream generator request original)
      positions utxos)
    (yieldsOther : List.Forall₂ (Yields upstream generator request original)
      positions others) :
    utxos = others := by
  induction yields generalizing others with
  | nil =>
      cases yieldsOther
      rfl
  | cons first _ ih =>
      cases yieldsOther with
      | cons otherFirst otherRest =>
          rw [first.unique otherFirst, ih otherRest]

theorem ShortestFunding.unique {feePerInput : UInt64} {missing : Nat}
    {available drawn other : List WalletUtxo}
    (funding : ShortestFunding feePerInput missing available drawn)
    (again : ShortestFunding feePerInput missing available other) :
    drawn = other := by
  obtain ⟨count, rfl, minimal⟩ := funding.initial
  obtain ⟨otherCount, rfl, otherMinimal⟩ := again.initial
  have enough := funding.enough
  have otherEnough := again.enough
  rcases Nat.lt_trichotomy count otherCount with fewer | rfl | more
  · exact absurd enough (Nat.not_le.mpr (otherMinimal count fewer))
  · rfl
  · exact absurd otherEnough (Nat.not_le.mpr (minimal otherCount more))

end Determined

section Round

variable {upstream : Upstream} {generator : TransactionGenerator}
  {request : CompoundingRequest} {replies : NodeReplies}
  {manager : UtxoManager} {round : Nat}
  {original : WalletSignableTransaction} {transactionMass : UInt64}
  {done : CompoundRound}

/-- A round is short by what its plan is. -/
theorem shortBy_iff_of_compoundRound
    (built : Built upstream generator original)
    (weighed : computeMassForUnsignedConsensusTransaction upstream
      original.tx generator.keys.minimumSignatures = .ok transactionMass)
    (compounded : generator.compoundRound upstream request replies manager
      round original transactionMass = .ok done)
    {mergeFee : UInt64} {missing : Nat} :
    ShortBy upstream generator request original mergeFee missing ↔
      AddsUtxos generator request replies manager round original.tx
          done.plan ∧
        mergeFee = done.plan.mergeFee ∧
        missing =
          done.plan.sentValue.toNat - done.plan.availableValue.toNat := by
  obtain ⟨made, planning, -, -⟩ := compoundRound_eq_ok.mp compounded
  have planned := planned_of_mergePlan planning
  have yields :=
    (yields_of_splitTransactions built weighed made planned.splitUtxos).2
  have available := planned.available
  have sent := planned.sent
  constructor
  · rintro ⟨exactAmount, positive, utxos, otherYields, estimated, short⟩
    obtain rfl := yields_unique otherYields yields
    obtain rfl := Except.ok.inj (estimated.symm.trans planned.mergeFee)
    rw [exactAmount, if_neg (by simp)] at sent
    rw [← sent] at short
    rcases planned.funding with ⟨-, covered⟩ | adds
    · rw [UInt64.le_iff_toNat_le] at covered
      omega
    · exact ⟨adds, rfl, by omega⟩
  · rintro ⟨adds, rfl, rfl⟩
    have short := UInt64.lt_iff_toNat_lt.mp adds.short
    rw [adds.exactAmount, if_neg (by simp)] at sent
    refine ⟨adds.exactAmount, by omega, done.plan.splitUtxos, yields,
      planned.mergeFee, ?_⟩
    rw [← sent]
    omega

theorem additionalUtxos_ne_nil {plan : MergePlan} {tx : Transaction}
    (adds : AddsUtxos generator request replies manager round tx plan) :
    plan.additionalUtxos ≠ [] := by
  intro nothing
  have short := UInt64.lt_iff_toNat_lt.mp adds.short
  obtain ⟨_, _, -, -, funding⟩ := adds.funding
  have enough := funding.enough
  rw [nothing, netAmount_nil] at enough
  omega

theorem addsUtxos_of_ne_nil
    (compounded : generator.compoundRound upstream request replies manager
      round original transactionMass = .ok done)
    (some : done.plan.additionalUtxos ≠ []) :
    AddsUtxos generator request replies manager round original.tx
      done.plan := by
  obtain ⟨-, planning, -, -⟩ := compoundRound_eq_ok.mp compounded
  rcases (planned_of_mergePlan planning).funding with ⟨nothing, -⟩ | adds
  · exact absurd nothing some
  · exact adds

theorem fallsShort_iff_of_compoundRound
    (built : Built upstream generator original)
    (weighed : computeMassForUnsignedConsensusTransaction upstream
      original.tx generator.keys.minimumSignatures = .ok transactionMass)
    (compounded : generator.compoundRound upstream request replies manager
      round original transactionMass = .ok done) :
    FallsShort upstream generator request original ↔
      done.plan.additionalUtxos ≠ [] := by
  constructor
  · rintro ⟨mergeFee, missing, short⟩
    exact additionalUtxos_ne_nil
      ((shortBy_iff_of_compoundRound built weighed compounded).mp short).1
  · intro some
    exact ⟨_, _, (shortBy_iff_of_compoundRound built weighed compounded).mpr
      ⟨addsUtxos_of_ne_nil compounded some, rfl, rfl⟩⟩

theorem draws_iff_of_compoundRound
    (built : Built upstream generator original)
    (weighed : computeMassForUnsignedConsensusTransaction upstream
      original.tx generator.keys.minimumSignatures = .ok transactionMass)
    (compounded : generator.compoundRound upstream request replies manager
      round original transactionMass = .ok done)
    {drawn : List WalletUtxo} :
    Draws upstream generator request replies manager round original drawn ↔
      drawn ≠ [] ∧ drawn = done.plan.additionalUtxos := by
  have shortBy := @shortBy_iff_of_compoundRound _ _ _ _ _ _ _ _ _ built
    weighed compounded
  constructor
  · rintro ⟨mergeFee, missing, score, price, short, asked, priced, funding⟩
    obtain ⟨adds, -, rfl⟩ := shortBy.mp short
    obtain ⟨otherScore, otherPrice, otherAsked, otherPriced, otherFunding⟩ :=
      adds.funding
    obtain rfl := Except.ok.inj (asked.symm.trans otherAsked)
    obtain rfl := Except.ok.inj (priced.symm.trans otherPriced)
    obtain rfl := funding.unique otherFunding
    exact ⟨additionalUtxos_ne_nil adds, rfl⟩
  · rintro ⟨some, rfl⟩
    have adds := addsUtxos_of_ne_nil compounded some
    obtain ⟨score, price, asked, priced, funding⟩ := adds.funding
    exact ⟨_, _, score, price, shortBy.mpr ⟨adds, rfl, rfl⟩, asked, priced,
      funding⟩

end Round

section Runs

variable {upstream : Upstream} {generator : TransactionGenerator}
  {request : CompoundingRequest} {replies : NodeReplies}
  {manager : UtxoManager} {start state next : Nat × WalletSignableTransaction}
  {rounds : List CompoundRound} {done : CompoundRound} {fuel : Nat}
  {compounding : Compounding}

theorem RoundStep.unique {other : CompoundRound}
    {otherNext : Nat × WalletSignableTransaction}
    (taken : RoundStep upstream generator request replies manager state done
      next)
    (again : RoundStep upstream generator request replies manager state other
      otherNext) :
    done = other ∧ next = otherNext := by
  obtain ⟨-, -, ⟨mass, weighed, compounded⟩, rfl⟩ := taken
  obtain ⟨-, -, ⟨_, weighedAgain, compoundedAgain⟩, rfl⟩ := again
  obtain rfl := Except.ok.inj (weighed.symm.trans weighedAgain)
  obtain rfl := Except.ok.inj (compounded.symm.trans compoundedAgain)
  exact ⟨rfl, rfl⟩

theorem length_of_run
    (run : Runs.Run (RoundStep upstream generator request replies manager)
      start rounds state) :
    state.1 = start.1 + rounds.length := by
  induction run with
  | start => rfl
  | extend _ taken ih =>
      obtain ⟨-, -, -, rfl⟩ := taken
      rw [ih, List.length_append]
      rfl

variable (state) in
/-- A compounding ends at a light transaction and takes a round at a heavy
one. -/
theorem compound_cases
    (compounded : generator.compound upstream request replies manager fuel
      state.1 state.2 = .ok compounding) :
    (¬Heavy upstream generator state.2 ∧ compounding = ⟨[], state.2⟩) ∨
      ∃ done fuel rest,
        RoundStep upstream generator request replies manager state done
            (state.1 + 1, done.merge) ∧
          generator.compound upstream request replies manager fuel
            (state.1 + 1) done.merge = .ok rest ∧
          compounding = ⟨done :: rest.rounds, rest.last⟩ := by
  cases fuel with
  | zero => simp [compound] at compounded
  | succ fuel =>
      simp only [compound, Outcome.bind_eq_ok] at compounded
      obtain ⟨⟨⟩, checked, mass, weighed, remaining⟩ := compounded
      have limit : mass < maximumStandardTransactionMass ↔
          ¬Heavy upstream generator state.2 := by
        rw [Heavy, massOf_eq weighed, UInt64.lt_iff_toNat_lt, not_le]
      by_cases light : mass < maximumStandardTransactionMass
      · simp only [light, if_true, Outcome.pure_eq_ok] at remaining
        exact .inl ⟨limit.mp light, remaining.symm⟩
      · simp only [light, if_false, Outcome.bind_eq_ok,
          Outcome.pure_eq_ok] at remaining
        obtain ⟨done, performed, rest, later, rfl⟩ := remaining
        rw [limit, not_not] at light
        exact .inr ⟨done, fuel, rest,
          ⟨checked, light, ⟨mass, weighed, performed⟩, rfl⟩, later, rfl⟩

theorem compound_of_run
    (run : Runs.Run (RoundStep upstream generator request replies manager)
      start rounds state)
    (compounded : generator.compound upstream request replies manager fuel
      start.1 start.2 = .ok compounding) :
    ∃ fuel rest,
      generator.compound upstream request replies manager fuel state.1
        state.2 = .ok rest ∧
      compounding = ⟨rounds ++ rest.rounds, rest.last⟩ := by
  induction run with
  | start => exact ⟨fuel, compounding, compounded, rfl⟩
  | extend _ taken ih =>
      obtain ⟨_, rest, later, rfl⟩ := ih
      rcases compound_cases _ later with ⟨light, -⟩ |
        ⟨done, fuel, after, takenHere, laterStill, rfl⟩
      · exact absurd taken.2.1 light
      · obtain ⟨rfl, rfl⟩ := taken.unique takenHere
        exact ⟨fuel, after, laterStill, by simp⟩

variable (start) in
/-- Every round of a compounding is taken in some state of its run. -/
theorem run_of_compound
    (compounded : generator.compound upstream request replies manager fuel
      start.1 start.2 = .ok compounding)
    {front back : List CompoundRound}
    (split : compounding.rounds = front ++ done :: back) :
    ∃ state,
      Runs.Run (RoundStep upstream generator request replies manager) start
        front state ∧
      state.1 = start.1 + front.length ∧
      RoundStep upstream generator request replies manager state done
        (state.1 + 1, done.merge) := by
  induction front generalizing start fuel compounding with
  | nil =>
      rcases compound_cases start compounded with ⟨-, rfl⟩ |
        ⟨first, _, rest, taken, -, rfl⟩
      · simp at split
      · obtain ⟨rfl, -⟩ := List.cons.inj split
        exact ⟨start, .start, rfl, taken⟩
  | cons other front ih =>
      rcases compound_cases start compounded with ⟨-, rfl⟩ |
        ⟨first, _, rest, taken, later, rfl⟩
      · simp at split
      · obtain ⟨rfl, remaining⟩ := List.cons.inj split
        obtain ⟨state, run, position, here⟩ :=
          ih (start.1 + 1, first.merge) later remaining
        refine ⟨state, .cons taken run, ?_, here⟩
        rw [position, List.length_cons]
        omega

variable {unsigned : WalletSignableTransaction}

variable (upstream generator request replies manager unsigned) in
/-- The state before a round that compounding the transaction takes. -/
def RoundTaken (state : Nat × WalletSignableTransaction) : Prop :=
  (∃ rounds, Runs.Run (RoundStep upstream generator request replies manager)
    (0, unsigned) rounds state) ∧
    TakesRound upstream generator state.2

/-- The rounds that are taken are the rounds of the compounding. -/
theorem round_of_roundTaken
    (compounded : generator.compound upstream request replies manager fuel 0
      unsigned = .ok compounding)
    (before : RoundTaken upstream generator request replies manager unsigned
      state) :
    ∃ done, compounding.rounds[state.1]? = some done ∧
      RoundStep upstream generator request replies manager state done
        (state.1 + 1, done.merge) := by
  obtain ⟨⟨rounds, run⟩, -, heavy⟩ := before
  have position : state.1 = rounds.length := by
    have counted := length_of_run run
    rwa [Nat.zero_add] at counted
  obtain ⟨_, rest, later, rfl⟩ := compound_of_run run compounded
  rcases compound_cases _ later with ⟨light, -⟩ | ⟨done, _, _, taken, -, rfl⟩
  · exact absurd heavy light
  · exact ⟨done, by simp [position], taken⟩

theorem roundTaken_of_round
    (compounded : generator.compound upstream request replies manager fuel 0
      unsigned = .ok compounding)
    {position : Nat} (round : compounding.rounds[position]? = some done) :
    ∃ state,
      RoundTaken upstream generator request replies manager unsigned state ∧
      state.1 = position ∧
      RoundStep upstream generator request replies manager state done
        (state.1 + 1, done.merge) := by
  obtain ⟨inside, rfl⟩ := List.getElem?_eq_some_iff.mp round
  have split : compounding.rounds = compounding.rounds.take position ++
      compounding.rounds[position] :: compounding.rounds.drop (position + 1) := by
    rw [← List.drop_eq_getElem_cons inside, List.take_append_drop]
  obtain ⟨state, run, counted, taken⟩ := run_of_compound
    (0, unsigned) compounded split
  refine ⟨state, ⟨⟨_, run⟩, taken.1, taken.2.1⟩, ?_, taken⟩
  rw [counted, List.length_take_of_le inside.le, Nat.zero_add]

theorem RoundTaken.built
    (before : RoundTaken upstream generator request replies manager unsigned
      state)
    (wasBuilt : Built upstream generator unsigned) :
    Built upstream generator state.2 := by
  obtain ⟨⟨_, run⟩, -⟩ := before
  exact built_of_run run wasBuilt

theorem fallsShort_iff_of_roundStep
    (built : Built upstream generator state.2)
    (taken : RoundStep upstream generator request replies manager state done
      next) :
    FallsShort upstream generator request state.2 ↔
      done.plan.additionalUtxos ≠ [] := by
  obtain ⟨-, -, ⟨_, weighed, compounded⟩, -⟩ := taken
  exact fallsShort_iff_of_compoundRound built weighed compounded

theorem draws_iff_of_roundStep {drawn : List WalletUtxo}
    (built : Built upstream generator state.2)
    (taken : RoundStep upstream generator request replies manager state done
      next) :
    Draws upstream generator request replies manager state.1 state.2 drawn ↔
      drawn ≠ [] ∧ drawn = done.plan.additionalUtxos := by
  obtain ⟨-, -, ⟨_, weighed, compounded⟩, -⟩ := taken
  exact draws_iff_of_compoundRound built weighed compounded

end Runs

end TransactionGenerator

end Kaswallet
