import Igra.Kaswallet.CompoundingEnds
import Mathlib.Tactic.Ring

/-!
# Masses of split transactions

When all inputs have one mass, the mass that is left for inputs in a split
tells how many it can hold.  The ranges that are cut accordingly cover each
input once, and no split is heavier than a standard transaction.
-/

open Kaspa Rust

namespace Kaswallet

namespace TransactionGenerator

section Equal

variable (upstream : Upstream) (generator : TransactionGenerator)
  (request : CompoundingRequest)

/-- The mass calculator counts one mass for each input of the transaction, and
for each input of a split, whose value does not matter. -/
structure EqualInputs (original : Transaction) (perInput : Nat) : Prop where
  positive : 0 < perInput
  whole : massOf upstream generator original =
    massOf upstream generator { original with inputs := [] } +
      original.inputs.length * perInput
  splits : ∀ payout utxos, utxos.length ≤ original.inputs.length →
    ∃ mass, computeMassForUnsignedConsensusTransaction upstream
        (generator.consensusTransaction upstream
          [⟨request.changeAddress, payout⟩] utxos [])
        generator.keys.minimumSignatures = .ok mass ∧
      mass.toNat =
        massOf upstream generator (emptySplit upstream generator request) +
          utxos.length * perInput

/-- The inputs of a range can be read, and are worth the fee estimated for their
split. -/
def CoversFee (original : WalletSignableTransaction)
    (startIndex endIndex : Nat) : Prop :=
  (Outcome.collect (inputUtxo original)
    (splitPositions original.tx.inputs.length startIndex endIndex)).Returns
    fun utxos =>
      (checkedSum (utxos.map WalletUtxo.amount) :
        WalletResult UInt64).Returns fun total =>
          (generator.estimateFee upstream utxos request.feeRate
            request.maxFee total []).Returns fun fee => fee ≤ total

instance CoversFee.decidable (original : WalletSignableTransaction)
    (startIndex endIndex : Nat) :
    Decidable (CoversFee upstream generator request original startIndex
      endIndex) :=
  inferInstanceAs (Decidable (Outcome.Returns _ _))

end Equal

section Positions

theorem splitPositions_eq {inputCount start width : Nat}
    (inside : start ≤ inputCount) :
    splitPositions inputCount start (start + width) =
      ((List.range inputCount).drop start).take width := by
  apply List.map_injective_iff.mpr (Option.some_injective _)
  have read := map_splitPositions (List.range inputCount) (start + width)
    (by simpa using inside)
  rw [List.length_range, Nat.add_sub_cancel_left] at read
  rw [← read]
  apply List.map_congr_left
  intro position member
  have bound := mem_splitPositions inside member
  simp [bound]

theorem flatMap_splitPositions {inputCount count width : Nat}
    (inside : ∀ position < count, position * width < inputCount)
    (enough : inputCount ≤ count * width) :
    (List.range count).flatMap (fun position =>
        splitPositions inputCount (position * width)
          (position * width + width)) =
      List.range inputCount := by
  have slices := flatMap_slices (List.range inputCount) width count
  rw [List.take_of_length_le (by simpa using enough)] at slices
  rw [← slices]
  apply List.flatMap_congr
  intro position member
  exact splitPositions_eq (inside position (List.mem_range.mp member)).le

theorem splitPositions_ne_nil {inputCount start width : Nat}
    (inside : start < inputCount) (wide : 0 < width) :
    splitPositions inputCount start (start + width) ≠ [] := by
  intro nothing
  have length := @length_splitPositions _ _ (start + width) inside.le
  rw [nothing, List.length_nil] at length
  omega

end Positions

section Bounds

variable {upstream : Upstream} {generator : TransactionGenerator}
  {request : CompoundingRequest} {original : WalletSignableTransaction}
  {perInput : Nat}

/-- Rounding up has nothing to do when the inputs have one mass. -/
theorem EqualInputs.inputMass_eq
    (equal : EqualInputs upstream generator request original.tx perInput)
    (some : 0 < original.tx.inputs.length) :
    inputMass upstream generator original.tx = perInput := by
  unfold inputMass
  rw [equal.whole, Nat.add_sub_cancel_left]
  apply Nat.div_eq_of_lt_le
  · rw [Nat.mul_comm perInput]
    omega
  · rw [Nat.add_mul, Nat.mul_comm perInput]
    omega

theorem EqualInputs.room
    (equal : EqualInputs upstream generator request original.tx perInput)
    (some : 0 < original.tx.inputs.length)
    (oneInputFits :
      massOf upstream generator (emptySplit upstream generator request) +
        perInput ≤ maximumStandardTransactionMass.toNat) :
    Room upstream generator request original.tx where
  inputsWeigh := by
    have heavier := Nat.mul_pos some equal.positive
    rw [equal.whole]
    omega
  oneInputFits := by
    rw [equal.inputMass_eq some]
    exact oneInputFits

theorem EqualInputs.mass_le
    (equal : EqualInputs upstream generator request original.tx perInput)
    (some : 0 < original.tx.inputs.length)
    (room : Room upstream generator request original.tx)
    {payout : UInt64} {utxos : List WalletUtxo}
    (few : utxos.length ≤ original.tx.inputs.length)
    (narrow : utxos.length ≤
      inputsPerSplit upstream generator request original.tx) :
    ∃ mass, computeMassForUnsignedConsensusTransaction upstream
        (generator.consensusTransaction upstream
          [⟨request.changeAddress, payout⟩] utxos [])
        generator.keys.minimumSignatures = .ok mass ∧
      mass ≤ maximumStandardTransactionMass := by
  obtain ⟨mass, weighed, massEq⟩ := equal.splits payout utxos few
  refine ⟨mass, weighed, ?_⟩
  have fits := room.oneInputFits
  unfold inputsPerSplit at narrow
  rw [equal.inputMass_eq some] at narrow fits
  have held := (Nat.le_div_iff_mul_le equal.positive).mp narrow
  rw [UInt64.le_iff_toNat_le, massEq]
  omega

private theorem length_lt_of_equalInputs
    (equal : EqualInputs upstream generator request original.tx perInput) :
    original.tx.inputs.length < 2 ^ 64 := by
  have most := Nat.le_mul_of_pos_right original.tx.inputs.length
    equal.positive
  have bounded : massOf upstream generator original.tx < 2 ^ 64 :=
    UInt64.toNat_lt _
  have whole := equal.whole
  omega

theorem fits_of_createSplitTransaction
    {split : WalletSignableTransaction} {start width : Nat}
    (equal : EqualInputs upstream generator request original.tx perInput)
    (room : Room upstream generator request original.tx)
    (inside : start < original.tx.inputs.length)
    (narrow :
      width = inputsPerSplit upstream generator request original.tx)
    (created : generator.createSplitTransaction upstream request original
      start (start + width) = .ok split) :
    spentOutpoints split =
        ((spentOutpoints original).drop start).take width ∧
      ∃ mass, computeMassForUnsignedConsensusTransaction upstream split.tx
          generator.keys.minimumSignatures = .ok mass ∧
        mass ≤ maximumStandardTransactionMass := by
  have spentLength : (spentOutpoints original).length =
      original.tx.inputs.length := by simp [spentOutpoints]
  have spent := spentOutpoints_of_createSplitTransaction
    (spentLength ▸ inside.le) created
  rw [Nat.add_sub_cancel_left] at spent
  refine ⟨spent, ?_⟩
  obtain ⟨utxos, total, payout, collected, -, -, generated⟩ :=
    createSplitTransaction_eq_ok.mp created
  have length := Outcome.length_of_collect_eq_ok collected
  rw [length_splitPositions inside.le, Nat.add_sub_cancel_left] at length
  rw [tx_of_generateUnsignedTransaction generated]
  exact equal.mass_le (Nat.zero_lt_of_lt inside) room (by omega) (by omega)

theorem exists_createSplitTransaction {startIndex endIndex : Nat}
    (inside : startIndex ≤ original.tx.inputs.length)
    (weighs : Weighs upstream generator [] original.tx.inputs.length)
    (covers : CoversFee upstream generator request original startIndex
      endIndex) :
    ∃ split, generator.createSplitTransaction upstream request original
      startIndex endIndex = .ok split := by
  obtain ⟨utxos, collected, total, summed, fee, estimated, enough⟩ := covers
  have length := Outcome.length_of_collect_eq_ok collected
  rw [length_splitPositions inside] at length
  obtain ⟨payout, paid⟩ : ∃ payout, generator.splitPayout upstream request
      utxos total = .ok payout := by
    unfold splitPayout
    split
    · exact ⟨total, rfl⟩
    · have left := (total.toNat_lt).trans_le' (Nat.sub_le total.toNat fee.toNat)
      obtain ⟨payout, payoutEq⟩ := exists_toNat_eq left
      rw [UInt64.le_iff_toNat_le] at enough
      rw [estimated, Outcome.ok_bind]
      exact ⟨payout, checkedSub_eq_ok.mpr (by omega)⟩
  obtain ⟨masses, weighed⟩ := weighs [⟨request.changeAddress, payout⟩] utxos
    (by simp) (by omega)
  -- The mock transaction of the estimate has the same inputs.
  obtain ⟨mass, estimatedMass, -⟩ := Outcome.bind_eq_ok.mp estimated
  obtain ⟨value, -, mocked⟩ := Outcome.bind_eq_ok.mp estimatedMass
  obtain ⟨mock, generated, -⟩ := Outcome.bind_eq_ok.mp mocked
  obtain ⟨paths, _, found, -, -⟩ :=
    generateUnsignedTransaction_eq_ok.mp generated
  exact ⟨_, createSplitTransaction_eq_ok.mpr ⟨utxos, total, payout, collected,
    checkedSum_amounts_eq_ok.mp summed, paid,
    generateUnsignedTransaction_eq_ok.mpr ⟨paths, masses, found, weighed,
      rfl⟩⟩⟩

/-- The counts with which a transaction is split: the ranges they give read
each input once, each range reads an input and gives a split if it covers the
fee, and no split is too heavy. -/
theorem splits_cover_and_fit {transactionMass : UInt64}
    (some : original.tx.inputs ≠ [])
    (weighed : computeMassForUnsignedConsensusTransaction upstream
      original.tx generator.keys.minimumSignatures = .ok transactionMass)
    (weighs : Weighs upstream generator [] 0)
    (equal : EqualInputs upstream generator request original.tx perInput)
    (oneInputFits :
      massOf upstream generator (emptySplit upstream generator request) +
        perInput ≤ maximumStandardTransactionMass.toNat) :
    ∃ count width, generator.splitAndInputPerSplitCounts upstream request
        original transactionMass = .ok (count, width) ∧
      (List.range count.toNat).flatMap (fun position =>
          splitPositions original.tx.inputs.length (position * width.toNat)
            (position * width.toNat + width.toNat)) =
        List.range original.tx.inputs.length ∧
      ∀ position < count.toNat,
        splitPositions original.tx.inputs.length (position * width.toNat)
            (position * width.toNat + width.toNat) ≠ [] ∧
        (∀ split, generator.createSplitTransaction upstream request original
            (position * width.toNat)
            (position * width.toNat + width.toNat) = .ok split →
          spentOutpoints split =
              ((spentOutpoints original).drop (position * width.toNat)).take
                width.toNat ∧
            (∃ mass, computeMassForUnsignedConsensusTransaction upstream
                split.tx generator.keys.minimumSignatures = .ok mass ∧
              mass ≤ maximumStandardTransactionMass)) ∧
        (Weighs upstream generator [] original.tx.inputs.length →
          CoversFee upstream generator request original
            (position * width.toNat)
            (position * width.toNat + width.toNat) →
          ∃ split, generator.createSplitTransaction upstream request original
            (position * width.toNat)
            (position * width.toNat + width.toNat) = .ok split) := by
  have positive := List.length_pos_of_ne_nil some
  have room := equal.room positive oneInputFits
  obtain ⟨-, -, wide⟩ := room.inputMass_pos
  obtain ⟨count, width, counted, countIs, widthIs⟩ :=
    exists_splitCounts (length_lt_of_equalInputs equal) weighs room weighed
  obtain ⟨enough, inside⟩ := @roundedUp_bounds original.tx.inputs.length _ wide
  refine ⟨count, width, counted, ?_, ?_⟩
  · rw [countIs, widthIs]
    exact flatMap_splitPositions inside enough
  · intro position below
    rw [countIs] at below
    have start : position * width.toNat < original.tx.inputs.length := by
      rw [widthIs]
      exact inside position below
    refine ⟨splitPositions_ne_nil start (widthIs ▸ wide), ?_, ?_⟩
    · intro split created
      exact fits_of_createSplitTransaction equal room start widthIs created
    · exact exists_createSplitTransaction start.le

end Bounds

section Devnet

variable {generator : TransactionGenerator}

/-- What the devnet counts for an input of a native transaction. -/
def devnetInputMass (generator : TransactionGenerator) : Nat :=
  52 + 1000 * generator.minimumSignaturesU8.toNat +
    66 * max generator.keys.minimumSignatures.toNat 1

theorem computeMass_devnet (native : generator.txVersion = 0)
    (payments : List WalletPayment) (utxos : List WalletUtxo)
    (payload : List UInt8) :
    Devnet.computeMass
        (generator.consensusTransaction devnet payments utxos payload)
        generator.keys.minimumSignatures =
      Devnet.computeMass
          (generator.consensusTransaction devnet payments [] payload)
          generator.keys.minimumSignatures +
        utxos.length * devnetInputMass generator := by
  have commits : ComputeCommit.versionExpectsComputeBudgetField
      generator.txVersion = false := by
    rw [native]
    rfl
  simp [Devnet.computeMass, Devnet.serializedSize, consensusTransaction,
    Transaction.new, inputOf, commits, ComputeCommit.sigOpCount?,
    devnetInputMass, Function.comp_def]
  ring

theorem computeMass_devnet_lt {payments : List WalletPayment}
    (atMostTwo : payments.length ≤ 2) {utxos : List WalletUtxo}
    (few : utxos.length < 2 ^ 32) {payload : List UInt8}
    (short : payload.length < 2 ^ 32) (native : generator.txVersion = 0) :
    Devnet.computeMass
        (generator.consensusTransaction devnet payments utxos payload)
        generator.keys.minimumSignatures < 2 ^ 64 := by
  have outputs : (payments.map fun payment => 10 *
      (2 + (devnet.payToAddressScript payment.address).script.length)).sum ≤
        (payments.map fun _ => 380).sum := by
    apply List.sum_le_sum
    intro payment _
    have script := length_payToAddressScript_le payment.address
    omega
  have size := serializedSize_consensusTransaction_le generator atMostTwo []
    payload
  have sigOps := generator.minimumSignaturesU8.toNat_lt
  have signatures := generator.keys.minimumSignatures.toNat_lt
  have perInput : devnetInputMass generator < 2 ^ 30 := by
    unfold devnetInputMass
    omega
  have inputs : utxos.length * devnetInputMass generator < 2 ^ 32 * 2 ^ 30 :=
    Nat.mul_lt_mul'' few perInput
  rw [List.map_const', List.sum_replicate_nat] at outputs
  rw [computeMass_devnet native]
  unfold Devnet.computeMass
  simp only [consensusTransaction, Transaction.new, List.map_map,
    Function.comp_def, outputOf, TransactionOutput.new, List.map_nil,
    List.sum_nil, List.length_nil, Nat.mul_zero] at size ⊢
  omega

theorem weighed_devnet {payments : List WalletPayment}
    (atMostTwo : payments.length ≤ 2) {utxos : List WalletUtxo}
    (few : utxos.length < 2 ^ 32) {payload : List UInt8}
    (short : payload.length < 2 ^ 32) (native : generator.txVersion = 0) :
    ∃ mass, computeMassForUnsignedConsensusTransaction devnet
        (generator.consensusTransaction devnet payments utxos payload)
        generator.keys.minimumSignatures = .ok mass ∧
      mass.toNat = Devnet.computeMass
          (generator.consensusTransaction devnet payments [] payload)
          generator.keys.minimumSignatures +
        utxos.length * devnetInputMass generator := by
  refine ⟨UInt64.ofNat (Devnet.computeMass
    (generator.consensusTransaction devnet payments utxos payload)
    generator.keys.minimumSignatures), ?_, ?_⟩
  · have commits : ComputeCommit.versionExpectsComputeBudgetField
        (generator.consensusTransaction devnet payments utxos
          payload).version = false := by
      simp only [consensusTransaction, Transaction.new, native]
      rfl
    rw [computeMassForUnsignedConsensusTransaction, commits]
    rfl
  · rw [← computeMass_devnet native]
    exact UInt64.toNat_ofNat_of_lt'
      (computeMass_devnet_lt atMostTwo few short native)

private theorem massOf_devnet {payments : List WalletPayment}
    (atMostTwo : payments.length ≤ 2) {utxos : List WalletUtxo}
    (few : utxos.length < 2 ^ 32) {payload : List UInt8}
    (short : payload.length < 2 ^ 32) (native : generator.txVersion = 0) :
    massOf devnet generator
        (generator.consensusTransaction devnet payments utxos payload) =
      Devnet.computeMass
          (generator.consensusTransaction devnet payments [] payload)
          generator.keys.minimumSignatures +
        utxos.length * devnetInputMass generator := by
  obtain ⟨mass, weighed, massEq⟩ := weighed_devnet atMostTwo few short native
  rw [massOf_eq weighed, massEq]

theorem equalInputs_devnet {request : CompoundingRequest}
    {payments : List WalletPayment} (atMostTwo : payments.length ≤ 2)
    {utxos : List WalletUtxo} (few : utxos.length < 2 ^ 32)
    {payload : List UInt8} (short : payload.length < 2 ^ 32)
    (native : generator.txVersion = 0) :
    EqualInputs devnet generator request
      (generator.consensusTransaction devnet payments utxos payload)
      (devnetInputMass generator) := by
  have inputs : (generator.consensusTransaction devnet payments utxos
      payload).inputs.length = utxos.length := by
    simp [consensusTransaction, Transaction.new]
  constructor
  · unfold devnetInputMass
    omega
  · have alone : massOf devnet generator
        { generator.consensusTransaction devnet payments utxos payload with
          inputs := [] } = _ :=
      @massOf_devnet generator payments atMostTwo [] (by decide) payload short
        native
    rw [alone, massOf_devnet atMostTwo few short native, inputs,
      List.length_nil, Nat.zero_mul, Nat.add_zero]
  · intro payout others fewOthers
    rw [inputs] at fewOthers
    have empty : massOf devnet generator (emptySplit devnet generator request) =
        _ := massOf_devnet (by simp) (by decide) (by decide) native
    rw [empty, List.length_nil, Nat.zero_mul, Nat.add_zero]
    exact weighed_devnet (by simp) (by omega) (by decide) native

private theorem fiveLarge_coversFee :
    ((sampleGenerator 20).prepare devnet (sampleSurroundings 1.0) fiveLarge
        (sampleBook 20) (sampleDescription 4500000000 none)).1.Returns
      fun (request, unsigned) =>
        ((sampleGenerator 20).splitAndInputPerSplitCounts devnet request
          unsigned 107789).Returns fun (count, width) =>
            1 < count ∧ ∀ position < count.toNat,
              CoversFee devnet (sampleGenerator 20) request unsigned
                (position * width.toNat)
                (position * width.toNat + width.toNat) := by
  decide +kernel

/-- Five inputs with twenty signatures each are split. -/
theorem fiveLarge_splits_fit :
    ∃ request unsigned count width,
      ((sampleGenerator 20).prepare devnet (sampleSurroundings 1.0) fiveLarge
        (sampleBook 20) (sampleDescription 4500000000 none)).1 =
          .ok (request, unsigned) ∧
      (sampleGenerator 20).splitAndInputPerSplitCounts devnet request unsigned
        107789 = .ok (count, width) ∧
      1 < count ∧
      (List.range count.toNat).flatMap (fun position =>
          splitPositions 5 (position * width.toNat)
            (position * width.toNat + width.toNat)) = List.range 5 ∧
      ∀ position < count.toNat, ∃ split mass,
        (sampleGenerator 20).createSplitTransaction devnet request unsigned
            (position * width.toNat)
            (position * width.toNat + width.toNat) = .ok split ∧
          computeMassForUnsignedConsensusTransaction devnet split.tx 20 =
            .ok mass ∧
          mass ≤ maximumStandardTransactionMass := by
  obtain ⟨⟨request, unsigned⟩, made, facts⟩ := fiveLarge_run
  dsimp only at facts
  obtain ⟨-, -, payloadEmpty, length, -, weighed, -, oneFits, -, -⟩ := facts
  obtain ⟨payments, utxos, payload, atMostTwo, generated⟩ :=
    (ready_of_prepare made).built
  have tx := tx_of_generateUnsignedTransaction generated
  have few : utxos.length = 5 := by
    rw [← length, tx]
    simp [consensusTransaction, Transaction.new]
  have short : payload = [] := by
    rw [← payloadEmpty, tx]
    rfl
  have equal : EqualInputs devnet (sampleGenerator 20) request unsigned.tx
      (devnetInputMass (sampleGenerator 20)) := by
    rw [tx]
    exact equalInputs_devnet atMostTwo (by rw [few]; decide)
      (by rw [short]; decide) rfl
  have some : 0 < unsigned.tx.inputs.length := by omega
  rw [equal.inputMass_eq some] at oneFits
  obtain ⟨count, width, counted, covered, fits⟩ :=
    @splits_cover_and_fit devnet (sampleGenerator 20) request unsigned _ _
      (List.length_pos_iff.mp some) weighed
      (weighs_devnet rfl (by decide) (by decide)) equal oneFits
  obtain ⟨pair, sameMade, counts, sameCounts, several, covers⟩ :=
    fiveLarge_coversFee
  obtain rfl : (request, unsigned) = pair :=
    Except.ok.inj (made.symm.trans sameMade)
  obtain rfl : (count, width) = counts :=
    Except.ok.inj (counted.symm.trans sameCounts)
  rw [length] at covered
  refine ⟨request, unsigned, count, width, made, counted, several, covered,
    ?_⟩
  intro position below
  obtain ⟨-, light, splits⟩ := fits position below
  obtain ⟨split, created⟩ :=
    splits (weighs_devnet rfl (by decide) (by rw [length]; decide))
      (covers position below)
  obtain ⟨-, mass, splitWeighed, standard⟩ := light split created
  exact ⟨split, mass, created, splitWeighed, standard⟩

end Devnet

end TransactionGenerator

end Kaswallet
