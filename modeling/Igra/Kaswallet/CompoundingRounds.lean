import Igra.Kaswallet.FeeCap
import Mathlib.Algebra.Order.BigOperators.Group.List

/-!
# When a round of compounding goes through

A round goes through when one input fits into a split, every group of inputs
pays for its split, the outputs of the splits pay for the merge transaction and
so do the UTXOs it adds.  The merge transaction then has an input for each
split and each added UTXO.
-/

open Kaspa Rust

namespace Kaswallet

namespace TransactionGenerator

section Conditions

variable (upstream : Upstream) (generator : TransactionGenerator)
  (request : CompoundingRequest) (replies : NodeReplies)
  (manager : UtxoManager)

/-- The mass of a transaction whose mass fits into its type. -/
def massOf (tx : Transaction) : Nat :=
  ((computeMassForUnsignedConsensusTransaction upstream tx
    generator.keys.minimumSignatures).toOption.getD 0).toNat

/-- The mass of one input of the original transaction, rounded up. -/
def inputMass (original : Transaction) : Nat :=
  (massOf upstream generator original -
      massOf upstream generator { original with inputs := [] } +
    (original.inputs.length - 1)) / original.inputs.length

/-- A split transaction before it has inputs. -/
def emptySplit : Transaction :=
  generator.consensusTransaction upstream [⟨request.changeAddress, 0⟩] [] []

def inputsPerSplit (original : Transaction) : Nat :=
  (maximumStandardTransactionMass.toNat -
      massOf upstream generator (emptySplit upstream generator request)) /
    inputMass upstream generator original

/-- The inputs weigh something, and one of them fits into a split. -/
structure Room (original : Transaction) : Prop where
  inputsWeigh : massOf upstream generator { original with inputs := [] } <
    massOf upstream generator original
  oneInputFits :
    massOf upstream generator (emptySplit upstream generator request) +
        inputMass upstream generator original ≤
      maximumStandardTransactionMass.toNat

def splitCount (original : Transaction) : Nat :=
  (original.inputs.length +
      (inputsPerSplit upstream generator request original - 1)) /
    inputsPerSplit upstream generator request original

/-- The UTXOs of the inputs that the split at the position takes. -/
def IsGroup (original : WalletSignableTransaction) (position : Nat)
    (group : List WalletUtxo) : Prop :=
  let width := inputsPerSplit upstream generator request original.tx
  Outcome.collect (inputUtxo original)
    (splitPositions original.tx.inputs.length (position * width)
      (position * width + width)) = .ok group

/-- What the split of a group passes on: its value less the fee estimated for
the split. -/
def PassesOn (original : WalletSignableTransaction) (position : Nat)
    (value : Nat) : Prop :=
  ∃ group total fee,
    IsGroup upstream generator request original position group ∧
    totalAmount group = UInt64.toNat total ∧
    generator.estimateFee upstream group request.feeRate request.maxFee total
      [] = .ok fee ∧
    value + fee.toNat = total.toNat

/-- The UTXO that the split of a group creates with the value that is left. -/
def groupOutput (group : List WalletUtxo) (value : UInt64) : WalletUtxo where
  outpoint := ⟨upstream.transactionId (generator.consensusTransaction upstream
    [⟨request.changeAddress, value⟩] group []), 0⟩
  utxoEntry :=
    { amount := value
      scriptPublicKey := upstream.payToAddressScript request.changeAddress
      blockDaaScore := unacceptedDaaScore
      isCoinbase := false
      isUnconfirmed := false }
  address := request.changeWalletAddress

/-- The UTXO that the split at the position creates. -/
def Yields (original : WalletSignableTransaction) (position : Nat)
    (utxo : WalletUtxo) : Prop :=
  ∃ group total fee value,
    IsGroup upstream generator request original position group ∧
    totalAmount group = UInt64.toNat total ∧
    generator.estimateFee upstream group request.feeRate request.maxFee total
      [] = .ok fee ∧
    UInt64.toNat value + fee.toNat = total.toNat ∧
    utxo = groupOutput upstream generator request group value

/-- UTXOs with the values that the splits pass on. -/
def SplitOutputs (original : WalletSignableTransaction)
    (utxos : List WalletUtxo) : Prop :=
  List.Forall₂
    (fun position utxo =>
      PassesOn upstream generator request original position
        utxo.amount.toNat)
    (List.range (splitCount upstream generator request original.tx)) utxos

/-- What `merge_transaction` settles on for such UTXOs. -/
structure MergeOf (round : Nat) (original : WalletSignableTransaction)
    (plan : MergePlan) : Prop where
  outputs :
    SplitOutputs upstream generator request original plan.splitUtxos
  mergeFee : generator.estimateFee upstream plan.splitUtxos request.feeRate
    request.maxFee request.amount original.tx.payload = .ok plan.mergeFee
  available : totalAmount plan.splitUtxos =
    plan.mergeFee.toNat + plan.availableValue.toNat
  sent : plan.sentValue =
    if request.isSendAll then plan.availableValue else request.amount
  funding :
    (plan.additionalUtxos = [] ∧ plan.sentValue ≤ plan.availableValue) ∨
      AddsUtxos generator request replies manager round original.tx plan

/-- Each group of inputs is worth the fee estimated for its split. -/
def GroupsPay (original : WalletSignableTransaction) : Prop :=
  ∀ position < splitCount upstream generator request original.tx,
    ∀ group total fee,
      IsGroup upstream generator request original position group →
      totalAmount group = UInt64.toNat total →
      generator.estimateFee upstream group request.feeRate request.maxFee
        total [] = .ok fee →
      fee ≤ total

/-- The outputs of the splits are worth the fee estimated for the merge. -/
def MergePays (original : WalletSignableTransaction) : Prop :=
  ∀ utxos fee, SplitOutputs upstream generator request original utxos →
    generator.estimateFee upstream utxos request.feeRate request.maxFee
      request.amount original.tx.payload = .ok fee →
    fee.toNat ≤ totalAmount utxos

/-- Each UTXO that the merge transaction may add is worth the fee charged for
it, and the sums over the store fit. -/
structure AdditionsPay (round : Nat) (original : WalletSignableTransaction) :
    Prop where
  priced : ∃ feePerInput, generator.feePerInput request original.tx =
    .ok feePerInput
  worth : ∀ virtualDaaScore feePerInput,
    replies.virtualDaaScore (round + 1) = .ok virtualDaaScore →
    generator.feePerInput request original.tx = .ok feePerInput →
    ∀ utxo ∈ candidates manager request virtualDaaScore,
      feePerInput ≤ utxo.amount
  matures : ∀ utxo ∈ manager.utxosSortedByAmount,
    utxo.utxoEntry.blockDaaScore.toNat + manager.coinbaseMaturity.toNat <
      2 ^ 64
  total : inputsValue original + totalAmount manager.utxosSortedByAmount <
    2 ^ 64

/-- Every transaction of these payments, this payload and that many inputs is
light enough. -/
def Light (payments : List WalletPayment) (payload : List UInt8)
    (inputCount : Nat) : Prop :=
  ∀ utxos, utxos.length = inputCount →
    massOf upstream generator
        (generator.consensusTransaction upstream payments utxos payload) <
      maximumStandardTransactionMass.toNat

/-- The masses of the transactions with up to two outputs fit into their
type. -/
def Weighs (payload : List UInt8) (inputCount : Nat) : Prop :=
  ∀ payments utxos, payments.length ≤ 2 → utxos.length ≤ inputCount →
    ∃ masses, nonContextualMasses upstream
      (generator.consensusTransaction upstream payments utxos payload)
      generator.keys.minimumSignatures = .ok masses

/-- When a round that compounds a transaction goes through and gets further:
the splits and the UTXOs to be added are fewer than the inputs, or a
transaction with as many inputs is light enough. -/
structure RoundFits (round : Nat) (original : WalletSignableTransaction) :
    Prop where
  weighs : ∀ payload ∈ [[], original.tx.payload],
    Weighs upstream generator payload
      (original.tx.inputs.length + manager.utxosSortedByAmount.length)
  room : Room upstream generator request original.tx
  groups : GroupsPay upstream generator request original
  merge : MergePays upstream generator request original
  additions : ∀ utxos fee,
    SplitOutputs upstream generator request original utxos →
    generator.estimateFee upstream utxos request.feeRate request.maxFee
      request.amount original.tx.payload = .ok fee →
    totalAmount utxos < request.amount.toNat + fee.toNat →
    request.isSendAll = false → request.preselectedUtxoOutpoints = [] →
    AdditionsPay generator request replies manager round original
  progress : ∀ plan,
    MergeOf upstream generator request replies manager round original plan →
    splitCount upstream generator request original.tx +
          plan.additionalUtxos.length < original.tx.inputs.length ∨
      Light upstream generator (mergePayments request plan)
        original.tx.payload
        (splitCount upstream generator request original.tx +
          plan.additionalUtxos.length)

end Conditions

section Masses

variable {upstream : Upstream} {generator : TransactionGenerator}

theorem massOf_eq {tx : Transaction} {mass : UInt64}
    (weighed : computeMassForUnsignedConsensusTransaction upstream tx
      generator.keys.minimumSignatures = .ok mass) :
    massOf upstream generator tx = mass.toNat := by
  simp [massOf, weighed, Except.toOption]

theorem exists_mass_withoutInputs (upstream : Upstream) (tx : Transaction)
    (minimumSignatures : UInt16) :
    ∃ mass, computeMassForUnsignedConsensusTransaction upstream
      { tx with inputs := [] } minimumSignatures = .ok mass := by
  unfold computeMassForUnsignedConsensusTransaction
  dsimp only
  split
  · refine ⟨upstream.unsignedComputeMass { tx with inputs := [] }
      minimumSignatures, ?_⟩
    exact Outcome.bind_eq_ok.mpr ⟨[], rfl,
      Outcome.bind_eq_ok.mpr ⟨0, by simp, by simp⟩⟩
  · exact ⟨_, rfl⟩

theorem exists_computeMass_of_masses {tx : Transaction}
    {minimumSignatures : UInt16} {masses : NonContextualMasses}
    (weighed : nonContextualMasses upstream tx minimumSignatures =
      .ok masses) :
    ∃ mass, computeMassForUnsignedConsensusTransaction upstream tx
      minimumSignatures = .ok mass := by
  unfold nonContextualMasses at weighed
  obtain ⟨mass, computed, -⟩ := Outcome.bind_eq_ok.mp weighed
  exact ⟨mass, computed⟩

theorem exists_feeMass_of_masses {tx : Transaction}
    {minimumSignatures : UInt16} {masses : NonContextualMasses}
    (weighed : nonContextualMasses upstream tx minimumSignatures =
      .ok masses) :
    ∃ mass, nonContextualFeeMass upstream tx minimumSignatures =
      .ok mass :=
  ⟨_, Outcome.bind_eq_ok.mpr ⟨masses, weighed, rfl⟩⟩

/-- A transaction is weighed if its size with the signatures fits. -/
theorem exists_masses_of_fits {tx : Transaction}
    {minimumSignatures : UInt16} {mass : UInt64}
    (computed : computeMassForUnsignedConsensusTransaction upstream tx
      minimumSignatures = .ok mass)
    (few : tx.inputs.length < 2 ^ 32)
    (short : (upstream.estimatedSerializedSize tx).toNat < 2 ^ 60) :
    ∃ masses, nonContextualMasses upstream tx minimumSignatures =
      .ok masses := by
  have signatureBound := (max minimumSignatures 1).toNat_lt
  have perInputFits : 66 * (max minimumSignatures 1).toNat < 2 ^ 23 := by
    omega
  obtain ⟨perInput, perInputEq⟩ := exists_toNat_eq
    (perInputFits.trans (by decide))
  obtain ⟨inputCount, countEq⟩ := exists_toNat_eq (few.trans (by decide))
  have bytesFit : perInput.toNat * inputCount.toNat < 2 ^ 55 := by
    calc perInput.toNat * inputCount.toNat
        ≤ 2 ^ 23 * inputCount.toNat :=
          Nat.mul_le_mul_right _ (perInputEq ▸ perInputFits.le)
      _ < 2 ^ 23 * 2 ^ 32 :=
          Nat.mul_lt_mul_of_pos_left (countEq ▸ few) (by decide)
  obtain ⟨signatureBytes, bytesEq⟩ := exists_toNat_eq
    (bytesFit.trans (by decide))
  obtain ⟨signedSize, sizeEq⟩ := exists_toNat_eq
    (show (upstream.estimatedSerializedSize tx).toNat +
      signatureBytes.toNat < 2 ^ 64 by omega)
  obtain ⟨transientMass, transientEq⟩ := exists_toNat_eq
    (show signedSize.toNat * 4 < 2 ^ 64 by omega)
  refine ⟨⟨mass, transientMass⟩, ?_⟩
  simp only [nonContextualMasses, estimateTransientMass, Outcome.bind_eq_ok,
    checkedMul_eq_ok, checkedAdd_eq_ok, checkedLength_eq_ok,
    Outcome.pure_eq_ok, UInt16.toNat_toUInt64]
  exact ⟨mass, computed, transientMass,
    ⟨perInput, perInputEq.symm, inputCount, countEq.symm, signatureBytes,
      bytesEq.symm, signedSize, sizeEq.symm, transientEq.symm⟩, rfl⟩

/-- A transaction that could be weighed has fewer than `2 ^ 64` inputs. -/
theorem length_lt_of_masses {tx : Transaction} {minimumSignatures : UInt16}
    {masses : NonContextualMasses}
    (weighed : nonContextualMasses upstream tx minimumSignatures =
      .ok masses) :
    tx.inputs.length < 2 ^ 64 := by
  simp only [nonContextualMasses, estimateTransientMass, Outcome.bind_eq_ok,
    checkedLength_eq_ok] at weighed
  obtain ⟨-, -, -, ⟨-, -, count, counted, -⟩, -⟩ := weighed
  rw [counted]
  exact count.toNat_lt

end Masses

section Settles

variable {upstream : Upstream} {generator : TransactionGenerator}
  {request : CompoundingRequest}

theorem settled_mapError {α : Type} (wrap : String → WalletError)
    (result : Except String α) : (mapError wrap result).Settled := by
  cases result with
  | ok value => exact Outcome.settled_ok value
  | error reason => exact Outcome.settled_err (wrap reason)

theorem settled_generateUnsignedTransaction {payments : List WalletPayment}
    {utxos : List WalletUtxo} {payload : List UInt8}
    {masses : NonContextualMasses}
    (weighed : nonContextualMasses upstream
      (generator.consensusTransaction upstream payments utxos payload)
      generator.keys.minimumSignatures = .ok masses) :
    (generator.generateUnsignedTransaction upstream payments utxos
      payload).Settled := by
  unfold generateUnsignedTransaction
  apply Outcome.Settled.bind
  · apply Outcome.settled_collect
    intro utxo _
    exact settled_mapError _ _
  · intro paths _
    have aligned : (generator.consensusTransaction upstream payments utxos
        payload).inputs.length =
        (utxos.map fun utxo => utxo.utxoEntry.toUtxoEntry).length := by
      simp [consensusTransaction, Transaction.new]
    simp only [SignableTransaction.withEntries, aligned, if_true,
      Outcome.ok_bind, weighed]
    exact Outcome.settled_ok _

private theorem length_mockPayments
    (totalValue estimatedRecipientValue : UInt64) :
    (generator.mockPayments totalValue estimatedRecipientValue).length ≤
      2 := by
  unfold mockPayments
  dsimp only
  split <;> simp

theorem settled_estimateFee {utxos : List WalletUtxo} {feeRate : Float}
    {maxFee recipientValue : UInt64} {payload : List UInt8}
    {inputCount : Nat}
    (weighs : Weighs upstream generator payload inputCount)
    (few : utxos.length ≤ inputCount) (fits : totalAmount utxos < 2 ^ 64) :
    (generator.estimateFee upstream utxos feeRate maxFee recipientValue
      payload).Settled := by
  obtain ⟨total, summed⟩ := exists_toNat_eq fits
  obtain ⟨masses, weighed⟩ := weighs
    (generator.mockPayments total recipientValue) utxos
    (length_mockPayments total recipientValue) few
  unfold estimateFee estimateMass
  rw [checkedSum_amounts_eq_ok.mpr summed.symm, Outcome.ok_bind]
  apply Outcome.Settled.bind
  · apply Outcome.Settled.bind (settled_generateUnsignedTransaction weighed)
    intro mock generated
    rw [tx_of_generateUnsignedTransaction generated]
    exact .inl (exists_feeMass_of_masses weighed)
  · intro mass _
    exact Outcome.settled_ok _

theorem settled_checkTransactionFeeRate
    {transaction : WalletSignableTransaction} {masses : NonContextualMasses}
    (ins : inputsValue transaction < 2 ^ 64)
    (outs : outputsValue transaction < 2 ^ 64)
    (weighed : nonContextualMasses upstream transaction.tx
      generator.keys.minimumSignatures = .ok masses) :
    (generator.checkTransactionFeeRate upstream transaction).Settled := by
  obtain ⟨totalIns, insEq⟩ := exists_toNat_eq ins
  obtain ⟨totalOuts, outsEq⟩ := exists_toNat_eq outs
  obtain ⟨mass, feeMass⟩ := exists_feeMass_of_masses weighed
  have insSum : (checkedSum (entryAmounts transaction.transaction.inner) :
      WalletResult UInt64) = .ok totalIns :=
    checkedSum_eq_ok.mpr insEq.symm
  have outsSum : (checkedSum (outputValues transaction.transaction.inner.tx) :
      WalletResult UInt64) = .ok totalOuts :=
    checkedSum_eq_ok.mpr outsEq.symm
  have weighedInner : nonContextualFeeMass upstream
      transaction.transaction.inner.tx generator.keys.minimumSignatures =
        .ok mass := feeMass
  unfold checkTransactionFeeRate
  dsimp only
  rw [insSum, Outcome.ok_bind, outsSum, Outcome.ok_bind]
  split
  · exact Outcome.settled_err _
  · rw [weighedInner, Outcome.ok_bind]
    split
    · exact Outcome.settled_err _
    · exact Outcome.settled_ok ()

end Settles

section Groups

variable {upstream : Upstream} {generator : TransactionGenerator}
  {request : CompoundingRequest} {original : WalletSignableTransaction}

variable (upstream generator) in
/-- A transaction that the generator has built. -/
def Built (transaction : WalletSignableTransaction) : Prop :=
  ∃ payments utxos payload, payments.length ≤ 2 ∧
    generator.generateUnsignedTransaction upstream payments utxos payload =
      .ok transaction

theorem Built.masses (built : Built upstream generator original) :
    ∃ masses, nonContextualMasses upstream original.tx
      generator.keys.minimumSignatures = .ok masses := by
  obtain ⟨payments, utxos, payload, -, generated⟩ := built
  obtain ⟨paths, masses, -, weighed, rfl⟩ :=
    generateUnsignedTransaction_eq_ok.mp generated
  exact ⟨masses, weighed⟩

theorem Built.exists_inputUtxo (built : Built upstream generator original)
    {position : Nat} (inside : position < original.tx.inputs.length) :
    ∃ utxo, inputUtxo original position = .ok utxo := by
  obtain ⟨payments, utxos, payload, -, generated⟩ := built
  have entries := entries_of_generateUnsignedTransaction generated
  have addresses := addressByInputIndex_of_generateUnsignedTransaction
    generated
  have length : original.tx.inputs.length = utxos.length := by
    simp [tx_of_generateUnsignedTransaction generated, consensusTransaction,
      Transaction.new]
  have bound : position < utxos.length := length ▸ inside
  have entry : original.transaction.inner.entries[position]? =
      some (some utxos[position].utxoEntry.toUtxoEntry) := by
    simp [entries, bound]
  have address : original.addressByInputIndex[position]? =
      some utxos[position].address := by
    simp [addresses, bound]
  simp only [inputUtxo, Outcome.bind_eq_ok, Outcome.index_eq_ok,
    Outcome.ofOption_eq_ok, Outcome.pure_eq_ok]
  exact ⟨_, _, List.getElem?_eq_getElem inside, _, entry, _, rfl, _, address,
    rfl⟩

theorem Built.length_entryAmounts (built : Built upstream generator original) :
    (entryAmounts original.transaction.inner).length =
      original.tx.inputs.length := by
  obtain ⟨payments, utxos, payload, -, generated⟩ := built
  simp [entryAmounts, entries_of_generateUnsignedTransaction generated,
    tx_of_generateUnsignedTransaction generated, consensusTransaction,
    Transaction.new]

private theorem amount_of_inputUtxo {position : Nat} {utxo : WalletUtxo}
    (read : inputUtxo original position = .ok utxo) :
    some utxo.amount =
      (entryAmounts original.transaction.inner)[position]? := by
  simp only [inputUtxo, Outcome.bind_eq_ok, Outcome.index_eq_ok,
    Outcome.ofOption_eq_ok, Outcome.pure_eq_ok] at read
  obtain ⟨-, -, slot, found, entry, rfl, -, -, rfl⟩ := read
  simp [entryAmounts, found, WalletUtxo.amount, WalletUtxoEntry.ofUtxoEntry]

theorem amounts_of_group (built : Built upstream generator original)
    {start stop : Nat} {group : List WalletUtxo}
    (inside : start ≤ original.tx.inputs.length)
    (collected : Outcome.collect (inputUtxo original)
      (splitPositions original.tx.inputs.length start stop) = .ok group) :
    group.map WalletUtxo.amount =
      ((entryAmounts original.transaction.inner).drop start).take
        (stop - start) := by
  have read := Outcome.map_eq_of_collect collected
    fun _ _ _ => amount_of_inputUtxo
  rw [← built.length_entryAmounts,
    map_splitPositions _ _ (built.length_entryAmounts ▸ inside)] at read
  apply List.map_injective_iff.mpr (Option.some_injective _)
  rw [← read, List.map_map]
  rfl

theorem totalAmount_eq_sum (utxos : List WalletUtxo) :
    totalAmount utxos =
      ((utxos.map WalletUtxo.amount).map UInt64.toNat).sum := by
  simp [totalAmount, Function.comp_def]

theorem totalAmount_le_of_group (built : Built upstream generator original)
    {start stop : Nat} {group : List WalletUtxo}
    (inside : start ≤ original.tx.inputs.length)
    (collected : Outcome.collect (inputUtxo original)
      (splitPositions original.tx.inputs.length start stop) = .ok group) :
    totalAmount group ≤ inputsValue original := by
  have slice : (group.map WalletUtxo.amount).Sublist
      (entryAmounts original.transaction.inner) := by
    rw [amounts_of_group built inside collected]
    exact (List.take_sublist _ _).trans (List.drop_sublist _ _)
  rw [totalAmount_eq_sum]
  exact (slice.map UInt64.toNat).sum_le_sum (by simp)

end Groups

section Splitting

variable {upstream : Upstream} {generator : TransactionGenerator}
  {request : CompoundingRequest} {original : WalletSignableTransaction}

theorem Room.inputMass_pos
    (room : Room upstream generator request original.tx) :
    0 < original.tx.inputs.length ∧
      0 < inputMass upstream generator original.tx ∧
      0 < inputsPerSplit upstream generator request original.tx := by
  have heavier := room.inputsWeigh
  have some : 0 < original.tx.inputs.length := by
    rw [List.length_pos_iff]
    intro nothing
    rw [← nothing] at heavier
    exact absurd heavier (lt_irrefl _)
  have positive : 0 < inputMass upstream generator original.tx :=
    Nat.div_pos (by omega) some
  have fits := room.oneInputFits
  exact ⟨some, positive, Nat.div_pos (by omega) positive⟩

theorem tx_of_dummy {dummy : WalletSignableTransaction}
    (created : generator.createSplitTransaction upstream request original 0
      0 = .ok dummy) :
    dummy.tx = emptySplit upstream generator request := by
  obtain ⟨utxos, total, payout, collected, summed, paid, generated⟩ :=
    createSplitTransaction_eq_ok.mp created
  cases collected
  have zero : total = 0 := by
    rw [← UInt64.toNat_inj, ← summed]
    rfl
  cases paid
  rw [tx_of_generateUnsignedTransaction generated, zero]
  rfl

private theorem exists_dummy (request : CompoundingRequest)
    (original : WalletSignableTransaction) {inputCount : Nat}
    (weighs : Weighs upstream generator [] inputCount) :
    ∃ dummy, generator.createSplitTransaction upstream request original 0 0 =
      .ok dummy := by
  obtain ⟨masses, weighed⟩ := weighs [⟨request.changeAddress, 0⟩] []
    (by simp) (Nat.zero_le inputCount)
  exact ⟨_, createSplitTransaction_eq_ok.mpr ⟨[], 0, 0, rfl, rfl, rfl,
    generateUnsignedTransaction_eq_ok.mpr ⟨[], masses, rfl, weighed, rfl⟩⟩⟩

theorem exists_inputMass {transactionMass : UInt64}
    (few : original.tx.inputs.length < 2 ^ 64)
    (room : Room upstream generator request original.tx)
    (weighed : computeMassForUnsignedConsensusTransaction upstream
      original.tx generator.keys.minimumSignatures = .ok transactionMass) :
    ∃ massWithoutInputs massOfAllInputs inputCount massPerInput,
      computeMassForUnsignedConsensusTransaction upstream
          { original.tx with inputs := [] }
          generator.keys.minimumSignatures = .ok massWithoutInputs ∧
        (checkedSub transactionMass massWithoutInputs :
          WalletResult UInt64) = .ok massOfAllInputs ∧
        (checkedLength original.tx.inputs : WalletResult UInt64) =
          .ok inputCount ∧
        divideRoundingUp massOfAllInputs inputCount = .ok massPerInput ∧
        inputCount.toNat = original.tx.inputs.length ∧
        massPerInput.toNat = inputMass upstream generator original.tx := by
  obtain ⟨some, -, -⟩ := room.inputMass_pos
  have heavier := room.inputsWeigh
  obtain ⟨massWithoutInputs, restWeighed⟩ := exists_mass_withoutInputs
    upstream original.tx generator.keys.minimumSignatures
  rw [massOf_eq weighed, massOf_eq restWeighed] at heavier
  obtain ⟨massOfAllInputs, allInputsEq⟩ := exists_toNat_eq
    ((Nat.sub_le _ massWithoutInputs.toNat).trans_lt
      transactionMass.toNat_lt)
  obtain ⟨inputCount, countEq⟩ := exists_toNat_eq few
  obtain ⟨massPerInput, divided, perInputEq⟩ := exists_divideRoundingUp
    massOfAllInputs inputCount (by omega)
  refine ⟨massWithoutInputs, massOfAllInputs, inputCount, massPerInput,
    restWeighed, checkedSub_eq_ok.mpr (by omega),
    checkedLength_eq_ok.mpr countEq.symm, divided, countEq, ?_⟩
  rw [perInputEq, allInputsEq, countEq, inputMass, massOf_eq weighed,
    massOf_eq restWeighed]

theorem exists_inputsPerSplit {inputCount : Nat} {massPerInput : UInt64}
    {dummy : WalletSignableTransaction}
    (weighs : Weighs upstream generator [] inputCount)
    (room : Room upstream generator request original.tx)
    (perInput :
      massPerInput.toNat = inputMass upstream generator original.tx)
    (created : generator.createSplitTransaction upstream request original 0
      0 = .ok dummy) :
    ∃ massOfEverythingElse massForInputs inputsPerSplitCount,
      computeMassForUnsignedConsensusTransaction upstream dummy.tx
          generator.keys.minimumSignatures = .ok massOfEverythingElse ∧
        (checkedSub maximumStandardTransactionMass massOfEverythingElse :
          WalletResult UInt64) = .ok massForInputs ∧
        (checkedDiv massForInputs massPerInput : WalletResult UInt64) =
          .ok inputsPerSplitCount ∧
        inputsPerSplitCount.toNat =
          inputsPerSplit upstream generator request original.tx := by
  obtain ⟨-, positive, -⟩ := room.inputMass_pos
  have fits := room.oneInputFits
  obtain ⟨masses, dummyWeighs⟩ := weighs [⟨request.changeAddress, 0⟩] []
    (by simp) (Nat.zero_le _)
  obtain ⟨empty, emptyWeighed⟩ := exists_computeMass_of_masses dummyWeighs
  have emptyMass :
      massOf upstream generator (emptySplit upstream generator request) =
        empty.toNat := massOf_eq emptyWeighed
  rw [emptyMass] at fits
  obtain ⟨massForInputs, forInputsEq⟩ := exists_toNat_eq
    ((Nat.sub_le maximumStandardTransactionMass.toNat empty.toNat).trans_lt
      maximumStandardTransactionMass.toNat_lt)
  obtain ⟨width, widthEq⟩ := exists_toNat_eq
    ((Nat.div_le_self massForInputs.toNat massPerInput.toNat).trans_lt
      massForInputs.toNat_lt)
  refine ⟨empty, massForInputs, width, ?_, checkedSub_eq_ok.mpr (by omega),
    checkedDiv_eq_ok.mpr ⟨by omega, widthEq.symm⟩, ?_⟩
  · rw [tx_of_dummy created]
    exact emptyWeighed
  · rw [widthEq, forInputsEq, perInput, inputsPerSplit, emptyMass]

/-- Nothing is divided by zero on the way to the number of splits. -/
theorem exists_splitCounts {inputCount : Nat} {transactionMass : UInt64}
    (few : original.tx.inputs.length < 2 ^ 64)
    (weighs : Weighs upstream generator [] inputCount)
    (room : Room upstream generator request original.tx)
    (weighed : computeMassForUnsignedConsensusTransaction upstream
      original.tx generator.keys.minimumSignatures = .ok transactionMass) :
    ∃ count width, generator.splitAndInputPerSplitCounts upstream request
        original transactionMass = .ok (count, width) ∧
      count.toNat = splitCount upstream generator request original.tx ∧
      width.toNat = inputsPerSplit upstream generator request original.tx := by
  obtain ⟨-, -, wide⟩ := room.inputMass_pos
  obtain ⟨rest, allInputs, inputCount, perInput, restWeighed, subtracted,
    counted, divided, countEq, perInputEq⟩ :=
      exists_inputMass few room weighed
  obtain ⟨dummy, created⟩ := exists_dummy request original weighs
  obtain ⟨empty, forInputs, width, emptyWeighed, roomLeft, perSplit,
    widthEq⟩ := exists_inputsPerSplit weighs room perInputEq created
  obtain ⟨count, roundedUp, splitCountEq⟩ := exists_divideRoundingUp
    inputCount width (by omega)
  have countIs : count.toNat =
      splitCount upstream generator request original.tx := by
    rw [splitCountEq, countEq, widthEq]
    rfl
  refine ⟨count, width, ?_, countIs, widthEq⟩
  unfold splitAndInputPerSplitCounts
  rw [restWeighed, Outcome.ok_bind, subtracted, Outcome.ok_bind, counted,
    Outcome.ok_bind, divided, Outcome.ok_bind, created, Outcome.ok_bind,
    emptyWeighed, Outcome.ok_bind, roomLeft, Outcome.ok_bind, perSplit,
    Outcome.ok_bind, roundedUp, Outcome.ok_bind]
  rfl

theorem splitCounts_eq_ok {transactionMass count width : UInt64}
    (weighed : computeMassForUnsignedConsensusTransaction upstream
      original.tx generator.keys.minimumSignatures = .ok transactionMass)
    (counted : generator.splitAndInputPerSplitCounts upstream request original
      transactionMass = .ok (count, width)) :
    Room upstream generator request original.tx ∧
      count.toNat = splitCount upstream generator request original.tx ∧
      width.toNat = inputsPerSplit upstream generator request original.tx := by
  simp only [splitAndInputPerSplitCounts, Outcome.bind_eq_ok,
    checkedSub_eq_ok, checkedLength_eq_ok, checkedDiv_eq_ok,
    Outcome.pure_eq_ok, Prod.mk.injEq] at counted
  obtain ⟨rest, restWeighed, allInputs, subtracted, inputCount, length,
    perInput, divided, dummy, created, empty, emptyWeighed, forInputs,
    roomLeft, width, ⟨perInputSome, widthEq⟩, count, roundedUp, rfl, rfl⟩ :=
      counted
  rw [tx_of_dummy created] at emptyWeighed
  have whole := massOf_eq weighed
  have without := massOf_eq restWeighed
  have emptyMass := massOf_eq emptyWeighed
  obtain ⟨some, perInputEq⟩ := toNat_divideRoundingUp divided
  obtain ⟨wide, countEq⟩ := toNat_divideRoundingUp roundedUp
  have perInputIs : perInput.toNat =
      inputMass upstream generator original.tx := by
    rw [perInputEq, inputMass, whole, without, length]
    congr 2
    omega
  have widthIs : width.toNat =
      inputsPerSplit upstream generator request original.tx := by
    rw [← widthEq, inputsPerSplit, emptyMass, ← perInputIs]
    congr 1
    omega
  refine ⟨⟨?_, ?_⟩, ?_, widthIs⟩
  · rw [whole, without]
    by_contra light
    have nothing : allInputs.toNat = 0 := by omega
    rw [nothing, Nat.zero_add, Nat.div_eq_of_lt (by omega)] at perInputEq
    exact perInputSome perInputEq
  · rw [emptyMass, ← perInputIs]
    have reached : perInput.toNat ≤ forInputs.toNat := by
      by_contra small
      rw [Nat.div_eq_of_lt (by omega)] at widthEq
      omega
    omega
  · rw [countEq, splitCount, ← widthIs, length]

theorem mem_splitPositions {inputCount start stop position : Nat}
    (inside : start ≤ inputCount)
    (visited : position ∈ splitPositions inputCount start stop) :
    position < inputCount := by
  have slice := map_splitPositions (List.range inputCount) stop
    (by simpa using inside)
  rw [List.length_range] at slice
  have found := List.mem_map_of_mem
    (f := fun position => (List.range inputCount)[position]?) visited
  rw [slice] at found
  obtain ⟨item, -, read⟩ := List.mem_map.mp found
  simpa using (List.getElem?_eq_some_iff.mp read.symm).1

theorem length_splitPositions {inputCount start stop : Nat}
    (inside : start ≤ inputCount) :
    (splitPositions inputCount start stop).length =
      min (stop - start) (inputCount - start) := by
  have slice := congrArg List.length
    (map_splitPositions (List.range inputCount) stop (by simpa using inside))
  simpa using slice

theorem mul_inputsPerSplit_lt
    (wide : 0 < inputsPerSplit upstream generator request original.tx)
    {position : Nat}
    (inside : position < splitCount upstream generator request original.tx) :
    position * inputsPerSplit upstream generator request original.tx <
      original.tx.inputs.length := by
  exact (roundedUp_bounds wide).2 position inside

theorem group_spec {position : Nat} {group : List WalletUtxo}
    (built : Built upstream generator original)
    (room : Room upstream generator request original.tx)
    (inside : position < splitCount upstream generator request original.tx)
    (isGroup : IsGroup upstream generator request original position group) :
    group ≠ [] ∧ group.length ≤ original.tx.inputs.length ∧
      totalAmount group ≤ inputsValue original := by
  obtain ⟨-, -, wide⟩ := room.inputMass_pos
  have start := mul_inputsPerSplit_lt wide inside
  have length := Outcome.length_of_collect_eq_ok isGroup
  rw [length_splitPositions start.le] at length
  refine ⟨?_, by omega, totalAmount_le_of_group built start.le isGroup⟩
  rw [← List.length_pos_iff]
  omega

theorem settled_checkedSplit {position inputCount : Nat}
    (built : Built upstream generator original)
    (room : Room upstream generator request original.tx)
    (weighs : Weighs upstream generator [] inputCount)
    (few : original.tx.inputs.length ≤ inputCount)
    (value : inputsValue original < 2 ^ 64)
    (pay : GroupsPay upstream generator request original)
    (inside : position < splitCount upstream generator request original.tx) :
    (generator.checkedSplit upstream request original
      (inputsPerSplit upstream generator request original.tx)
      position).Settled := by
  obtain ⟨-, -, wide⟩ := room.inputMass_pos
  have start := (mul_inputsPerSplit_lt wide inside).le
  unfold checkedSplit createSplitTransaction
  apply Outcome.Settled.bind
  · apply Outcome.Settled.bind
    · apply Outcome.settled_collect
      intro visited member
      exact .inl (built.exists_inputUtxo (mem_splitPositions start member))
    · intro group isGroup
      obtain ⟨some, short, worth⟩ := group_spec built room inside isGroup
      obtain ⟨total, summed⟩ := exists_toNat_eq (worth.trans_lt value)
      rw [checkedSum_amounts_eq_ok.mpr summed.symm, Outcome.ok_bind]
      apply Outcome.Settled.bind
      · have notEmpty : group.isEmpty = false := by simpa using some
        simp only [splitPayout, notEmpty, Bool.false_eq_true, if_false]
        apply Outcome.Settled.bind (settled_estimateFee weighs
          (short.trans few) (worth.trans_lt value))
        intro fee estimated
        have paid := UInt64.le_iff_toNat_le.mp
          (pay position inside group total fee isGroup summed.symm estimated)
        obtain ⟨payout, payoutEq⟩ := exists_toNat_eq
          ((Nat.sub_le total.toNat fee.toNat).trans_lt total.toNat_lt)
        exact .inl ⟨payout, checkedSub_eq_ok.mpr (by omega)⟩
      · intro payout _
        obtain ⟨masses, weighed⟩ := weighs
          [⟨request.changeAddress, payout⟩] group (by simp)
          (short.trans few)
        exact settled_generateUnsignedTransaction weighed
  · intro split created
    obtain ⟨group, total, payout, isGroup, summed, paid, generated⟩ :=
      createSplitTransaction_eq_ok.mp created
    obtain ⟨-, short, worth⟩ := group_spec built room inside isGroup
    obtain ⟨masses, weighed⟩ := weighs
      [⟨request.changeAddress, payout⟩] group (by simp) (short.trans few)
    have ins : inputsValue split < 2 ^ 64 := by
      rw [inputsValue_of_generateUnsignedTransaction generated]
      exact worth.trans_lt value
    have outs : outputsValue split < 2 ^ 64 := by
      rw [outputsValue_of_generateUnsignedTransaction generated]
      simpa using payout.toNat_lt
    rw [← tx_of_generateUnsignedTransaction generated] at weighed
    apply Outcome.Settled.bind
      (settled_checkTransactionFeeRate ins outs weighed)
    intro _ _
    exact Outcome.settled_ok split

theorem yields_of_checkedSplit {position : Nat}
    {split : WalletSignableTransaction} {utxo : WalletUtxo}
    (built : Built upstream generator original)
    (room : Room upstream generator request original.tx)
    (inside : position < splitCount upstream generator request original.tx)
    (created : generator.checkedSplit upstream request original
      (inputsPerSplit upstream generator request original.tx) position =
        .ok split)
    (output : splitUtxo upstream request split = .ok utxo) :
    Yields upstream generator request original position utxo := by
  obtain ⟨made, created, checked⟩ := Outcome.bind_eq_ok.mp created
  obtain ⟨_, -, same⟩ := Outcome.bind_eq_ok.mp checked
  cases same
  obtain ⟨group, total, value, isGroup, summed, paid, generated⟩ :=
    createSplitTransaction_eq_ok.mp created
  obtain ⟨some, -, -⟩ := group_spec built room inside isGroup
  have notEmpty : group.isEmpty = false := by simpa using some
  simp only [splitPayout, notEmpty, Bool.false_eq_true, if_false,
    Outcome.bind_eq_ok, checkedSub_eq_ok] at paid
  obtain ⟨fee, estimated, split⟩ := paid
  have tx := tx_of_generateUnsignedTransaction generated
  have isOutput : utxo = groupOutput upstream generator request group value := by
    simp only [splitUtxo, tx, Outcome.bind_eq_ok, Outcome.index_eq_ok]
      at output
    obtain ⟨_, first, rest⟩ := output
    cases first
    cases rest
    rfl
  exact ⟨group, total, fee, value, isGroup, summed, estimated, by omega,
    isOutput⟩

theorem Yields.passesOn {position : Nat} {utxo : WalletUtxo}
    (yields : Yields upstream generator request original position utxo) :
    PassesOn upstream generator request original position
      utxo.amount.toNat := by
  obtain ⟨group, total, fee, value, isGroup, summed, estimated, left, rfl⟩ :=
    yields
  exact ⟨group, total, fee, isGroup, summed, estimated, left⟩

theorem settled_splitTransactions {inputCount : Nat}
    {transactionMass : UInt64}
    (built : Built upstream generator original)
    (room : Room upstream generator request original.tx)
    (weighs : Weighs upstream generator [] inputCount)
    (few : original.tx.inputs.length ≤ inputCount)
    (value : inputsValue original < 2 ^ 64)
    (pay : GroupsPay upstream generator request original)
    (weighed : computeMassForUnsignedConsensusTransaction upstream
      original.tx generator.keys.minimumSignatures = .ok transactionMass) :
    (generator.splitTransactions upstream request original
      transactionMass).Settled := by
  obtain ⟨masses, whole⟩ := built.masses
  obtain ⟨count, width, counted, countIs, widthIs⟩ :=
    exists_splitCounts (length_lt_of_masses whole) weighs room weighed
  unfold splitTransactions
  rw [counted, Outcome.ok_bind]
  apply Outcome.settled_collect
  intro position member
  rw [widthIs]
  apply settled_checkedSplit built room weighs few value pay
  rw [← countIs]
  exact List.mem_range.mp member

/-- The splits create what the groups of inputs yield. -/
theorem yields_of_splitTransactions {transactionMass : UInt64}
    {splits : List WalletSignableTransaction} {utxos : List WalletUtxo}
    (built : Built upstream generator original)
    (weighed : computeMassForUnsignedConsensusTransaction upstream
      original.tx generator.keys.minimumSignatures = .ok transactionMass)
    (made : generator.splitTransactions upstream request original
      transactionMass = .ok splits)
    (outputs : Outcome.collect (splitUtxo upstream request) splits =
      .ok utxos) :
    Room upstream generator request original.tx ∧
      List.Forall₂ (Yields upstream generator request original)
        (List.range (splitCount upstream generator request original.tx))
        utxos := by
  unfold splitTransactions at made
  obtain ⟨⟨count, width⟩, counted, made⟩ := Outcome.bind_eq_ok.mp made
  obtain ⟨room, countIs, widthIs⟩ := splitCounts_eq_ok weighed counted
  dsimp only at made
  rw [countIs, widthIs] at made
  refine ⟨room, Outcome.forall₂_of_collect_collect made outputs ?_⟩
  intro position member split utxo created output
  exact yields_of_checkedSplit built room (List.mem_range.mp member) created
    output

theorem splitOutputs_of_yields {utxos : List WalletUtxo}
    (yields : List.Forall₂ (Yields upstream generator request original)
      (List.range (splitCount upstream generator request original.tx))
      utxos) :
    SplitOutputs upstream generator request original utxos :=
  yields.imp fun _ _ => Yields.passesOn

theorem splitCount_le_length
    (room : Room upstream generator request original.tx) :
    splitCount upstream generator request original.tx ≤
      original.tx.inputs.length := by
  obtain ⟨some, -, wide⟩ := room.inputMass_pos
  unfold splitCount
  rw [Nat.div_le_iff_le_mul_add_pred wide]
  have scaled := Nat.mul_le_mul_right original.tx.inputs.length wide
  omega

variable (upstream generator request original) in
/-- The amounts of the inputs that the split at the position takes. -/
def groupAmounts (position : Nat) : List UInt64 :=
  let width := inputsPerSplit upstream generator request original.tx
  ((entryAmounts original.transaction.inner).drop (position * width)).take
    width

theorem sum_groupAmounts (built : Built upstream generator original)
    (room : Room upstream generator request original.tx) :
    ((List.range (splitCount upstream generator request original.tx)).map
        fun position => ((groupAmounts upstream generator request original
          position).map UInt64.toNat).sum).sum =
      inputsValue original := by
  obtain ⟨-, -, wide⟩ := room.inputMass_pos
  have whole : original.tx.inputs.length ≤
      splitCount upstream generator request original.tx *
        inputsPerSplit upstream generator request original.tx :=
    (roundedUp_bounds wide).1
  have slices := flatMap_slices (entryAmounts original.transaction.inner)
    (inputsPerSplit upstream generator request original.tx)
    (splitCount upstream generator request original.tx)
  rw [List.take_of_length_le (built.length_entryAmounts ▸ whole)] at slices
  rw [inputsValue, ← slices, List.map_flatMap, List.flatMap_def,
    List.sum_flatten, List.map_map]
  rfl

theorem PassesOn.spec {position value : Nat}
    (passes : PassesOn upstream generator request original position value)
    (built : Built upstream generator original)
    (room : Room upstream generator request original.tx)
    (inside : position < splitCount upstream generator request original.tx) :
    value ≤ ((groupAmounts upstream generator request original position).map
        UInt64.toNat).sum ∧
      ((groupAmounts upstream generator request original position).map
        UInt64.toNat).sum ≤ value + request.maxFee.toNat := by
  obtain ⟨-, -, wide⟩ := room.inputMass_pos
  obtain ⟨group, total, fee, isGroup, summed, estimated, passesOn⟩ := passes
  have capped := estimateFee_le_maxFee estimated
  have sliced := amounts_of_group built
    (mul_inputsPerSplit_lt wide inside).le isGroup
  rw [Nat.add_sub_cancel_left] at sliced
  rw [totalAmount_eq_sum, sliced] at summed
  have worth : ((groupAmounts upstream generator request original
      position).map UInt64.toNat).sum = total.toNat :=
    summed
  omega

/-- Together the splits pass on what the inputs are worth but for a fee of at
most the cap for each split. -/
theorem SplitOutputs.totalAmount_spec {utxos : List WalletUtxo}
    (outputs : SplitOutputs upstream generator request original utxos)
    (built : Built upstream generator original)
    (room : Room upstream generator request original.tx) :
    totalAmount utxos ≤ inputsValue original ∧
      inputsValue original ≤ totalAmount utxos +
        splitCount upstream generator request original.tx *
          request.maxFee.toNat := by
  have inside : ∀ position ∈
      List.range (splitCount upstream generator request original.tx),
      position < splitCount upstream generator request original.tx :=
    fun _ member => List.mem_range.mp member
  have bounds := ((List.forall₂_and_left _ _).mpr ⟨inside, outputs⟩).imp
    fun position utxo placed => placed.2.spec built room placed.1
  have length := outputs.length_eq
  rw [List.length_range] at length
  have withFees : totalAmount utxos +
      splitCount upstream generator request original.tx *
        request.maxFee.toNat =
      (utxos.map fun utxo =>
        utxo.amount.toNat + request.maxFee.toNat).sum := by
    rw [List.sum_map_add, List.map_const', List.sum_replicate, length]
    rfl
  rw [withFees, ← sum_groupAmounts built room]
  constructor
  · apply List.Forall₂.sum_le_sum
    exact List.forall₂_map_left_iff.mpr (List.forall₂_map_right_iff.mpr
      (bounds.imp fun _ _ bound => bound.1).flip)
  · apply List.Forall₂.sum_le_sum
    exact List.forall₂_map_left_iff.mpr (List.forall₂_map_right_iff.mpr
      (bounds.imp fun _ _ bound => bound.2))

end Splitting

section Adding

variable {generator : TransactionGenerator} {request : CompoundingRequest}
  {replies : NodeReplies} {manager : UtxoManager}

theorem exists_isUtxoUnspendable {utxo : WalletUtxo}
    (matures : utxo.utxoEntry.blockDaaScore.toNat +
      manager.coinbaseMaturity.toNat < 2 ^ 64) (virtualDaaScore : UInt64) :
    ∃ unspendable, manager.isUtxoUnspendable utxo virtualDaaScore =
      .ok unspendable := by
  obtain ⟨maturity, maturityEq⟩ := exists_toNat_eq matures
  have added : (checkedAdd utxo.utxoEntry.blockDaaScore
      manager.coinbaseMaturity : WalletResult UInt64) = .ok maturity :=
    checkedAdd_eq_ok.mpr maturityEq.symm
  unfold UtxoManager.isUtxoUnspendable UtxoManager.isUtxoUnspendableWith
  split
  · exact ⟨_, rfl⟩
  · split
    · exact ⟨_, rfl⟩
    · rw [added]
      exact ⟨_, rfl⟩

/-- The loop settles over UTXOs that mature and, if they can be added, are
worth their fee. -/
theorem settled_moreUtxosLoop
    {virtualDaaScore feePerInput requiredAmount : UInt64}
    {available added : List WalletUtxo} {total : UInt64}
    (matures : ∀ utxo ∈ available, utxo.utxoEntry.blockDaaScore.toNat +
      manager.coinbaseMaturity.toNat < 2 ^ 64)
    (worth : ∀ utxo ∈ available,
      Addable manager request virtualDaaScore utxo →
        feePerInput ≤ utxo.amount)
    (fits : total.toNat + totalAmount available < 2 ^ 64) :
    (moreUtxosLoop request manager virtualDaaScore feePerInput requiredAmount
      available added total).Settled := by
  induction available generalizing added total with
  | nil => exact Outcome.settled_ok _
  | cons utxo rest ih =>
      have restMatures : ∀ other ∈ rest, _ :=
        fun other member => matures other (List.mem_cons_of_mem utxo member)
      have restWorth : ∀ other ∈ rest, _ :=
        fun other member => worth other (List.mem_cons_of_mem utxo member)
      rw [totalAmount_cons] at fits
      unfold moreUtxosLoop
      split
      · exact ih restMatures restWorth (by omega)
      · rename_i unselected
        obtain ⟨unspendable, asked⟩ := exists_isUtxoUnspendable
          (matures utxo List.mem_cons_self) virtualDaaScore
        rw [asked, Outcome.ok_bind]
        split
        · exact ih restMatures restWorth (by omega)
        · rename_i accepted
          simp only [Bool.or_eq_true, Bool.not_eq_true', not_or,
            Bool.not_eq_true, Bool.not_eq_false] at accepted
          obtain ⟨spendable, isFrom⟩ := accepted
          rw [spendable] at asked
          have pays := UInt64.le_iff_toNat_le.mp
            (worth utxo List.mem_cons_self ⟨unselected, asked, isFrom⟩)
          obtain ⟨value, valueEq⟩ := exists_toNat_eq
            ((Nat.sub_le utxo.amount.toNat feePerInput.toNat).trans_lt
              utxo.amount.toNat_lt)
          have sumFits : total.toNat + value.toNat < 2 ^ 64 := by omega
          obtain ⟨next, nextEq⟩ := exists_toNat_eq sumFits
          have subtracted : (checkedSub utxo.amount feePerInput :
              WalletResult UInt64) = .ok value :=
            checkedSub_eq_ok.mpr (by omega)
          have summed : (checkedAdd total value : WalletResult UInt64) =
              .ok next :=
            checkedAdd_eq_ok.mpr nextEq.symm
          rw [subtracted, Outcome.ok_bind, summed, Outcome.ok_bind]
          split
          · exact Outcome.settled_ok _
          · exact ih restMatures restWorth (by omega)

theorem settled_moreUtxos {round : Nat}
    {original : WalletSignableTransaction}
    {requiredAmount : UInt64}
    (pay : AdditionsPay generator request replies manager round original) :
    (generator.moreUtxosForMergeTransaction request replies manager round
      original.tx requiredAmount).Settled := by
  unfold moreUtxosForMergeTransaction
  apply Outcome.Settled.bind (settled_mapError _ _)
  intro virtualDaaScore asked
  apply Outcome.Settled.bind (.inl pay.priced)
  intro feePerInput priced
  have replied := mapError_eq_ok.mp asked
  apply Outcome.Settled.bind
  · apply settled_moreUtxosLoop pay.matures
    · intro utxo member addable
      exact pay.worth virtualDaaScore feePerInput replied priced utxo
        (List.mem_filter.mpr ⟨member, decide_eq_true addable⟩)
    · simpa using (Nat.le_add_left _ _).trans_lt pay.total
  · rintro ⟨added, total⟩ _
    dsimp only
    split
    · exact Outcome.settled_err _
    · exact Outcome.settled_ok _

end Adding

section Round

variable {upstream : Upstream} {generator : TransactionGenerator}
  {request : CompoundingRequest} {replies : NodeReplies}
  {manager : UtxoManager} {round : Nat}
  {original : WalletSignableTransaction} {transactionMass : UInt64}
  {splits : List WalletSignableTransaction}

private theorem settled_splitUtxo {split : WalletSignableTransaction}
    (shape : SplitShape upstream generator request split) :
    (splitUtxo upstream request split).Settled := by
  obtain ⟨value, outputs⟩ := shape.outputs
  unfold splitUtxo
  rw [outputs]
  exact Outcome.settled_ok _

theorem settled_coverSentValue {available sent : UInt64}
    (sentIs : sent =
      if request.isSendAll then available else request.amount)
    (pay : available < request.amount → request.isSendAll = false →
      request.preselectedUtxoOutpoints = [] →
      AdditionsPay generator request replies manager round original) :
    (generator.coverSentValue request replies manager round original.tx
      available sent).Settled := by
  cases all : request.isSendAll with
  | true =>
      rw [all, if_pos rfl] at sentIs
      rw [sentIs, coverSentValue, if_neg (lt_irrefl available)]
      exact Outcome.settled_ok _
  | false =>
      rw [all, if_neg (by simp)] at sentIs
      rw [sentIs]
      unfold coverSentValue
      split
      · rename_i short
        simp only [all, Bool.false_eq_true, if_false]
        split
        · exact Outcome.settled_err _
        · rename_i unrestricted
          apply Outcome.Settled.bind (settled_moreUtxos
            (pay short all (by simpa using unrestricted)))
          intro added _
          exact Outcome.settled_ok _
      · exact Outcome.settled_ok _

theorem settled_mergePlan
    (built : Built upstream generator original)
    (value : inputsValue original < 2 ^ 64)
    (fits : RoundFits upstream generator request replies manager round
      original)
    (weighed : computeMassForUnsignedConsensusTransaction upstream
      original.tx generator.keys.minimumSignatures = .ok transactionMass)
    (made : generator.splitTransactions upstream request original
      transactionMass = .ok splits) :
    (generator.mergePlan upstream request replies manager round splits
      original.tx).Settled := by
  have shapes := (partitions_of_splitTransactions made).2
  unfold mergePlan
  split
  · exact Outcome.settled_err _
  · apply Outcome.Settled.bind
    · apply Outcome.settled_collect
      intro split member
      exact settled_splitUtxo (shapes split member)
    · intro utxos collected
      have outputs := splitOutputs_of_yields
        (yields_of_splitTransactions built weighed made collected).2
      have bounded := (outputs.totalAmount_spec built fits.room).1.trans_lt value
      have few : utxos.length ≤ original.tx.inputs.length := by
        have length := outputs.length_eq
        rw [List.length_range] at length
        rw [← length]
        exact splitCount_le_length fits.room
      obtain ⟨total, totalEq⟩ := exists_toNat_eq bounded
      rw [checkedSum_amounts_eq_ok.mpr totalEq.symm, Outcome.ok_bind]
      apply Outcome.Settled.bind
        (settled_estimateFee (fits.weighs original.tx.payload (by simp))
          (few.trans (Nat.le_add_right _ _)) bounded)
      intro fee estimated
      have paid := fits.merge utxos fee outputs estimated
      obtain ⟨available, availableEq⟩ := exists_toNat_eq
        ((Nat.sub_le total.toNat fee.toNat).trans_lt total.toNat_lt)
      have left : (checkedSub total fee : WalletResult UInt64) =
          .ok available :=
        checkedSub_eq_ok.mpr (by omega)
      rw [left, Outcome.ok_bind]
      have sent : sentValue request total fee =
          .ok (if request.isSendAll then available else request.amount) := by
        unfold sentValue
        split
        · exact left
        · rfl
      rw [sent, Outcome.ok_bind]
      apply Outcome.Settled.bind
      · apply settled_coverSentValue rfl
        intro short
        rw [UInt64.lt_iff_toNat_lt] at short
        exact fits.additions utxos fee outputs estimated (by omega)
      · intro covered _
        exact Outcome.settled_ok _

theorem mergeOf_of_mergePlan {plan : MergePlan}
    (built : Built upstream generator original)
    (weighed : computeMassForUnsignedConsensusTransaction upstream
      original.tx generator.keys.minimumSignatures = .ok transactionMass)
    (made : generator.splitTransactions upstream request original
      transactionMass = .ok splits)
    (planning : generator.mergePlan upstream request replies manager round
      splits original.tx = .ok plan) :
    MergeOf upstream generator request replies manager round original
      plan := by
  have planned := planned_of_mergePlan planning
  exact ⟨splitOutputs_of_yields
      (yields_of_splitTransactions built weighed made planned.splitUtxos).2,
    planned.mergeFee, planned.available, planned.sent, planned.funding⟩

/-- The merge transaction spends one output of each split and the added
UTXOs, of which there are no more than the store has. -/
theorem MergeOf.length_le {plan : MergePlan}
    (planned : MergeOf upstream generator request replies manager round
      original plan) :
    plan.splitUtxos.length =
        splitCount upstream generator request original.tx ∧
      plan.additionalUtxos.length ≤
        manager.utxosSortedByAmount.length := by
  constructor
  · have length := planned.outputs.length_eq
    rw [List.length_range] at length
    exact length.symm
  · rcases planned.funding with ⟨nothing, -⟩ | adds
    · simp [nothing]
    · obtain ⟨virtualDaaScore, feePerInput, -, -, funding⟩ := adds.funding
      obtain ⟨count, taken, -⟩ := funding.initial
      rw [taken]
      exact (List.length_take_le' _ _).trans (List.length_filter_le _ _)

theorem length_mergePayments (plan : MergePlan) :
    (mergePayments request plan).length ≤ 2 := by
  unfold mergePayments
  split <;> simp

theorem settled_compoundRound
    (built : Built upstream generator original)
    (value : inputsValue original < 2 ^ 64)
    (fits : RoundFits upstream generator request replies manager round
      original)
    (weighed : computeMassForUnsignedConsensusTransaction upstream
      original.tx generator.keys.minimumSignatures = .ok transactionMass) :
    (generator.compoundRound upstream request replies manager round original
      transactionMass).Settled := by
  unfold compoundRound
  apply Outcome.Settled.bind (settled_splitTransactions built fits.room
    (fits.weighs [] (by simp)) (Nat.le_add_right _ _) value
    fits.groups weighed)
  intro splits made
  apply Outcome.Settled.bind (settled_mergePlan built value fits weighed made)
  intro plan planning
  obtain ⟨outputs, added⟩ :=
    (mergeOf_of_mergePlan built weighed made planning).length_le
  have few := splitCount_le_length fits.room
  obtain ⟨masses, merged⟩ := fits.weighs original.tx.payload (by simp)
    (mergePayments request plan) (plan.splitUtxos ++ plan.additionalUtxos)
    (length_mergePayments plan) (by rw [List.length_append]; omega)
  apply Outcome.Settled.bind (settled_generateUnsignedTransaction merged)
  intro merge _
  exact Outcome.settled_ok _

variable (upstream generator) in
/-- A transaction that the generator has built, of values that fit. -/
structure Ready (transaction : WalletSignableTransaction) : Prop where
  built : Built upstream generator transaction
  ins : inputsValue transaction < 2 ^ 64
  outs : outputsValue transaction < 2 ^ 64

theorem totalAmount_le_of_sublist {fewer more : List WalletUtxo}
    (sublist : fewer.Sublist more) : totalAmount fewer ≤ totalAmount more :=
  (sublist.map _).sum_le_sum (by simp)

theorem ready_merge {plan : MergePlan} {merge : WalletSignableTransaction}
    (ready : Ready upstream generator original)
    (fits : RoundFits upstream generator request replies manager round
      original)
    (planned : MergeOf upstream generator request replies manager round
      original plan)
    (merged : generator.buildMerge upstream request plan original.tx =
      .ok merge) :
    Ready upstream generator merge := by
  have passedOn :=
    (planned.outputs.totalAmount_spec ready.built fits.room).1
  have available := planned.available
  have feeBound := plan.mergeFee.toNat_lt
  have ins := inputsValue_of_buildMerge merged
  obtain ⟨outs, change⟩ := outputsValue_of_buildMerge merged
  have whole := ready.ins
  refine ⟨⟨_, _, _, length_mergePayments plan, merged⟩, ?_, ?_⟩
  · rcases planned.funding with ⟨nothing, -⟩ | adds
    · rw [ins, nothing, totalAmount_nil]
      omega
    · have short := UInt64.lt_iff_toNat_lt.mp adds.short
      have sent := planned.sent
      rw [adds.exactAmount, if_neg (by simp)] at sent
      rw [sent] at short
      have pay := fits.additions plan.splitUtxos plan.mergeFee
        planned.outputs planned.mergeFee (by omega) adds.exactAmount
        adds.unrestricted
      obtain ⟨virtualDaaScore, feePerInput, -, -, funding⟩ := adds.funding
      obtain ⟨count, taken, -⟩ := funding.initial
      have added : totalAmount plan.additionalUtxos ≤
          totalAmount manager.utxosSortedByAmount := by
        rw [taken]
        exact totalAmount_le_of_sublist
          ((List.take_sublist _ _).trans List.filter_sublist)
      have total := pay.total
      omega
  · have sentBound := plan.sentValue.toNat_lt
    have availableBound := plan.availableValue.toNat_lt
    omega

/-- The merge transaction of a round is ready for the next, and it is light or
has fewer inputs. -/
theorem progress_of_compoundRound {done : CompoundRound}
    (ready : Ready upstream generator original)
    (fits : RoundFits upstream generator request replies manager round
      original)
    (weighed : computeMassForUnsignedConsensusTransaction upstream
      original.tx generator.keys.minimumSignatures = .ok transactionMass)
    (compounded : generator.compoundRound upstream request replies manager
      round original transactionMass = .ok done) :
    Ready upstream generator done.merge ∧
      (massOf upstream generator done.merge.tx <
          maximumStandardTransactionMass.toNat ∨
        done.merge.tx.inputs.length < original.tx.inputs.length) := by
  obtain ⟨made, planning, merged, -⟩ := compoundRound_eq_ok.mp compounded
  have planned :=
    mergeOf_of_mergePlan ready.built weighed made planning
  have outputs := planned.length_le.1
  have merges := tx_of_generateUnsignedTransaction merged
  have length : done.merge.tx.inputs.length =
      splitCount upstream generator request original.tx +
        done.plan.additionalUtxos.length := by
    simp [merges, consensusTransaction, Transaction.new, outputs]
  refine ⟨ready_merge ready fits planned merged, ?_⟩
  rcases fits.progress done.plan planned with fewer | light
  · exact .inr (length ▸ fewer)
  · rw [merges]
    exact .inl (light _ (by rw [List.length_append, outputs]))

end Round

section Worth

variable {upstream : Upstream} {generator : TransactionGenerator}
  {request : CompoundingRequest} {replies : NodeReplies}
  {manager : UtxoManager} {round : Nat}
  {original : WalletSignableTransaction}

theorem groupsPay_of_worth (built : Built upstream generator original)
    (room : Room upstream generator request original.tx)
    (worth : ∀ amount ∈ entryAmounts original.transaction.inner,
      request.maxFee ≤ amount) :
    GroupsPay upstream generator request original := by
  intro position inside group total fee isGroup summed estimated
  obtain ⟨-, -, wide⟩ := room.inputMass_pos
  obtain ⟨some, -, -⟩ := group_spec built room inside isGroup
  obtain ⟨utxo, rest, rfl⟩ := List.exists_cons_of_ne_nil some
  have sliced := amounts_of_group built
    (mul_inputsPerSplit_lt wide inside).le isGroup
  have member : utxo.amount ∈ entryAmounts original.transaction.inner := by
    apply List.mem_of_mem_drop
    apply List.mem_of_mem_take
    rw [← sliced]
    exact List.mem_cons_self
  have least := UInt64.le_iff_toNat_le.mp (worth utxo.amount member)
  have capped := estimateFee_le_maxFee estimated
  rw [totalAmount_cons] at summed
  rw [UInt64.le_iff_toNat_le]
  omega

theorem covered_of_worth (built : Built upstream generator original)
    (room : Room upstream generator request original.tx)
    (worth : request.amount.toNat +
        (splitCount upstream generator request original.tx + 1) *
          request.maxFee.toNat ≤ inputsValue original)
    {utxos : List WalletUtxo} {payload : List UInt8} {fee : UInt64}
    (outputs : SplitOutputs upstream generator request original utxos)
    (estimated : generator.estimateFee upstream utxos request.feeRate
      request.maxFee request.amount payload = .ok fee) :
    request.amount.toNat + fee.toNat ≤ totalAmount utxos := by
  have capped := estimateFee_le_maxFee estimated
  have passedOn := (outputs.totalAmount_spec built room).2
  rw [Nat.add_mul, Nat.one_mul] at worth
  omega

/-- A round fits if every input is worth the fee cap and all of them are worth
the amount and the cap for each split and the merge. -/
theorem roundFits_of_worth (built : Built upstream generator original)
    (weighs : ∀ payload ∈ [[], original.tx.payload],
      Weighs upstream generator payload
        (original.tx.inputs.length + manager.utxosSortedByAmount.length))
    (room : Room upstream generator request original.tx)
    (inputs : ∀ amount ∈ entryAmounts original.transaction.inner,
      request.maxFee ≤ amount)
    (worth : request.amount.toNat +
        (splitCount upstream generator request original.tx + 1) *
          request.maxFee.toNat ≤ inputsValue original)
    (fewer : splitCount upstream generator request original.tx <
      original.tx.inputs.length) :
    RoundFits upstream generator request replies manager round original where
  weighs := weighs
  room := room
  groups := groupsPay_of_worth built room inputs
  merge := by
    intro utxos fee outputs estimated
    have covered := covered_of_worth built room worth outputs estimated
    omega
  additions := by
    intro utxos fee outputs estimated short
    have covered := covered_of_worth built room worth outputs estimated
    omega
  progress := by
    intro plan planned
    left
    have covered := covered_of_worth built room worth planned.outputs
      planned.mergeFee
    rcases planned.funding with ⟨nothing, -⟩ | adds
    · rw [nothing]
      exact fewer
    · have short := UInt64.lt_iff_toNat_lt.mp adds.short
      have available := planned.available
      rw [planned.sent, adds.exactAmount, if_neg (by simp)] at short
      omega

end Worth

end TransactionGenerator

end Kaswallet
