import Igra.Kaspa.Devnet
import Igra.Kaswallet.AddressManager
import Igra.Rust.Float64
import Igra.Rust.HashMap
import Igra.Rust.Integer

/-!
# Building one transaction

The parts of `TransactionGenerator` that build a transaction and weigh it:
the constructor, the mass formulas, `generate_unsigned_transaction`, the fee
estimates and the fee check.
-/

open Kaspa Rust

namespace Kaswallet

/-- The fields of the generator; `isMultisig` is the flag of the address
manager it shares. -/
structure TransactionGenerator where
  keys : Keys
  isMultisig : Bool
  addressPrefix : AddressPrefix
  subnetworkId : SubnetworkId
  txVersion : UInt16
  computeBudgetPerInput : UInt16
  minimumSignaturesU8 : UInt8
  massPerSigOp : UInt64
  signatureMassPerInput : UInt64

/-- `select_tx_version`. -/
def selectTxVersion (subnetworkId : SubnetworkId) : UInt16 :=
  if subnetworkId.isNative then txVersion else txVersionToccata

private def invalidArgument (reason : String) : WalletError :=
  .userInput (.invalidArgument reason)

/-- `compute_budget_for_signature`. -/
def computeBudgetForSignature (massPerSigOp : UInt64)
    (minimumSignatures : UInt16) : WalletResult UInt16 :=
  let perSig :=
    (massPerSigOp.toNat + (gramsPerComputeBudgetUnit.toNat - 1)) /
      gramsPerComputeBudgetUnit.toNat
  if 2 ^ 16 ≤ perSig then
    Outcome.err (invalidArgument
      ("mass_per_sig_op/GRAMS_PER_COMPUTE_BUDGET_UNIT must fit u16 " ++
        s!"(mass_per_sig_op={massPerSigOp})"))
  else if 2 ^ 16 ≤ perSig * minimumSignatures.toNat then
    Outcome.err (invalidArgument
      (s!"compute_budget overflow: per-sig {perSig} * minimum_signatures " ++
        s!"{minimumSignatures} exceeds u16::MAX"))
  else .ok (UInt16.ofNat (perSig * minimumSignatures.toNat))

section Mass

variable (upstream : Upstream)

/-- `estimate_transient_mass`, of the signed transaction. -/
def estimateTransientMass (tx : Transaction)
    (minimumSignatures : UInt16) : WalletResult UInt64 := do
  let perInput ← checkedMul signatureSize (max minimumSignatures 1).toUInt64
  let inputCount ← checkedLength tx.inputs
  let signatureBytes ← checkedMul perInput inputCount
  let signedSize ←
    checkedAdd (upstream.estimatedSerializedSize tx) signatureBytes
  checkedMul signedSize transientByteToMassFactor

/-- `compute_mass_for_unsigned_consensus_transaction`: the compute budgets of
a later transaction are added to what the mass calculator counts. -/
def computeMassForUnsignedConsensusTransaction (tx : Transaction)
    (minimumSignatures : UInt16) : WalletResult UInt64 :=
  let base := upstream.unsignedComputeMass tx minimumSignatures
  if ComputeCommit.versionExpectsComputeBudgetField tx.version then do
    let scriptMasses ← Outcome.collect
      (fun (input : TransactionInput) =>
        checkedMul (input.computeCommit.computeBudget?.getD 0).toUInt64
          gramsPerComputeBudgetUnit) tx.inputs
    let v1ScriptMass ← checkedSum scriptMasses
    checkedAdd base v1ScriptMass
  else .ok base

def nonContextualMasses (tx : Transaction)
    (minimumSignatures : UInt16) : WalletResult NonContextualMasses := do
  let computeMass ← computeMassForUnsignedConsensusTransaction upstream tx
    minimumSignatures
  let transientMass ← estimateTransientMass upstream tx minimumSignatures
  pure ⟨computeMass, transientMass⟩

def nonContextualFeeMass (tx : Transaction)
    (minimumSignatures : UInt16) : WalletResult UInt64 := do
  let masses ← nonContextualMasses upstream tx minimumSignatures
  pure (upstream.normalizedMax masses)

end Mass

namespace TransactionGenerator

section Upstream

variable (upstream : Upstream)

def new (keys : Keys) (isMultisig : Bool) (addressPrefix : AddressPrefix)
    (subnetworkId : SubnetworkId)
    (massPerSigOp : UInt64) : WalletResult TransactionGenerator :=
  if keys.minimumSignatures = 0 then
    Outcome.err
      (invalidArgument "keys.minimum_signatures must be at least 1")
  else if 2 ^ 8 ≤ keys.minimumSignatures.toNat then
    Outcome.err (invalidArgument
      s!"keys.minimum_signatures ({keys.minimumSignatures}) must fit in u8")
  else do
    let computeBudgetPerInput ←
      computeBudgetForSignature massPerSigOp keys.minimumSignatures
    pure
      { keys, isMultisig, addressPrefix, subnetworkId
        txVersion := selectTxVersion subnetworkId
        computeBudgetPerInput
        minimumSignaturesU8 := UInt8.ofNat keys.minimumSignatures.toNat
        massPerSigOp
        signatureMassPerInput :=
          upstream.signatureComputeMassForInputs 1 keys.minimumSignatures }

variable (generator : TransactionGenerator)

/-- The input that spends a UTXO: its version decides what it commits to. -/
def inputOf (utxo : WalletUtxo) : TransactionInput where
  previousOutpoint := utxo.outpoint.toTransactionOutpoint
  signatureScript := []
  sequence := 0
  computeCommit :=
    if ComputeCommit.versionExpectsComputeBudgetField generator.txVersion then
      .computeBudget generator.computeBudgetPerInput
    else .sigOpCount generator.minimumSignaturesU8

def outputOf (payment : WalletPayment) : TransactionOutput :=
  .new payment.amount (upstream.payToAddressScript payment.address)

/-- The consensus transaction of `generate_unsigned_transaction`. -/
def consensusTransaction (payments : List WalletPayment)
    (selectedUtxos : List WalletUtxo) (payload : List UInt8) : Transaction :=
  .new generator.txVersion (selectedUtxos.map generator.inputOf)
    (payments.map (outputOf upstream)) 0 generator.subnetworkId 0 payload

def generateUnsignedTransaction (payments : List WalletPayment)
    (selectedUtxos : List WalletUtxo) (payload : List UInt8) :
    WalletResult WalletSignableTransaction := do
  let paths ← Outcome.collect
    (fun (utxo : WalletUtxo) => AddressManager.calculateAddressPath upstream
      generator.isMultisig utxo.address) selectedUtxos
  let signable ← SignableTransaction.withEntries
    (generator.consensusTransaction upstream payments selectedUtxos payload)
    (selectedUtxos.map fun utxo => utxo.utxoEntry.toUtxoEntry)
  let masses ← nonContextualMasses upstream signable.tx
    generator.keys.minimumSignatures
  pure (.newFromUnsigned
    { signable with calculatedNonContextualMasses := some masses }
    (distinctOn upstream.derivationPathToString paths)
    (selectedUtxos.map WalletUtxo.address)
    (payments.map WalletPayment.address))

/-- The payments of the mock transaction that `estimate_mass` weighs. -/
def mockPayments (totalValue estimatedRecipientValue : UInt64) :
    List WalletPayment :=
  let fakeAddress : Address :=
    ⟨generator.addressPrefix, .pubKeyECDSA, List.replicate 33 0, rfl⟩
  if estimatedRecipientValue < totalValue then
    [⟨fakeAddress, estimatedRecipientValue⟩,
      ⟨fakeAddress, totalValue - estimatedRecipientValue⟩]
  else [⟨fakeAddress, totalValue⟩]

def estimateMass (selectedUtxos : List WalletUtxo)
    (estimatedRecipientValue : UInt64) (payload : List UInt8) :
    WalletResult UInt64 := do
  let totalValue ← checkedSum (selectedUtxos.map WalletUtxo.amount)
  let mockTransaction ← generator.generateUnsignedTransaction upstream
    (generator.mockPayments totalValue estimatedRecipientValue)
    selectedUtxos payload
  nonContextualFeeMass upstream mockTransaction.tx
    generator.keys.minimumSignatures

def estimateFee (selectedUtxos : List WalletUtxo) (feeRate : Float)
    (maxFee estimatedRecipientValue : UInt64) (payload : List UInt8) :
    WalletResult UInt64 := do
  let estimatedMass ← generator.estimateMass upstream selectedUtxos
    estimatedRecipientValue payload
  pure (min (ceilToUInt64 (estimatedMass.toFloat * feeRate)) maxFee)

/-- `APPROX_INPUT_BYTES * APPROX_MASS_PER_TX_BYTE`. -/
def approximateInputMass : UInt64 := 64

def estimateMassPerInput (input : TransactionInput) :
    WalletResult UInt64 := do
  let inputComputeMass ←
    match input.computeCommit with
    | .sigOpCount sigOps => checkedMul sigOps.toUInt64 generator.massPerSigOp
    | .computeBudget budget =>
        checkedMul budget.toUInt64 gramsPerComputeBudgetUnit
  let withBytes ← checkedAdd inputComputeMass approximateInputMass
  checkedAdd withBytes generator.signatureMassPerInput

/-- The value of each entry; a missing entry counts as nothing. -/
def entryAmounts (signable : SignableTransaction) : List UInt64 :=
  signable.entries.map fun entry =>
    match entry with
    | none => 0
    | some entry => entry.amount

def outputValues (tx : Transaction) : List UInt64 :=
  tx.outputs.map TransactionOutput.value

/-- `check_transaction_fee_rate`: nothing in it bounds the fee from above. -/
def checkTransactionFeeRate (transaction : WalletSignableTransaction) :
    WalletResult Unit := do
  let signable := transaction.transaction.inner
  let totalIns ← checkedSum (entryAmounts signable)
  let totalOuts ← checkedSum (outputValues signable.tx)
  if totalIns < totalOuts then
    Outcome.err (.transaction (.insufficientFunds totalOuts totalIns))
  else do
    let fee := totalIns - totalOuts
    let mass ← nonContextualFeeMass upstream signable.tx
      generator.keys.minimumSignatures
    if fee.toFloat / mass.toFloat < 1.0 then
      Outcome.err (.transaction (.feeTooLow fee mass))
    else pure ()

end Upstream

section Value

def totalAmount (utxos : List WalletUtxo) : Nat :=
  (utxos.map fun utxo => utxo.amount.toNat).sum

def totalPaid (payments : List WalletPayment) : Nat :=
  (payments.map fun payment => payment.amount.toNat).sum

/-- The sompi that a transaction spends. -/
def inputsValue (transaction : WalletSignableTransaction) : Nat :=
  ((entryAmounts transaction.transaction.inner).map UInt64.toNat).sum

/-- The sompi that a transaction pays out. -/
def outputsValue (transaction : WalletSignableTransaction) : Nat :=
  ((outputValues transaction.tx).map UInt64.toNat).sum

@[simp] theorem totalAmount_nil : totalAmount [] = 0 :=
  rfl

@[simp] theorem totalAmount_cons (utxo : WalletUtxo)
    (utxos : List WalletUtxo) :
    totalAmount (utxo :: utxos) = utxo.amount.toNat + totalAmount utxos := by
  simp [totalAmount]

@[simp] theorem totalAmount_append (front back : List WalletUtxo) :
    totalAmount (front ++ back) = totalAmount front + totalAmount back := by
  simp [totalAmount]

@[simp] theorem totalPaid_nil : totalPaid [] = 0 :=
  rfl

@[simp] theorem totalPaid_cons (payment : WalletPayment)
    (payments : List WalletPayment) :
    totalPaid (payment :: payments) =
      payment.amount.toNat + totalPaid payments := by
  simp [totalPaid]

@[simp] theorem checkedSum_amounts_eq_ok {utxos : List WalletUtxo}
    {total : UInt64} :
    (checkedSum (utxos.map WalletUtxo.amount) : WalletResult UInt64) =
        .ok total ↔ totalAmount utxos = total.toNat := by
  simp [totalAmount, Function.comp_def]

end Value

section Built

variable {upstream : Upstream} {generator : TransactionGenerator}
  {payments : List WalletPayment} {selectedUtxos : List WalletUtxo}
  {payload : List UInt8} {built : WalletSignableTransaction}

/-- What `generate_unsigned_transaction` returns is determined but for the
derivation paths and the masses. -/
theorem generateUnsignedTransaction_eq_ok :
    generator.generateUnsignedTransaction upstream payments selectedUtxos
        payload = .ok built ↔
      ∃ paths masses,
        Outcome.collect
          (fun (utxo : WalletUtxo) =>
            AddressManager.calculateAddressPath upstream
              generator.isMultisig utxo.address) selectedUtxos = .ok paths ∧
        nonContextualMasses upstream
          (generator.consensusTransaction upstream payments selectedUtxos
            payload) generator.keys.minimumSignatures = .ok masses ∧
        built =
          { transaction := .partially
              { tx := generator.consensusTransaction upstream payments
                  selectedUtxos payload
                entries := selectedUtxos.map fun utxo =>
                  some utxo.utxoEntry.toUtxoEntry
                calculatedFee := none
                calculatedNonContextualMasses := some masses }
            derivationPaths :=
              distinctOn upstream.derivationPathToString paths
            addressByInputIndex := selectedUtxos.map WalletUtxo.address
            addressByOutputIndex := payments.map WalletPayment.address } := by
  simp only [generateUnsignedTransaction, Outcome.bind_eq_ok,
    SignableTransaction.withEntries_eq_ok, Outcome.pure_eq_ok]
  constructor
  · rintro ⟨paths, collected, signable, ⟨-, rfl⟩, masses, weighed, rfl⟩
    refine ⟨paths, masses, collected, weighed, ?_⟩
    simp [WalletSignableTransaction.newFromUnsigned]
  · rintro ⟨paths, masses, collected, weighed, rfl⟩
    refine ⟨paths, collected, _, ⟨?_, rfl⟩, masses, weighed, ?_⟩
    · simp [consensusTransaction, Transaction.new]
    · simp [WalletSignableTransaction.newFromUnsigned]

theorem tx_of_generateUnsignedTransaction
    (generated : generator.generateUnsignedTransaction upstream payments
      selectedUtxos payload = .ok built) :
    built.tx = generator.consensusTransaction upstream payments selectedUtxos
      payload := by
  obtain ⟨paths, masses, -, -, rfl⟩ :=
    generateUnsignedTransaction_eq_ok.mp generated
  rfl

theorem entries_of_generateUnsignedTransaction
    (generated : generator.generateUnsignedTransaction upstream payments
      selectedUtxos payload = .ok built) :
    built.transaction.inner.entries =
      selectedUtxos.map fun utxo => some utxo.utxoEntry.toUtxoEntry := by
  obtain ⟨paths, masses, -, -, rfl⟩ :=
    generateUnsignedTransaction_eq_ok.mp generated
  rfl

theorem inputsValue_of_generateUnsignedTransaction
    (generated : generator.generateUnsignedTransaction upstream payments
      selectedUtxos payload = .ok built) :
    inputsValue built = totalAmount selectedUtxos := by
  simp [inputsValue, entryAmounts, totalAmount, Function.comp_def,
    entries_of_generateUnsignedTransaction generated, WalletUtxo.amount,
    WalletUtxoEntry.toUtxoEntry]

theorem outputsValue_of_generateUnsignedTransaction
    (generated : generator.generateUnsignedTransaction upstream payments
      selectedUtxos payload = .ok built) :
    outputsValue built = totalPaid payments := by
  simp [outputsValue, outputValues, totalPaid, Function.comp_def,
    tx_of_generateUnsignedTransaction generated, consensusTransaction,
    Transaction.new, outputOf, TransactionOutput.new]

theorem addressByInputIndex_of_generateUnsignedTransaction
    (generated : generator.generateUnsignedTransaction upstream payments
      selectedUtxos payload = .ok built) :
    built.addressByInputIndex = selectedUtxos.map WalletUtxo.address := by
  obtain ⟨paths, masses, -, -, rfl⟩ :=
    generateUnsignedTransaction_eq_ok.mp generated
  rfl

theorem addressByOutputIndex_of_generateUnsignedTransaction
    (generated : generator.generateUnsignedTransaction upstream payments
      selectedUtxos payload = .ok built) :
    built.addressByOutputIndex = payments.map WalletPayment.address := by
  obtain ⟨paths, masses, -, -, rfl⟩ :=
    generateUnsignedTransaction_eq_ok.mp generated
  rfl

end Built

section FeeCheck

variable {upstream : Upstream} {generator : TransactionGenerator}
  {transaction : WalletSignableTransaction}

end FeeCheck

section Sample

def sampleKeys (minimumSignatures : UInt16) : Keys where
  publicKeys := (List.range minimumSignatures.toNat).map
    fun position => ⟨[UInt8.ofNat position]⟩
  lastUsedExternalIndex := 0
  lastUsedInternalIndex := 0
  minimumSignatures := minimumSignatures
  cosignerIndex := 0

/-- A generator for the native subnetwork. -/
def sampleGenerator (minimumSignatures : UInt16) : TransactionGenerator where
  keys := sampleKeys minimumSignatures
  isMultisig := decide (1 < minimumSignatures)
  addressPrefix := .devnet
  subnetworkId := .native
  txVersion := 0
  computeBudgetPerInput := 10 * minimumSignatures
  minimumSignaturesU8 := minimumSignatures.toUInt8
  massPerSigOp := 1000
  signatureMassPerInput := 66 * minimumSignatures.toUInt64

example :
    new devnet (sampleKeys 1) false .devnet .native 1000 =
      .ok (sampleGenerator 1) :=
  rfl

def sampleAddress (tag : UInt8) : Address :=
  ⟨.devnet, .pubKey, List.replicate 32 tag, rfl⟩

/-- A confirmed UTXO with an outpoint of its own. -/
def sampleUtxo (tag : UInt8) (amount : UInt64) : WalletUtxo where
  outpoint := ⟨⟨List.replicate 32 tag, by simp⟩, 0⟩
  utxoEntry :=
    ⟨amount, devnet.payToAddressScript (sampleAddress tag), 10, false, false⟩
  address := ⟨tag.toUInt32, 0, .external⟩

end Sample

end TransactionGenerator

end Kaswallet
