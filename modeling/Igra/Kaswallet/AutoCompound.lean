import Igra.Kaswallet.UtxoSelection

/-!
# Compounding

A transaction that is too heavy is split into transactions that pay to the
change address, whose outputs a merge transaction spends; the merge
transaction may in turn be too heavy.  `create_unsigned_transactions` selects
UTXOs, builds a transaction and compounds it.
-/

open Kaspa Rust

namespace Kaswallet

/-- The arguments that `maybe_auto_compound_transaction` hands down unchanged
from round to round. -/
structure CompoundingRequest where
  selectedUtxos : List WalletUtxo
  fromAddresses : List WalletAddress
  toAddress : Address
  amount : UInt64
  isSendAll : Bool
  preselectedUtxoOutpoints : List Proto.Outpoint
  changeAddress : Address
  changeWalletAddress : WalletAddress
  feeRate : Float
  maxFee : UInt64

/-- The amounts and UTXOs that `merge_transaction` has settled on before it
builds the transaction. -/
structure MergePlan where
  splitUtxos : List WalletUtxo
  mergeFee : UInt64
  availableValue : UInt64
  sentValue : UInt64
  additionalUtxos : List WalletUtxo

/-- `total / parts`, plus one if `total % parts > 0`. -/
def divideRoundingUp (total parts : UInt64) : WalletResult UInt64 := do
  let quotient ← checkedDiv total parts
  let remainder ← checkedRem total parts
  if 0 < remainder then checkedAdd quotient 1 else pure quotient

namespace TransactionGenerator

section Upstream

variable (upstream : Upstream) (generator : TransactionGenerator)
  (request : CompoundingRequest)

section Split

/-- The UTXO that an input of the original transaction spends. -/
def inputUtxo (original : WalletSignableTransaction)
    (position : Nat) : WalletResult WalletUtxo := do
  let input ← Outcome.index original.tx.inputs position
  let slot ← Outcome.index original.transaction.inner.entries position
  let entry ← Outcome.ofOption
    (.transaction (.buildFailed
      s!"missing UTXO entry for input index {position}")) slot
  let address ← Outcome.index original.addressByInputIndex position
  pure ⟨.ofTransactionOutpoint input.previousOutpoint, .ofUtxoEntry entry,
    address⟩

/-- The positions that the loop of `create_split_transaction` visits. -/
def splitPositions (inputCount startIndex endIndex : Nat) : List Nat :=
  (List.range' startIndex (endIndex - startIndex)).takeWhile
    fun position => position != inputCount

/-- The value a split transaction passes on; without UTXOs it is a dummy that
is only weighed. -/
def splitPayout (selectedUtxos : List WalletUtxo)
    (totalSompi : UInt64) : WalletResult UInt64 :=
  if selectedUtxos.isEmpty then .ok totalSompi
  else do
    let fee ← generator.estimateFee upstream selectedUtxos request.feeRate
      request.maxFee totalSompi []
    checkedSub totalSompi fee

def createSplitTransaction (original : WalletSignableTransaction)
    (startIndex endIndex : Nat) :
    WalletResult WalletSignableTransaction := do
  let selectedUtxos ← Outcome.collect (inputUtxo original)
    (splitPositions original.tx.inputs.length startIndex endIndex)
  let totalSompi ← checkedSum (selectedUtxos.map WalletUtxo.amount)
  let payout ← generator.splitPayout upstream request selectedUtxos totalSompi
  generator.generateUnsignedTransaction upstream
    [⟨request.changeAddress, payout⟩] selectedUtxos []

/-- `split_and_input_per_split_counts`. -/
def splitAndInputPerSplitCounts (original : WalletSignableTransaction)
    (transactionMass : UInt64) : WalletResult (UInt64 × UInt64) := do
  let massWithoutInputs ← computeMassForUnsignedConsensusTransaction upstream
    { original.tx with inputs := [] } generator.keys.minimumSignatures
  let massOfAllInputs ← checkedSub transactionMass massWithoutInputs
  let inputCount ← checkedLength original.tx.inputs
  let massPerInput ← divideRoundingUp massOfAllInputs inputCount
  let dummy ←
    generator.createSplitTransaction upstream request original 0 0
  let massForEverythingExceptInputs ←
    computeMassForUnsignedConsensusTransaction upstream dummy.tx
      generator.keys.minimumSignatures
  let massForInputs ←
    checkedSub maximumStandardTransactionMass massForEverythingExceptInputs
  let inputsPerSplitCount ← checkedDiv massForInputs massPerInput
  let splitCount ← divideRoundingUp inputCount inputsPerSplitCount
  pure (splitCount, inputsPerSplitCount)

/-- One iteration of the loop over the splits. -/
def checkedSplit (original : WalletSignableTransaction)
    (inputPerSplitCount position : Nat) :
    WalletResult WalletSignableTransaction := do
  let startIndex := position * inputPerSplitCount
  let split ← generator.createSplitTransaction upstream request original
    startIndex (startIndex + inputPerSplitCount)
  generator.checkTransactionFeeRate upstream split
  pure split

def splitTransactions (original : WalletSignableTransaction)
    (transactionMass : UInt64) :
    WalletResult (List WalletSignableTransaction) := do
  let (splitCount, inputPerSplitCount) ←
    generator.splitAndInputPerSplitCounts upstream request original
      transactionMass
  Outcome.collect
    (generator.checkedSplit upstream request original
      inputPerSplitCount.toNat)
    (List.range splitCount.toNat)

end Split

section Merge

/-- The UTXO that a split transaction will create for the wallet. -/
def splitUtxo (split : WalletSignableTransaction) :
    WalletResult WalletUtxo := do
  let output ← Outcome.index split.tx.outputs 0
  pure
    { outpoint := ⟨upstream.transactionId split.tx, 0⟩
      utxoEntry :=
        { amount := output.value
          scriptPublicKey := output.scriptPublicKey
          blockDaaScore := unacceptedDaaScore
          isCoinbase := false
          isUnconfirmed := false }
      address := request.changeWalletAddress }

/-- The loop of `more_utxos_for_merge_transaction`.  Only the UTXOs of the
original transaction are passed over. -/
def moreUtxosLoop (manager : UtxoManager) (virtualDaaScore feePerInput
    requiredAmount : UInt64) :
    List WalletUtxo → List WalletUtxo → UInt64 →
      WalletResult (List WalletUtxo × UInt64)
  | [], additionalUtxos, totalValueAdded =>
      .ok (additionalUtxos, totalValueAdded)
  | utxo :: rest, additionalUtxos, totalValueAdded =>
      if utxo ∈ request.selectedUtxos then
        moreUtxosLoop manager virtualDaaScore feePerInput requiredAmount rest
          additionalUtxos totalValueAdded
      else do
        let unspendable ← manager.isUtxoUnspendable utxo virtualDaaScore
        if unspendable || !isFromAddresses request.fromAddresses utxo then
          moreUtxosLoop manager virtualDaaScore feePerInput requiredAmount
            rest additionalUtxos totalValueAdded
        else do
          let value ← checkedSub utxo.amount feePerInput
          let added ← checkedAdd totalValueAdded value
          if requiredAmount ≤ added then
            pure (additionalUtxos ++ [utxo], added)
          else
            moreUtxosLoop manager virtualDaaScore feePerInput requiredAmount
              rest (additionalUtxos ++ [utxo]) added

/-- `fee_per_input` of `more_utxos_for_merge_transaction`. -/
def feePerInput (original : Transaction) : WalletResult UInt64 := do
  let input ← Outcome.index original.inputs 0
  let massPerInput ← generator.estimateMassPerInput input
  pure (ceilToUInt64 (massPerInput.toFloat * request.feeRate))

def moreUtxosForMergeTransaction (replies : NodeReplies)
    (manager : UtxoManager) (round : Nat) (original : Transaction)
    (requiredAmount : UInt64) :
    WalletResult (List WalletUtxo × UInt64) := do
  let virtualDaaScore ← transportError (replies.virtualDaaScore (round + 1))
  let feePerInput ← generator.feePerInput request original
  let (additionalUtxos, totalValueAdded) ←
    moreUtxosLoop request manager virtualDaaScore feePerInput requiredAmount
      manager.utxosSortedByAmount [] 0
  if totalValueAdded < requiredAmount then
    Outcome.err (.transaction
      (.insufficientFunds requiredAmount totalValueAdded))
  else pure (additionalUtxos, totalValueAdded)

/-- `sent_value` before the UTXOs of the merge transaction are known. -/
def sentValue (totalValue mergeFee : UInt64) : WalletResult UInt64 :=
  if request.isSendAll then checkedSub totalValue mergeFee
  else .ok request.amount

/-- How `merge_transaction` makes the available value reach the sent value:
the available value, the sent value and the additional UTXOs. -/
def coverSentValue (replies : NodeReplies) (manager : UtxoManager)
    (round : Nat) (original : Transaction)
    (availableValue sentValue : UInt64) :
    WalletResult (UInt64 × UInt64 × List WalletUtxo) :=
  if availableValue < sentValue then
    let requiredAmount := sentValue - availableValue
    if request.isSendAll then do
      let available ← checkedSub availableValue requiredAmount
      let sent ← checkedSub sentValue requiredAmount
      pure (available, sent, [])
    else if !request.preselectedUtxoOutpoints.isEmpty then
      Outcome.err (.transaction
        (.insufficientFunds sentValue availableValue))
    else do
      -- the value added is logged and dropped
      let (additionalUtxos, _) ← generator.moreUtxosForMergeTransaction
        request replies manager round original requiredAmount
      pure (availableValue, sentValue, additionalUtxos)
  else .ok (availableValue, sentValue, [])

/-- `merge_transaction` up to its payments. -/
def mergePlan (replies : NodeReplies) (manager : UtxoManager) (round : Nat)
    (splits : List WalletSignableTransaction) (original : Transaction) :
    WalletResult MergePlan :=
  if original.outputs.length ∉ [1, 2] then
    Outcome.err (.transaction (.buildFailed
      (s!"Original transaction has {original.outputs.length} outputs, " ++
        "while 1 or 2 are expected")))
  else do
    let splitUtxos ← Outcome.collect (splitUtxo upstream request) splits
    let totalValue ← checkedSum (splitUtxos.map WalletUtxo.amount)
    let mergeFee ← generator.estimateFee upstream splitUtxos request.feeRate
      request.maxFee request.amount original.payload
    let initiallyAvailable ← checkedSub totalValue mergeFee
    let initiallySent ← sentValue request totalValue mergeFee
    let (availableValue, sentValue, additionalUtxos) ←
      generator.coverSentValue request replies manager round original
        initiallyAvailable initiallySent
    pure ⟨splitUtxos, mergeFee, availableValue, sentValue, additionalUtxos⟩

/-- The payment and, if value is left, the change. -/
def mergePayments (plan : MergePlan) : List WalletPayment :=
  ⟨request.toAddress, plan.sentValue⟩ ::
    if plan.sentValue < plan.availableValue then
      [⟨request.changeAddress, plan.availableValue - plan.sentValue⟩]
    else []

def buildMerge (plan : MergePlan) (original : Transaction) :
    WalletResult WalletSignableTransaction :=
  generator.generateUnsignedTransaction upstream
    (mergePayments request plan) (plan.splitUtxos ++ plan.additionalUtxos)
    original.payload

def mergeTransaction (replies : NodeReplies) (manager : UtxoManager)
    (round : Nat) (splits : List WalletSignableTransaction)
    (original : Transaction) : WalletResult WalletSignableTransaction := do
  let plan ← generator.mergePlan upstream request replies manager round splits
    original
  generator.buildMerge upstream request plan original

end Merge

/-- `maybe_auto_compound_transaction`.  The recursion of the source is bounded
by nothing but the transactions getting lighter. -/
def maybeAutoCompoundTransaction (replies : NodeReplies)
    (manager : UtxoManager) :
    Nat → Nat → WalletSignableTransaction →
      WalletResult (List WalletSignableTransaction)
  | 0, _, _ => Outcome.unfinished
  | fuel + 1, round, original => do
      generator.checkTransactionFeeRate upstream original
      let transactionMass ← computeMassForUnsignedConsensusTransaction
        upstream original.tx generator.keys.minimumSignatures
      if transactionMass < maximumStandardTransactionMass then
        pure [original]
      else do
        let splits ← generator.splitTransactions upstream request original
          transactionMass
        let merge ← generator.mergeTransaction upstream request replies
          manager round splits original.tx
        let rest ← maybeAutoCompoundTransaction replies manager fuel
          (round + 1) merge
        pure (splits ++ rest)

end Upstream

section Create

variable (upstream : Upstream) (generator : TransactionGenerator)

/-- What `create_unsigned_transactions` finds around it besides the UTXO
store: the node, the disk and the iteration order of a hash map. -/
structure Surroundings where
  replies : NodeReplies
  saveKeys : WalletResult Unit
  order : IterationOrder WalletOutpoint WalletUtxo

/-- `validate_address`. -/
def validateAddress (addressString : String) : WalletResult Address :=
  mapError
    (fun reason => .userInput (.invalidAddress addressString reason))
    (upstream.addressTryFrom addressString)

def fromAddress (addressSet : AddressSet)
    (addressString : String) : WalletResult WalletAddress :=
  Outcome.ofOption
    (.userInput (.invalidAddress addressString
      "From address is not in address set"))
    (addressSet.lookup addressString)

def preselectedUtxo (manager : UtxoManager)
    (message : Proto.Outpoint) : WalletResult WalletUtxo := do
  let outpoint ← walletOutpointFromProto upstream message
  Outcome.ofOption
    (.transaction (.utxoNotFound outpoint.toTransactionOutpoint))
    (manager.utxosByOutpoint.lookup outpoint)

/-- The request as far as it is settled before a change address is drawn. -/
structure CheckedDescription where
  toAddress : Address
  fromAddresses : List WalletAddress
  preselectedUtxos : HashMap WalletOutpoint WalletUtxo
  feeRate : Float
  maxFee : UInt64

def checkDescription (replies : NodeReplies) (manager : UtxoManager)
    (addressSet : AddressSet) (description : TransactionDescription) :
    WalletResult CheckedDescription := do
  let toAddress ← validateAddress upstream description.toAddress
  if !description.fromAddresses.isEmpty && !description.utxos.isEmpty then
    Outcome.err (.transaction (.buildFailed
      "Cannot specify both from_addresses and utxos"))
  else do
    let fromAddresses ←
      Outcome.collect (fromAddress addressSet) description.fromAddresses
    let preselected ←
      Outcome.collect (preselectedUtxo upstream manager) description.utxos
    let (feeRate, maxFee) ← calculateFeeLimits replies description.feePolicy
    pure
      { toAddress, fromAddresses
        preselectedUtxos :=
          HashMap.insertAll WalletUtxo.outpoint ∅ preselected
        feeRate, maxFee }

/-- The preselected UTXOs in the order of their map, else the whole store. -/
def availableUtxos (order : IterationOrder WalletOutpoint WalletUtxo)
    (manager : UtxoManager)
    (preselectedUtxos : HashMap WalletOutpoint WalletUtxo) :
    List WalletUtxo :=
  if preselectedUtxos.entries.isEmpty then manager.utxosSortedByAmount
  else (order.entries preselectedUtxos).map Prod.snd

def selectionRequest (description : TransactionDescription)
    (checked : CheckedDescription) : SelectionRequest where
  amount := description.amount
  isSendAll := description.isSendAll
  feeRate := checked.feeRate
  maxFee := checked.maxFee
  fromAddresses := checked.fromAddresses
  payload := description.payload

def compoundingRequest (description : TransactionDescription)
    (checked : CheckedDescription) (change : Address × WalletAddress)
    (selectedUtxos : List WalletUtxo) : CompoundingRequest where
  selectedUtxos := selectedUtxos
  fromAddresses := checked.fromAddresses
  toAddress := checked.toAddress
  amount := description.amount
  isSendAll := description.isSendAll
  preselectedUtxoOutpoints := description.utxos
  changeAddress := change.1
  changeWalletAddress := change.2
  feeRate := checked.feeRate
  maxFee := checked.maxFee

/-- The recipient's payment and, if there is any, the change. -/
def originalPayments (toAddress changeAddress : Address)
    (amountSentToRecipient changeSompi : UInt64) : List WalletPayment :=
  ⟨toAddress, amountSentToRecipient⟩ ::
    if 0 < changeSompi then [⟨changeAddress, changeSompi⟩] else []

/-- `create_unsigned_transactions` from `select_utxos` to the transaction that
is then compounded. -/
def originalTransaction (surroundings : Surroundings) (manager : UtxoManager)
    (description : TransactionDescription) (checked : CheckedDescription)
    (change : Address × WalletAddress) :
    WalletResult (CompoundingRequest × WalletSignableTransaction) := do
  let (selectedUtxos, amountSentToRecipient, changeSompi) ←
    generator.selectUtxos upstream surroundings.replies manager
      (availableUtxos surroundings.order manager checked.preselectedUtxos)
      (selectionRequest description checked)
  let unsigned ← generator.generateUnsignedTransaction upstream
    (originalPayments checked.toAddress change.1 amountSentToRecipient
      changeSompi)
    selectedUtxos description.payload
  pure (compoundingRequest description checked change selectedUtxos, unsigned)

/-- Everything before `maybe_auto_compound_transaction`, and the address
manager that is left. -/
def prepare (surroundings : Surroundings) (manager : UtxoManager)
    (addressManager : AddressManager)
    (description : TransactionDescription) :
    WalletResult (CompoundingRequest × WalletSignableTransaction) ×
      AddressManager :=
  match checkDescription upstream surroundings.replies manager
      addressManager.addresses description with
  | .error fault => (.error fault, addressManager)
  | .ok checked =>
      let (change, left) := addressManager.changeAddress upstream
        description.useExistingChangeAddress checked.fromAddresses
        surroundings.saveKeys
      (change >>= generator.originalTransaction upstream surroundings manager
        description checked, left)

/-- `create_unsigned_transactions`, and the address manager that is left. -/
def createUnsignedTransactions (surroundings : Surroundings)
    (manager : UtxoManager) (addressManager : AddressManager)
    (description : TransactionDescription) (fuel : Nat) :
    WalletResult (List WalletSignableTransaction) × AddressManager :=
  let (prepared, left) := generator.prepare upstream surroundings manager
    addressManager description
  (prepared >>= fun (request, unsigned) =>
    generator.maybeAutoCompoundTransaction upstream request
      surroundings.replies manager fuel 0 unsigned, left)

end Create

end TransactionGenerator

end Kaswallet
