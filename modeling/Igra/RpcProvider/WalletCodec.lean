import Igra.Kaswallet.ProtoConvert
import Igra.Kaswallet.TransactionGenerator

/-!
# The provider's codec

The RPC provider decodes the transactions it gets from the wallet daemon,
mines the last of them and encodes it again.  Its codec is written
independently of the wallet's; on what the wallet's generator builds the two
agree.
-/

open Kaspa Rust Kaswallet

namespace RpcProvider

inductive KaspaWalletError where
  | userInputError (message : String)
  | internalServerError (message : String)
deriving DecidableEq

abbrev CodecResult := Outcome KaspaWalletError

section Decoding

/-- The script of an output or an entry; a missing one is the default. -/
def scriptOfProto (script : Option Proto.ScriptPublicKey) :
    CodecResult ScriptPublicKey :=
  match script with
  | none => .ok .default
  | some script => do
      let version ← narrowUInt16
        (.internalServerError "Invalid script version") script.version
      let bytes ← decodeHex
        (fun reason => KaspaWalletError.internalServerError
          ("Invalid script hex: " ++ reason)) script.scriptPublicKey
      pure ⟨version, bytes⟩

/-- `TransactionId::from_slice`, which panics on any other length. -/
def transactionIdFromSlice (bytes : List UInt8) : CodecResult TransactionId :=
  match FixedBytes.ofList? 32 bytes with
  | some id => .ok id
  | none => Outcome.panic

def outpointOfProto (outpoint : Option Proto.TransactionOutpoint) :
    CodecResult TransactionOutpoint :=
  match outpoint with
  | none => .ok ⟨FixedBytes.zero 32, 0⟩
  | some outpoint => do
      let id ← transactionIdFromSlice outpoint.transactionId
      pure ⟨id, outpoint.index⟩

/-- The field that does not apply to the version is ignored. -/
def commitOfProto (expectsComputeBudget : Bool)
    (input : Proto.TransactionInput) : CodecResult ComputeCommit :=
  if expectsComputeBudget then do
    let computeBudget ← narrowUInt16
      (.internalServerError
        (s!"TransactionInput.compute_budget {input.computeBudget} " ++
          "exceeds u16 max")) input.computeBudget
    pure (.computeBudget computeBudget)
  else do
    let sigOpCount ← narrowUInt8
      (.internalServerError
        (s!"TransactionInput.sig_op_count {input.sigOpCount} " ++
          "exceeds u8 max")) input.sigOpCount
    pure (.sigOpCount sigOpCount)

def inputOfProto (expectsComputeBudget : Bool)
    (input : Proto.TransactionInput) : CodecResult TransactionInput := do
  let outpoint ← outpointOfProto input.previousOutpoint
  let commit ← commitOfProto expectsComputeBudget input
  pure ⟨outpoint, input.signatureScript, input.sequence, commit⟩

def outputOfProto (output : Proto.TransactionOutput) :
    CodecResult TransactionOutput := do
  let script ← scriptOfProto output.scriptPublicKey
  pure (.new output.value script)

def subnetworkIdOfProto (bytes : List UInt8) : CodecResult SubnetworkId :=
  match FixedBytes.ofList? 20 bytes with
  | some subnetworkId => .ok subnetworkId
  | none =>
      if bytes.isEmpty then .ok (FixedBytes.zero 20)
      else Outcome.err (.internalServerError
        ("Invalid subnetwork_id length: expected 20 bytes, got " ++
          s!"{bytes.length}"))

/-- `proto_transaction_to_kaspa`.  The mass on the wire is not read. -/
def protoTransactionToKaspa (tx : Proto.Transaction) :
    CodecResult Transaction := do
  let version ← narrowUInt16
    (.internalServerError "Invalid transaction version") tx.version
  let expectsComputeBudget :=
    ComputeCommit.versionExpectsComputeBudgetField version
  let inputs ← Outcome.collect (inputOfProto expectsComputeBudget) tx.inputs
  let outputs ← Outcome.collect outputOfProto tx.outputs
  let subnetworkId ← subnetworkIdOfProto tx.subnetworkId
  pure (.new version inputs outputs tx.lockTime subnetworkId tx.gas
    tx.payload)

def entryOfProto (entry : Proto.UtxoEntry) : CodecResult UtxoEntry := do
  let script ← scriptOfProto entry.scriptPublicKey
  pure
    { amount := entry.amount
      scriptPublicKey := script
      blockDaaScore := entry.blockDaaScore
      isCoinbase := entry.isCoinbase
      covenantId := none }

/-- `proto_signable_to_kaspa`.  Missing entries are left out. -/
def protoSignableToKaspa (signable : Proto.SignableTransaction) :
    CodecResult SignableTransaction := do
  let message ← Outcome.ofOption (.userInputError "Missing transaction")
    signable.tx
  let tx ← protoTransactionToKaspa message
  let entries ← Outcome.collect entryOfProto
    (signable.entries.filterMap Proto.OptionalUtxoEntry.entry)
  let decoded ← SignableTransaction.withEntries tx entries
  pure
    { decoded with
      calculatedFee := signable.calculatedFee
      calculatedNonContextualMasses :=
        signable.calculatedNonContextualMasses.map massesFromProto }

/-- `proto_to_signable_transaction`. -/
def protoToSignableTransaction (message : Proto.WalletSignableTransaction) :
    CodecResult SignableTransaction := do
  let signed ← Outcome.ofOption (.userInputError "Missing transaction")
    message.transaction
  match signed.signed with
  | some (.partially signable) => protoSignableToKaspa signable
  | some (.fully _) =>
      Outcome.err (.userInputError "Cannot mine fully signed transaction")
  | none =>
      Outcome.err (.userInputError "Missing signed transaction variant")

end Decoding

section Encoding

variable (upstream : Upstream)

def scriptToProto (script : ScriptPublicKey) : Proto.ScriptPublicKey :=
  ⟨script.version.toUInt32, Hex.encode script.script⟩

/-- An entry that is bound to a covenant cannot be encoded. -/
def entryToProto (slot : Option UtxoEntry) :
    CodecResult Proto.OptionalUtxoEntry :=
  match slot with
  | none => .ok ⟨none⟩
  | some entry =>
      if entry.covenantId.isSome then
        Outcome.err (.internalServerError
          ("UtxoEntry.covenant_id is set but the kaswallet proto cannot " ++
            "carry it; round-trip would silently drop the field"))
      else
        .ok ⟨some
          { amount := entry.amount
            scriptPublicKey := some (scriptToProto entry.scriptPublicKey)
            blockDaaScore := entry.blockDaaScore
            isCoinbase := entry.isCoinbase }⟩

def inputToProto (input : TransactionInput) : Proto.TransactionInput where
  previousOutpoint := some
    ⟨input.previousOutpoint.transactionId.bytes,
      input.previousOutpoint.index⟩
  signatureScript := input.signatureScript
  sequence := input.sequence
  sigOpCount := (input.computeCommit.sigOpCount?.getD 0).toUInt32
  computeBudget := (input.computeCommit.computeBudget?.getD 0).toUInt32

def outputToProto (output : TransactionOutput) : Proto.TransactionOutput :=
  ⟨output.value, some (scriptToProto output.scriptPublicKey)⟩

/-- `kaspa_transaction_to_proto`. -/
def kaspaTransactionToProto (tx : Transaction) : Proto.Transaction where
  version := tx.version.toUInt32
  inputs := tx.inputs.map inputToProto
  outputs := tx.outputs.map outputToProto
  lockTime := tx.lockTime
  subnetworkId := tx.subnetworkId.bytes
  gas := tx.gas
  payload := tx.payload
  mass := tx.storageMass
  id := (upstream.transactionId tx).bytes

/-- `kaspa_signable_to_proto`. -/
def kaspaSignableToProto (signable : SignableTransaction) :
    CodecResult Proto.SignableTransaction := do
  let entries ← Outcome.collect entryToProto signable.entries
  pure
    { tx := some (kaspaTransactionToProto upstream signable.tx)
      entries
      calculatedFee := signable.calculatedFee
      calculatedNonContextualMasses :=
        signable.calculatedNonContextualMasses.map massesToProto }

/-- `update_proto_with_mined_transaction`: the message that is left. -/
def updateProtoWithMinedTransaction
    (message : Proto.WalletSignableTransaction)
    (mined : SignableTransaction) :
    CodecResult Proto.WalletSignableTransaction := do
  let _ ← Outcome.ofOption (.userInputError "Missing transaction")
    message.transaction
  let signable ← kaspaSignableToProto upstream mined
  pure { message with transaction := some ⟨some (.partially signable)⟩ }

end Encoding

section Inspection

/-- The transaction message inside either signing state. -/
def innerTransaction (message : Proto.WalletSignableTransaction) :
    Option Proto.Transaction := do
  let signed ← message.transaction
  match ← signed.signed with
  | .partially signable => signable.tx
  | .fully signable => signable.tx

def protoPayloadLen (message : Proto.WalletSignableTransaction) : Nat :=
  match innerTransaction message with
  | some tx => tx.payload.length
  | none => 0

/-- The payload inside a message; the default transaction has none. -/
def protoPayload (message : Proto.WalletSignableTransaction) : List UInt8 :=
  ((innerTransaction message).getD .default).payload

theorem protoPayloadLen_eq (message : Proto.WalletSignableTransaction) :
    protoPayloadLen message = (protoPayload message).length := by
  unfold protoPayloadLen protoPayload
  cases innerTransaction message <;> rfl

end Inspection

section Agreement

variable {upstream : Upstream}

/-- The two codecs write an input, an output and an entry alike. -/
theorem kaspaTransactionToProto_eq (tx : Transaction) :
    kaspaTransactionToProto upstream tx = transactionToProto upstream tx :=
  rfl

private theorem entryToProto_eq {slot : Option UtxoEntry}
    (unbound : ∀ entry, slot = some entry → entry.covenantId = none) :
    entryToProto slot = .ok (optionalUtxoEntryToProto slot) := by
  cases slot with
  | none => rfl
  | some entry =>
      simp [entryToProto, unbound entry rfl, optionalUtxoEntryToProto,
        utxoEntryToProto, scriptToProto, scriptPublicKeyToProto]

@[simp] theorem scriptOfProto_scriptPublicKeyToProto
    (script : ScriptPublicKey) :
    scriptOfProto (some (scriptPublicKeyToProto script)) = .ok script := by
  simp [scriptOfProto, scriptPublicKeyToProto]

private theorem commitOfProto_transactionInputToProto {input : TransactionInput}
    {version : UInt16} (matching : input.computeCommit.Matches version) :
    commitOfProto (ComputeCommit.versionExpectsComputeBudgetField version)
        (transactionInputToProto input) = .ok input.computeCommit := by
  unfold ComputeCommit.Matches at matching
  rw [← matching]
  cases commit : input.computeCommit with
  | sigOpCount count =>
      simp [commitOfProto, transactionInputToProto, commit,
        ComputeCommit.sigOpCount?, ComputeCommit.computeBudget?]
  | computeBudget budget =>
      simp [commitOfProto, transactionInputToProto, commit,
        ComputeCommit.sigOpCount?, ComputeCommit.computeBudget?]

private theorem inputOfProto_transactionInputToProto {input : TransactionInput}
    {version : UInt16} (matching : input.computeCommit.Matches version) :
    inputOfProto (ComputeCommit.versionExpectsComputeBudgetField version)
        (transactionInputToProto input) = .ok input := by
  simp only [inputOfProto, commitOfProto_transactionInputToProto matching]
  simp [transactionInputToProto, transactionOutpointToProto,
    outpointOfProto, transactionIdFromSlice]

private theorem outputOfProto_transactionOutputToProto
    {output : TransactionOutput}
    (unbound : output.covenant = none) :
    outputOfProto (transactionOutputToProto output) = .ok output := by
  obtain ⟨value, script, covenant⟩ := output
  obtain rfl := unbound
  simp [outputOfProto, transactionOutputToProto, TransactionOutput.new]

/-- The provider reads what the wallet writes, but for the storage mass. -/
theorem protoTransactionToKaspa_transactionToProto {tx : Transaction}
    (encodable : TransactionEncodable tx) :
    protoTransactionToKaspa (transactionToProto upstream tx) =
      .ok { tx with storageMass := 0 } := by
  have inputs := Outcome.collect_map_eq_ok fun input member =>
    inputOfProto_transactionInputToProto (encodable.commits input member)
  have outputs := Outcome.collect_map_eq_ok fun output member =>
    outputOfProto_transactionOutputToProto (encodable.unbound output member)
  simp [protoTransactionToKaspa, transactionToProto, inputs, outputs,
    subnetworkIdOfProto, Transaction.new]

private theorem entryOfProto_utxoEntryToProto {entry : UtxoEntry}
    (unbound : entry.covenantId = none) :
    entryOfProto (utxoEntryToProto entry) = .ok entry := by
  obtain ⟨amount, script, score, coinbase, covenant⟩ := entry
  obtain rfl := unbound
  simp [entryOfProto, utxoEntryToProto]

/-- The provider decodes what the wallet encodes, but for the storage mass. -/
theorem protoSignableToKaspa_signableTransactionToProto
    (upstream : Upstream) {signable : SignableTransaction}
    (encodable : SignableEncodable signable) :
    protoSignableToKaspa (signableTransactionToProto upstream signable) =
      .ok { signable with tx := { signable.tx with storageMass := 0 } } := by
  obtain ⟨tx, slots, fee, masses⟩ := signable
  obtain ⟨entries, rfl, unbound⟩ := encodable.present
  have decoded : Outcome.collect entryOfProto
      (entries.map utxoEntryToProto) = .ok entries :=
    Outcome.collect_map_eq_ok fun entry member =>
      entryOfProto_utxoEntryToProto (unbound entry member)
  have written : ((entries.map some).map optionalUtxoEntryToProto).filterMap
      Proto.OptionalUtxoEntry.entry = entries.map utxoEntryToProto := by
    simp [optionalUtxoEntryToProto, List.filterMap_map, Function.comp_def]
  have aligned : tx.inputs.length = entries.length := by
    simpa using encodable.aligned.symm
  have sameMasses : (masses.map massesToProto).map massesFromProto =
      masses := by
    cases masses <;> rfl
  simp only [protoSignableToKaspa, signableTransactionToProto,
    Outcome.ofOption, Outcome.ok_bind,
    protoTransactionToKaspa_transactionToProto encodable.tx, written,
    decoded, SignableTransaction.withEntries, aligned, if_true, sameMasses,
    Outcome.pure_eq_ok]

/-- Encoding a transaction that the wallet can decode writes the wallet's
message. -/
theorem kaspaSignableToProto_eq (upstream : Upstream)
    {signable : SignableTransaction} (encodable : SignableEncodable signable) :
    kaspaSignableToProto upstream signable =
      .ok (signableTransactionToProto upstream signable) := by
  obtain ⟨entries, slots, unbound⟩ := encodable.present
  have written : Outcome.collect entryToProto signable.entries =
      .ok (signable.entries.map optionalUtxoEntryToProto) := by
    apply Outcome.collect_eq_ok_map
    intro slot member
    rw [slots] at member
    obtain ⟨entry, inEntries, rfl⟩ := List.mem_map.mp member
    apply entryToProto_eq
    rintro other ⟨⟩
    exact unbound entry inEntries
  simp [kaspaSignableToProto, written, kaspaTransactionToProto_eq,
    signableTransactionToProto]

end Agreement

section Decoded

variable {upstream : Upstream}

theorem commitOfProto_matches {version : UInt16}
    {input : Proto.TransactionInput} {commit : ComputeCommit}
    (decoded : commitOfProto
      (ComputeCommit.versionExpectsComputeBudgetField version) input =
        .ok commit) :
    commit.Matches version := by
  unfold ComputeCommit.Matches
  cases expected : ComputeCommit.versionExpectsComputeBudgetField version with
  | true =>
      simp only [commitOfProto, expected, if_true, Outcome.bind_eq_ok,
        Outcome.pure_eq_ok] at decoded
      obtain ⟨-, -, rfl⟩ := decoded
      rfl
  | false =>
      simp only [commitOfProto, expected, Bool.false_eq_true, if_false,
        Outcome.bind_eq_ok, Outcome.pure_eq_ok] at decoded
      obtain ⟨-, -, rfl⟩ := decoded
      rfl

theorem encodable_of_protoTransactionToKaspa {message : Proto.Transaction}
    {tx : Transaction} (decoded : protoTransactionToKaspa message = .ok tx) :
    TransactionEncodable tx ∧ tx.storageMass = 0 := by
  simp only [protoTransactionToKaspa, Outcome.bind_eq_ok,
    Outcome.pure_eq_ok] at decoded
  obtain ⟨version, -, inputs, inputsRead, outputs, outputsRead, -, -, rfl⟩ :=
    decoded
  refine ⟨⟨?_, ?_⟩, rfl⟩
  · intro input member
    obtain ⟨source, -, read⟩ :=
      Outcome.exists_of_mem_collect inputsRead member
    simp only [inputOfProto, Outcome.bind_eq_ok, Outcome.pure_eq_ok] at read
    obtain ⟨-, -, commit, committed, rfl⟩ := read
    exact commitOfProto_matches committed
  · intro output member
    obtain ⟨source, -, read⟩ :=
      Outcome.exists_of_mem_collect outputsRead member
    simp only [outputOfProto, Outcome.bind_eq_ok, Outcome.pure_eq_ok] at read
    obtain ⟨-, -, rfl⟩ := read
    rfl

/-- A message that is decoded holds a transaction and one entry for each of
its inputs. -/
theorem exists_wire_of_protoToSignableTransaction
    {message : Proto.WalletSignableTransaction}
    {signable : SignableTransaction}
    (decoded : protoToSignableTransaction message = .ok signable) :
    ∃ wire slots entries,
      innerTransaction message = some wire ∧
        protoTransactionToKaspa wire = .ok signable.tx ∧
        Outcome.collect entryOfProto slots = .ok entries ∧
        signable.entries = entries.map some ∧
        signable.tx.inputs.length = entries.length := by
  simp only [protoToSignableTransaction, Outcome.bind_eq_ok,
    Outcome.ofOption_eq_ok] at decoded
  obtain ⟨signed, present, decoded⟩ := decoded
  split at decoded
  · rename_i source state
    simp only [protoSignableToKaspa, Outcome.bind_eq_ok, Outcome.pure_eq_ok,
      Outcome.ofOption_eq_ok, SignableTransaction.withEntries_eq_ok]
      at decoded
    obtain ⟨wire, carried, tx, read, entries, entriesRead, -,
      ⟨aligned, rfl⟩, rfl⟩ := decoded
    refine ⟨wire, _, entries, ?_, read, entriesRead, rfl, aligned⟩
    simp [innerTransaction, present, state, carried]
  · exact absurd decoded (Outcome.err_ne_ok _ _)
  · exact absurd decoded (Outcome.err_ne_ok _ _)

/-- What the provider decodes, both codecs can carry. -/
theorem encodable_of_protoToSignableTransaction
    {message : Proto.WalletSignableTransaction}
    {signable : SignableTransaction}
    (decoded : protoToSignableTransaction message = .ok signable) :
    SignableEncodable signable ∧ signable.tx.storageMass = 0 := by
  obtain ⟨wire, slots, entries, -, read, entriesRead, present, aligned⟩ :=
    exists_wire_of_protoToSignableTransaction decoded
  obtain ⟨encodable, massless⟩ := encodable_of_protoTransactionToKaspa read
  refine ⟨⟨encodable, ?_, entries, present, ?_⟩, massless⟩
  · rw [present, List.length_map, aligned]
  · intro entry member
    obtain ⟨source, -, entryRead⟩ :=
      Outcome.exists_of_mem_collect entriesRead member
    simp only [entryOfProto, Outcome.bind_eq_ok,
      Outcome.pure_eq_ok] at entryRead
    obtain ⟨-, -, rfl⟩ := entryRead
    rfl

private theorem payload_of_protoTransactionToKaspa {message : Proto.Transaction}
    {tx : Transaction} (decoded : protoTransactionToKaspa message = .ok tx) :
    tx.payload = message.payload := by
  simp only [protoTransactionToKaspa, Outcome.bind_eq_ok,
    Outcome.pure_eq_ok] at decoded
  obtain ⟨-, -, -, -, -, -, -, -, rfl⟩ := decoded
  rfl

/-- The message that replaces a mined one. -/
theorem eq_of_updateProtoWithMinedTransaction
    {last updated : Proto.WalletSignableTransaction}
    {mined : SignableTransaction} (encodable : SignableEncodable mined)
    (replaced : updateProtoWithMinedTransaction upstream last mined =
      .ok updated) :
    updated =
      { last with
        transaction := some ⟨some (.partially
          (signableTransactionToProto upstream mined))⟩ } := by
  simp only [updateProtoWithMinedTransaction,
    kaspaSignableToProto_eq upstream encodable, Outcome.bind_eq_ok,
    Outcome.ok_bind, Outcome.pure_eq_ok] at replaced
  obtain ⟨-, -, rfl⟩ := replaced
  rfl

/-- The transaction of a message, in either signing state. -/
def carriedTransaction (message : Proto.WalletSignableTransaction) :
    CodecResult Transaction := do
  let wire ← Outcome.ofOption (.userInputError "Missing transaction")
    (innerTransaction message)
  protoTransactionToKaspa wire

@[simp] theorem innerTransaction_walletSignableTransactionToProto
    (transaction : WalletSignableTransaction) :
    innerTransaction
        (walletSignableTransactionToProto upstream transaction) =
      some (transactionToProto upstream transaction.tx) := by
  obtain ⟨signed, paths, inputs, outputs⟩ := transaction
  cases signed <;> rfl

@[simp] theorem protoPayload_walletSignableTransactionToProto
    (transaction : WalletSignableTransaction) :
    protoPayload (walletSignableTransactionToProto upstream transaction) =
      transaction.tx.payload := by
  simp [protoPayload, transactionToProto]

private theorem transactionFromProto_of_signable
    {message : Proto.SignableTransaction} {signable : SignableTransaction}
    (decoded : signableTransactionFromProto message = .ok signable) :
    transactionFromProto (message.tx.getD .default) = .ok signable.tx := by
  simp only [signableTransactionFromProto, Outcome.bind_eq_ok] at decoded
  obtain ⟨tx, read, entries, -, checked⟩ := decoded
  split at checked
  · exact absurd checked (Outcome.err_ne_ok _ _)
  · split at checked
    · exact absurd checked (Outcome.err_ne_ok _ _)
    · cases checked
      exact read

/-- The wallet reads the transaction inside a message, or the default when it
is missing. -/
theorem transactionFromProto_of_walletSignableTransactionFromProto
    {message : Proto.WalletSignableTransaction}
    {transaction : WalletSignableTransaction}
    (decoded : walletSignableTransactionFromProto upstream message =
      .ok transaction) :
    transactionFromProto ((innerTransaction message).getD .default) =
      .ok transaction.tx := by
  simp only [walletSignableTransactionFromProto, Outcome.bind_eq_ok,
    Outcome.pure_eq_ok] at decoded
  obtain ⟨signed, read, -, -, -, -, rfl⟩ := decoded
  cases present : message.transaction with
  | none =>
      rw [present] at read
      exact absurd read (Outcome.err_ne_ok _ _)
  | some wire =>
      rw [present, Option.getD_some, signedTransactionFromProto] at read
      split at read
      · rename_i signable state
        obtain ⟨kept, taken, rfl⟩ := Outcome.map_eq_ok.mp read
        have found : innerTransaction message = signable.tx := by
          simp [innerTransaction, present, state]
        rw [found]
        exact transactionFromProto_of_signable taken
      · rename_i signable state
        obtain ⟨kept, taken, rfl⟩ := Outcome.map_eq_ok.mp read
        have found : innerTransaction message = signable.tx := by
          simp [innerTransaction, present, state]
        rw [found]
        exact transactionFromProto_of_signable taken
      · exact absurd read (Outcome.err_ne_ok _ _)

/-- The wallet's decoder keeps the payload. -/
theorem payload_of_walletSignableTransactionFromProto
    {message : Proto.WalletSignableTransaction}
    {transaction : WalletSignableTransaction}
    (decoded : walletSignableTransactionFromProto upstream message =
      .ok transaction) :
    transaction.tx.payload = protoPayload message := by
  have read :=
    transactionFromProto_of_walletSignableTransactionFromProto decoded
  simp only [transactionFromProto, Outcome.bind_eq_ok,
    Outcome.pure_eq_ok] at read
  obtain ⟨version, -, subnetworkId, -, inputs, -, outputs, -, shape⟩ := read
  rw [← shape]
  rfl

/-- So does the provider's. -/
theorem payload_of_protoToSignableTransaction
    {message : Proto.WalletSignableTransaction}
    {signable : SignableTransaction}
    (decoded : protoToSignableTransaction message = .ok signable) :
    signable.tx.payload = protoPayload message := by
  obtain ⟨wire, -, -, inner, read, -⟩ :=
    exists_wire_of_protoToSignableTransaction decoded
  rw [payload_of_protoTransactionToKaspa read, protoPayload, inner]
  rfl

end Decoded

section Generated

variable {upstream : Upstream} {generator : TransactionGenerator}
  {payments : List WalletPayment} {selectedUtxos : List WalletUtxo}
  {payload : List UInt8} {built : WalletSignableTransaction}

theorem inputOf_matches (generator : TransactionGenerator)
    (utxo : WalletUtxo) :
    (generator.inputOf utxo).computeCommit.Matches generator.txVersion := by
  unfold ComputeCommit.Matches TransactionGenerator.inputOf
  cases version :
    ComputeCommit.versionExpectsComputeBudgetField generator.txVersion <;>
      rfl

/-- Both codecs can carry what the generator builds. -/
theorem signableEncodable_of_generateUnsignedTransaction
    (generated : generator.generateUnsignedTransaction upstream payments
      selectedUtxos payload = .ok built) :
    SignableEncodable built.transaction.inner := by
  have tx := TransactionGenerator.tx_of_generateUnsignedTransaction generated
  have slots :=
    TransactionGenerator.entries_of_generateUnsignedTransaction generated
  unfold WalletSignableTransaction.tx at tx
  refine ⟨⟨?_, ?_⟩, ?_, ?_⟩
  · rw [tx]
    intro input member
    obtain ⟨utxo, -, rfl⟩ := List.mem_map.mp member
    exact inputOf_matches generator utxo
  · rw [tx]
    intro output member
    obtain ⟨payment, -, rfl⟩ := List.mem_map.mp member
    rfl
  · rw [tx, slots]
    simp [TransactionGenerator.consensusTransaction, Transaction.new]
  · refine ⟨selectedUtxos.map fun utxo => utxo.utxoEntry.toUtxoEntry, ?_, ?_⟩
    · rw [slots, List.map_map]
      rfl
    · intro entry member
      obtain ⟨utxo, -, rfl⟩ := List.mem_map.mp member
      rfl

/-- A transaction that the generator builds survives the way to the provider
and back. -/
theorem generated_survives_provider
    (addresses : upstream.AddressesRoundTrip)
    (generated : generator.generateUnsignedTransaction upstream payments
      selectedUtxos payload = .ok built) :
    ∃ signable returned,
      protoToSignableTransaction
          (walletSignableTransactionToProto upstream built) = .ok signable ∧
        updateProtoWithMinedTransaction upstream
          (walletSignableTransactionToProto upstream built) signable =
            .ok returned ∧
        walletSignableTransactionFromProto upstream returned = .ok built := by
  have encodable := signableEncodable_of_generateUnsignedTransaction generated
  obtain ⟨paths, masses, -, -, shape⟩ :=
    TransactionGenerator.generateUnsignedTransaction_eq_ok.mp generated
  refine ⟨built.transaction.inner,
    walletSignableTransactionToProto upstream built, ?_, ?_, ?_⟩
  · have massless : built.transaction.inner.tx.storageMass = 0 := by
      rw [shape]
      rfl
    have decoded := protoSignableToKaspa_signableTransactionToProto
      upstream encodable
    rw [← massless] at decoded
    rw [shape] at decoded ⊢
    exact decoded
  · have encoded := kaspaSignableToProto_eq upstream encodable
    rw [shape] at encoded ⊢
    simp only [updateProtoWithMinedTransaction,
      walletSignableTransactionToProto, signedTransactionToProto,
      WalletSigned.inner, Outcome.ofOption, Outcome.ok_bind] at encoded ⊢
    simp [encoded]
  · apply walletSignableTransaction_decode addresses encodable
    rw [shape]
    exact nodup_map_distinctOn _ _

/-- A payment of 47000 sompi from one UTXO, with change. -/
theorem sample_survives_provider :
    ∃ built signable returned,
      (TransactionGenerator.sampleGenerator 1).generateUnsignedTransaction
          devnet
          [⟨TransactionGenerator.sampleAddress 8, 47000⟩,
            ⟨TransactionGenerator.sampleAddress 9, 1000⟩]
          [TransactionGenerator.sampleUtxo 1 50000] [0x94, 1, 0, 0, 0, 1] =
        .ok built ∧
      protoToSignableTransaction
          (walletSignableTransactionToProto devnet built) = .ok signable ∧
        updateProtoWithMinedTransaction devnet
          (walletSignableTransactionToProto devnet built) signable =
            .ok returned ∧
        walletSignableTransactionFromProto devnet returned = .ok built := by
  have run :
      ((TransactionGenerator.sampleGenerator 1).generateUnsignedTransaction
        devnet
        [⟨TransactionGenerator.sampleAddress 8, 47000⟩,
          ⟨TransactionGenerator.sampleAddress 9, 1000⟩]
        [TransactionGenerator.sampleUtxo 1 50000]
        [0x94, 1, 0, 0, 0, 1]).Returns fun _ => True := by
    decide +kernel
  obtain ⟨built, generated, -⟩ := run
  obtain ⟨signable, returned, read, updated, decoded⟩ :=
    generated_survives_provider addressesRoundTrip_devnet generated
  exact ⟨built, signable, returned, generated, read, updated, decoded⟩

end Generated

end RpcProvider
