import Igra.Kaspa.Devnet
import Igra.Kaswallet.Model
import Igra.Kaswallet.Proto

/-!
# The wallet's codec

The conversions of `proto_convert.rs` between wallet data and messages.
Encoding never fails; decoding checks lengths and widths.  A transaction that
the wallet builds or signs survives the round trip.
-/

open Kaspa Rust

namespace Kaswallet

section Narrowing

private def invalidMessage (reason : String) : WalletError :=
  .userInput (.invalidArgument reason)

/-- `u16::try_from(value).map_err(..)`. -/
def narrowUInt16 {ε : Type} (error : ε) (value : UInt32) :
    Outcome ε UInt16 :=
  if value.toNat < 2 ^ 16 then .ok value.toUInt16 else Outcome.err error

/-- `u8::try_from(value).map_err(..)`. -/
def narrowUInt8 {ε : Type} (error : ε) (value : UInt32) : Outcome ε UInt8 :=
  if value.toNat < 2 ^ 8 then .ok value.toUInt8 else Outcome.err error

@[simp] theorem narrowUInt16_toUInt32 {ε : Type} (error : ε)
    (value : UInt16) : narrowUInt16 error value.toUInt32 = .ok value := by
  have bound := value.toNat_lt
  simp [narrowUInt16, bound]

@[simp] theorem narrowUInt8_toUInt32 {ε : Type} (error : ε)
    (value : UInt8) : narrowUInt8 error value.toUInt32 = .ok value := by
  have bound := value.toNat_lt
  simp [narrowUInt8, bound]

end Narrowing

section Encoding

variable (upstream : Upstream)

def derivationPathToProto (path : DerivationPath) : Proto.DerivationPath :=
  ⟨path.children⟩

/-- `ProtoKeychain::from(keychain) as i32`. -/
def keychainToProto : Keychain → Int32
  | .external => 0
  | .internal => 1

def walletAddressToProto (address : WalletAddress) : Proto.WalletAddress where
  index := address.index
  cosignerIndex := address.cosignerIndex.toUInt32
  keychain := keychainToProto address.keychain

def transactionOutpointToProto (outpoint : TransactionOutpoint) :
    Proto.TransactionOutpoint :=
  ⟨outpoint.transactionId.bytes, outpoint.index⟩

def scriptPublicKeyToProto (script : ScriptPublicKey) :
    Proto.ScriptPublicKey :=
  ⟨script.version.toUInt32, Hex.encode script.script⟩

/-- The covenant id is dropped on the wire. -/
def utxoEntryToProto (entry : UtxoEntry) : Proto.UtxoEntry where
  amount := entry.amount
  scriptPublicKey := some (scriptPublicKeyToProto entry.scriptPublicKey)
  blockDaaScore := entry.blockDaaScore
  isCoinbase := entry.isCoinbase

/-- Both mass fields are emitted; the unused one is zero. -/
def transactionInputToProto (input : TransactionInput) :
    Proto.TransactionInput where
  previousOutpoint := some (transactionOutpointToProto input.previousOutpoint)
  signatureScript := input.signatureScript
  sequence := input.sequence
  sigOpCount := (input.computeCommit.sigOpCount?.getD 0).toUInt32
  computeBudget := (input.computeCommit.computeBudget?.getD 0).toUInt32

/-- The covenant of an output is dropped on the wire. -/
def transactionOutputToProto (output : TransactionOutput) :
    Proto.TransactionOutput :=
  ⟨output.value, some (scriptPublicKeyToProto output.scriptPublicKey)⟩

def transactionToProto (tx : Transaction) : Proto.Transaction where
  version := tx.version.toUInt32
  inputs := tx.inputs.map transactionInputToProto
  outputs := tx.outputs.map transactionOutputToProto
  lockTime := tx.lockTime
  subnetworkId := tx.subnetworkId.bytes
  gas := tx.gas
  payload := tx.payload
  mass := tx.storageMass
  id := (upstream.transactionId tx).bytes

def optionalUtxoEntryToProto (entry : Option UtxoEntry) :
    Proto.OptionalUtxoEntry :=
  ⟨entry.map utxoEntryToProto⟩

def massesToProto (masses : NonContextualMasses) :
    Proto.NonContextualMasses :=
  ⟨masses.computeMass, masses.transientMass⟩

def signableTransactionToProto (signable : SignableTransaction) :
    Proto.SignableTransaction where
  tx := some (transactionToProto upstream signable.tx)
  entries := signable.entries.map optionalUtxoEntryToProto
  calculatedFee := signable.calculatedFee
  calculatedNonContextualMasses :=
    signable.calculatedNonContextualMasses.map massesToProto

def signedTransactionToProto : WalletSigned → Proto.SignedTransaction
  | .fully tx => ⟨some (.fully (signableTransactionToProto upstream tx))⟩
  | .partially tx =>
      ⟨some (.partially (signableTransactionToProto upstream tx))⟩

/-- `ProtoWalletSignableTransaction::from`. -/
def walletSignableTransactionToProto
    (transaction : WalletSignableTransaction) :
    Proto.WalletSignableTransaction where
  transaction := some (signedTransactionToProto upstream
    transaction.transaction)
  derivationPaths := transaction.derivationPaths.map derivationPathToProto
  addressByInputIndex :=
    transaction.addressByInputIndex.map walletAddressToProto
  addressByOutputIndex :=
    transaction.addressByOutputIndex.map upstream.addressToString

end Encoding

section Decoding

variable (upstream : Upstream)

def derivationPathFromProto (path : Proto.DerivationPath) : DerivationPath :=
  ⟨path.path⟩

/-- `ProtoKeychain::try_from(..).unwrap_or(ProtoKeychain::External)`. -/
def keychainFromProto (keychain : Int32) : Keychain :=
  if keychain = 1 then .internal else .external

def walletAddressFromProto (address : Proto.WalletAddress) :
    WalletResult WalletAddress := do
  let cosignerIndex ← narrowUInt16
    (invalidMessage
      (s!"WalletAddress.cosigner_index {address.cosignerIndex} " ++
        "exceeds u16::MAX")) address.cosignerIndex
  pure ⟨address.index, cosignerIndex, keychainFromProto address.keychain⟩

/-- `WalletOutpoint::try_from(ProtoOutpoint)`. -/
def walletOutpointFromProto (outpoint : Proto.Outpoint) :
    WalletResult WalletOutpoint := do
  let transactionId ← mapError
    (fun reason => invalidMessage
      ("Outpoint.transaction_id must be a 64-char hex hash: " ++ reason))
    (upstream.hashFromStr outpoint.transactionId)
  pure ⟨transactionId, outpoint.index⟩

def transactionOutpointFromProto (outpoint : Proto.TransactionOutpoint) :
    WalletResult TransactionOutpoint := do
  let transactionId ← Outcome.ofOption
    (invalidMessage
      ("TransactionOutpoint.transaction_id must be 32 bytes, got " ++
        s!"{outpoint.transactionId.length}"))
    (FixedBytes.ofList? 32 outpoint.transactionId)
  pure ⟨transactionId, outpoint.index⟩

/-- `hex::decode(text).map_err(..)`. -/
def decodeHex {ε : Type} (error : String → ε) (text : String) :
    Outcome ε (List UInt8) :=
  match Hex.decode text with
  | .ok bytes => .ok bytes
  | .error reason => Outcome.err (error reason.describe)

def scriptPublicKeyFromProto (script : Proto.ScriptPublicKey) :
    WalletResult ScriptPublicKey := do
  let version ← narrowUInt16
    (invalidMessage
      s!"ScriptPublicKey.version {script.version} exceeds u16::MAX")
    script.version
  let bytes ← decodeHex
    (fun reason => invalidMessage
      ("ScriptPublicKey.script_public_key must be valid hex: " ++ reason))
    script.scriptPublicKey
  pure ⟨version, bytes⟩

def utxoEntryFromProto (entry : Proto.UtxoEntry) : WalletResult UtxoEntry := do
  let scriptPublicKey ← scriptPublicKeyFromProto
    (entry.scriptPublicKey.getD .default)
  pure
    { amount := entry.amount
      scriptPublicKey
      blockDaaScore := entry.blockDaaScore
      isCoinbase := entry.isCoinbase
      covenantId := none }

/-- The mass commitment: the version decides which field counts, and the other
one must be zero. -/
def computeCommitFromProto (input : Proto.TransactionInput)
    (txVersion : UInt16) : WalletResult ComputeCommit :=
  if ComputeCommit.versionExpectsComputeBudgetField txVersion then
    if input.sigOpCount ≠ 0 then
      Outcome.err (invalidMessage
        ("TransactionInput.sig_op_count must be 0 for v1 transactions, " ++
          s!"got {input.sigOpCount}"))
    else do
      let computeBudget ← narrowUInt16
        (invalidMessage
          (s!"TransactionInput.compute_budget {input.computeBudget} " ++
            "exceeds u16 max")) input.computeBudget
      pure (.computeBudget computeBudget)
  else if input.computeBudget ≠ 0 then
    Outcome.err (invalidMessage
      ("TransactionInput.compute_budget must be 0 for v0 transactions, " ++
        s!"got {input.computeBudget}"))
  else do
    let sigOpCount ← narrowUInt8
      (invalidMessage
        (s!"TransactionInput.sig_op_count {input.sigOpCount} " ++
          "exceeds u8 max")) input.sigOpCount
    pure (.sigOpCount sigOpCount)

def transactionInputFromProto (txVersion : UInt16)
    (input : Proto.TransactionInput) : WalletResult TransactionInput := do
  let previousOutpoint ← transactionOutpointFromProto
    (input.previousOutpoint.getD .default)
  let computeCommit ← computeCommitFromProto input txVersion
  pure ⟨previousOutpoint, input.signatureScript, input.sequence,
    computeCommit⟩

def transactionOutputFromProto (output : Proto.TransactionOutput) :
    WalletResult TransactionOutput := do
  let scriptPublicKey ← scriptPublicKeyFromProto
    (output.scriptPublicKey.getD .default)
  pure ⟨output.value, scriptPublicKey, none⟩

def transactionFromProto (tx : Proto.Transaction) :
    WalletResult Transaction := do
  let version ← narrowUInt16
    (invalidMessage s!"Transaction.version {tx.version} exceeds u16::MAX")
    tx.version
  let subnetworkId ← Outcome.ofOption
    (invalidMessage
      ("Transaction.subnetwork_id must be 20 bytes, got " ++
        s!"{tx.subnetworkId.length}"))
    (FixedBytes.ofList? 20 tx.subnetworkId)
  let inputs ← Outcome.collect (transactionInputFromProto version) tx.inputs
  let outputs ← Outcome.collect transactionOutputFromProto tx.outputs
  pure
    { version, inputs, outputs
      lockTime := tx.lockTime
      subnetworkId
      gas := tx.gas
      payload := tx.payload
      storageMass := tx.mass }

def optionalUtxoEntryFromProto (entry : Proto.OptionalUtxoEntry) :
    WalletResult (Option UtxoEntry) :=
  match entry.entry with
  | none => .ok none
  | some entry => some <$> utxoEntryFromProto entry

def massesFromProto (masses : Proto.NonContextualMasses) :
    NonContextualMasses :=
  ⟨masses.computeMass, masses.transientMass⟩

def signableTransactionFromProto (signable : Proto.SignableTransaction) :
    WalletResult SignableTransaction := do
  let tx ← transactionFromProto (signable.tx.getD .default)
  let entries ←
    Outcome.collect optionalUtxoEntryFromProto signable.entries
  if entries.length ≠ tx.inputs.length then
    Outcome.err (invalidMessage
      (s!"SignableTransaction.entries length {entries.length} does not " ++
        s!"match inputs length {tx.inputs.length}"))
  else if entries.any Option.isNone then
    Outcome.err (invalidMessage
      ("SignableTransaction.entries must not contain None for " ++
        "verification"))
  else
    pure ⟨tx, entries, signable.calculatedFee,
      signable.calculatedNonContextualMasses.map massesFromProto⟩

def signedTransactionFromProto (signed : Proto.SignedTransaction) :
    WalletResult WalletSigned :=
  match signed.signed with
  | some (.fully tx) => .fully <$> signableTransactionFromProto tx
  | some (.partially tx) => .partially <$> signableTransactionFromProto tx
  | none => Outcome.err
      (invalidMessage "SignedTransaction.signed oneof must be set")

def addressFromProto (text : String) : WalletResult Address :=
  mapError (fun reason => .userInput (.invalidAddress text reason))
    (upstream.addressTryFrom text)

/-- `WalletSignableTransaction::try_from`.  Repeated derivation paths are
dropped. -/
def walletSignableTransactionFromProto
    (message : Proto.WalletSignableTransaction) :
    WalletResult WalletSignableTransaction := do
  let transaction ← signedTransactionFromProto
    (message.transaction.getD .default)
  let addressByOutputIndex ←
    Outcome.collect (addressFromProto upstream) message.addressByOutputIndex
  let derivationPaths := distinctOn upstream.derivationPathToString
    (message.derivationPaths.map derivationPathFromProto)
  let addressByInputIndex ←
    Outcome.collect walletAddressFromProto message.addressByInputIndex
  pure ⟨transaction, derivationPaths, addressByInputIndex,
    addressByOutputIndex⟩

end Decoding

section RoundTrip

private theorem keychain_roundTrip (keychain : Keychain) :
    keychainFromProto (keychainToProto keychain) = keychain := by
  cases keychain <;> rfl

private theorem walletAddress_roundTrip (address : WalletAddress) :
    walletAddressFromProto (walletAddressToProto address) =
      .ok address := by
  simp [walletAddressFromProto, walletAddressToProto, keychain_roundTrip]

private theorem transactionOutpoint_roundTrip (outpoint : TransactionOutpoint) :
    transactionOutpointFromProto (transactionOutpointToProto outpoint) =
      .ok outpoint := by
  simp [transactionOutpointFromProto, transactionOutpointToProto,
    Outcome.ofOption]

@[simp] theorem decodeHex_encode {ε : Type} (error : String → ε)
    (bytes : List UInt8) :
    decodeHex error (Hex.encode bytes) = .ok bytes := by
  simp [decodeHex, Hex.decode_encode]

theorem scriptPublicKey_roundTrip (script : ScriptPublicKey) :
    scriptPublicKeyFromProto (scriptPublicKeyToProto script) =
      .ok script := by
  simp [scriptPublicKeyFromProto, scriptPublicKeyToProto]

private theorem utxoEntry_roundTrip {entry : UtxoEntry}
    (unbound : entry.covenantId = none) :
    utxoEntryFromProto (utxoEntryToProto entry) = .ok entry := by
  obtain ⟨amount, script, score, coinbase, covenant⟩ := entry
  obtain rfl := unbound
  simp [utxoEntryFromProto, utxoEntryToProto, scriptPublicKey_roundTrip]

theorem computeCommit_roundTrip {input : TransactionInput}
    {version : UInt16} (matching : input.computeCommit.Matches version) :
    computeCommitFromProto (transactionInputToProto input) version =
      .ok input.computeCommit := by
  unfold ComputeCommit.Matches at matching
  cases commit : input.computeCommit with
  | sigOpCount count =>
      rw [commit] at matching
      have early :
          ComputeCommit.versionExpectsComputeBudgetField version = false :=
        matching.symm
      simp [computeCommitFromProto, transactionInputToProto, early, commit,
        ComputeCommit.sigOpCount?, ComputeCommit.computeBudget?]
  | computeBudget budget =>
      rw [commit] at matching
      have late :
          ComputeCommit.versionExpectsComputeBudgetField version = true :=
        matching.symm
      simp [computeCommitFromProto, transactionInputToProto, late, commit,
        ComputeCommit.sigOpCount?, ComputeCommit.computeBudget?]

private theorem transactionInput_roundTrip {input : TransactionInput}
    {version : UInt16} (matching : input.computeCommit.Matches version) :
    transactionInputFromProto version (transactionInputToProto input) =
      .ok input := by
  simp only [transactionInputFromProto, computeCommit_roundTrip matching]
  simp [transactionInputToProto, transactionOutpoint_roundTrip]

private theorem transactionOutput_roundTrip {output : TransactionOutput}
    (unbound : output.covenant = none) :
    transactionOutputFromProto (transactionOutputToProto output) =
      .ok output := by
  obtain ⟨value, script, covenant⟩ := output
  obtain rfl := unbound
  simp [transactionOutputFromProto, transactionOutputToProto,
    scriptPublicKey_roundTrip]

/-- What the messages can carry of a consensus transaction. -/
structure TransactionEncodable (tx : Transaction) : Prop where
  commits : ∀ input ∈ tx.inputs, input.computeCommit.Matches tx.version
  unbound : ∀ output ∈ tx.outputs, output.covenant = none

theorem transaction_roundTrip (upstream : Upstream) {tx : Transaction}
    (encodable : TransactionEncodable tx) :
    transactionFromProto (transactionToProto upstream tx) = .ok tx := by
  have inputs := Outcome.collect_map_eq_ok fun input member =>
    transactionInput_roundTrip (encodable.commits input member)
  have outputs := Outcome.collect_map_eq_ok fun output member =>
    transactionOutput_roundTrip (encodable.unbound output member)
  simp [transactionFromProto, transactionToProto, Outcome.ofOption, inputs,
    outputs]

/-- There is one entry, not bound to a covenant, for each input. -/
structure SignableEncodable (signable : SignableTransaction) : Prop where
  tx : TransactionEncodable signable.tx
  aligned : signable.entries.length = signable.tx.inputs.length
  present : ∃ entries : List UtxoEntry,
    signable.entries = entries.map some ∧
      ∀ entry ∈ entries, entry.covenantId = none

theorem signableTransaction_roundTrip (upstream : Upstream)
    {signable : SignableTransaction}
    (encodable : SignableEncodable signable) :
    signableTransactionFromProto
        (signableTransactionToProto upstream signable) = .ok signable := by
  obtain ⟨present, slots, unbound⟩ := encodable.present
  have entries : Outcome.collect optionalUtxoEntryFromProto
      (signable.entries.map optionalUtxoEntryToProto) =
        .ok signable.entries := by
    apply Outcome.collect_map_eq_ok
    intro slot member
    rw [slots] at member
    obtain ⟨entry, inPresent, rfl⟩ := List.mem_map.mp member
    simp [optionalUtxoEntryFromProto, optionalUtxoEntryToProto,
      utxoEntry_roundTrip (unbound entry inPresent)]
  have complete : signable.entries.any Option.isNone = false := by
    simp [slots]
  have masses : (signable.calculatedNonContextualMasses.map
      massesToProto).map massesFromProto =
        signable.calculatedNonContextualMasses := by
    cases signable.calculatedNonContextualMasses <;> rfl
  simp only [signableTransactionFromProto, signableTransactionToProto,
    Option.getD_some, transaction_roundTrip upstream encodable.tx,
    Outcome.ok_bind, entries, encodable.aligned, complete, masses, ne_eq,
    not_true_eq_false, if_false, Bool.false_eq_true, Outcome.pure_eq_ok]

/-- What the messages can carry of a wallet transaction. -/
structure Encodable (transaction : WalletSignableTransaction) : Prop where
  signable : SignableEncodable transaction.transaction.inner
  distinctPaths : transaction.derivationPaths.Nodup

variable {upstream : Upstream}

theorem signedTransaction_roundTrip {signed : WalletSigned}
    (encodable : SignableEncodable signed.inner) :
    signedTransactionFromProto (signedTransactionToProto upstream signed) =
      .ok signed := by
  cases signed with
  | fully tx =>
      have decoded : signableTransactionFromProto
          (signableTransactionToProto upstream tx) = .ok tx :=
        signableTransaction_roundTrip upstream encodable
      simp [signedTransactionFromProto, signedTransactionToProto, decoded]
  | partially tx =>
      have decoded : signableTransactionFromProto
          (signableTransactionToProto upstream tx) = .ok tx :=
        signableTransaction_roundTrip upstream encodable
      simp [signedTransactionFromProto, signedTransactionToProto, decoded]

/-- Paths with different texts all survive. -/
theorem walletSignableTransaction_decode
    (addresses : upstream.AddressesRoundTrip)
    {transaction : WalletSignableTransaction}
    (signable : SignableEncodable transaction.transaction.inner)
    (distinctTexts : (transaction.derivationPaths.map
      upstream.derivationPathToString).Nodup) :
    walletSignableTransactionFromProto upstream
        (walletSignableTransactionToProto upstream transaction) =
      .ok transaction := by
  have outputs : Outcome.collect (addressFromProto upstream)
      (transaction.addressByOutputIndex.map upstream.addressToString) =
        .ok transaction.addressByOutputIndex :=
    Outcome.collect_map_eq_ok fun address _ => by
      simp [addressFromProto, addresses address]
  have inputs : Outcome.collect walletAddressFromProto
      (transaction.addressByInputIndex.map walletAddressToProto) =
        .ok transaction.addressByInputIndex :=
    Outcome.collect_map_eq_ok fun address _ => walletAddress_roundTrip address
  have paths : (transaction.derivationPaths.map derivationPathToProto).map
      derivationPathFromProto = transaction.derivationPaths := by
    simp [derivationPathFromProto, derivationPathToProto, Function.comp_def]
  simp only [walletSignableTransactionFromProto,
    walletSignableTransactionToProto, Option.getD_some,
    signedTransaction_roundTrip signable, Outcome.ok_bind, outputs, inputs,
    paths, distinctOn_eq_self distinctTexts, Outcome.pure_eq_ok]

/-- A wallet transaction survives the round trip through its message. -/
theorem walletSignableTransaction_roundTrip
    (addresses : upstream.AddressesRoundTrip)
    (pathTexts : upstream.DistinctPathTexts)
    {transaction : WalletSignableTransaction}
    (encodable : Encodable transaction) :
    walletSignableTransactionFromProto upstream
        (walletSignableTransactionToProto upstream transaction) =
      .ok transaction :=
  walletSignableTransaction_decode addresses encodable.signable
    (encodable.distinctPaths.map pathTexts)

end RoundTrip

section Sample

/-- A signed transaction of a non-native subnetwork. -/
def budgetedPayment : WalletSignableTransaction where
  transaction := .fully
    { tx :=
        { version := 1
          inputs := [⟨⟨FixedBytes.zero 32, 3⟩, [0x41, 7], 0,
            .computeBudget 10⟩]
          outputs := [.new 900 ⟨0, [0x20, 0xac]⟩]
          lockTime := 0
          subnetworkId := ⟨List.replicate 20 7, rfl⟩
          gas := 0
          payload := [0x94, 1, 0, 0, 0, 1]
          storageMass := 0 }
      entries := [some ⟨1000, ⟨0, [0x20, 0xac]⟩, 10, false, none⟩]
      calculatedFee := none
      calculatedNonContextualMasses := some ⟨2000, 800⟩ }
  derivationPaths := [⟨[0, 1]⟩, ⟨[1, 1]⟩]
  addressByInputIndex := [⟨1, 0, .external⟩]
  addressByOutputIndex := [⟨.devnet, .pubKey, List.replicate 32 5, rfl⟩]

theorem budgetedPayment_encodable : Encodable budgetedPayment where
  signable :=
    { tx :=
        { commits := by
            intro input member
            obtain rfl := List.mem_singleton.mp member
            rfl
          unbound := by
            intro output member
            obtain rfl := List.mem_singleton.mp member
            rfl }
      aligned := rfl
      present := ⟨[⟨1000, ⟨0, [0x20, 0xac]⟩, 10, false, none⟩], rfl,
        by simp⟩ }
  distinctPaths := by decide

theorem budgetedPayment_roundTrip :
    walletSignableTransactionFromProto devnet
        (walletSignableTransactionToProto devnet budgetedPayment) =
      .ok budgetedPayment :=
  walletSignableTransaction_roundTrip addressesRoundTrip_devnet
    distinctPathTexts_devnet budgetedPayment_encodable

end Sample

end Kaswallet
