import Igra.RpcProvider.WalletCaller

/-!
# Raw transactions

The path of `eth_sendRawTransaction`: a request is decoded and validated, its
hash is returned, and its bytes are put into a payload that the background
worker sends through the wallet.
-/

open Kaspa Rust Kaswallet

namespace RpcProvider

inductive TransactionError where
  | eip1559ValidationFailed (maxFee priorityFee baseFee : String)
  | queueFull (capacity : Nat)
  | internalError (reason : String)
  | invalidTransactionFormat (reason : String)
  | insufficientGasFee (required provided : String)
deriving DecidableEq

/-- The errors of the accept path. -/
inductive AcceptError where
  | app (error : AppError)
  | transaction (error : TransactionError)
  /-- `GasError::BaseFetchFailed` -/
  | baseFetchFailed (reason : String)
deriving DecidableEq

abbrev AcceptResult := Outcome AcceptError

section Decoding

/-- `extract_raw_transaction`, from `params[0]` if it is a string. -/
def extractRawTransaction (param : Option String) : AcceptResult String :=
  let rawTx := param.getD ""
  if ['0', 'x'].isPrefixOf rawTx.toList then .ok rawTx
  else Outcome.err (.app .invalidTransactionFormat)

/-- `decode_hex_transaction`.  An odd number of digits is padded on the
left. -/
def decodeHexTransaction (rawTx : String) : AcceptResult (List UInt8) :=
  let digits := rawTx.toList.drop 2
  let hexStr :=
    if rawTx.utf8ByteSize % 2 ≠ 0 then String.ofList ('0' :: digits)
    else String.ofList digits
  decodeHex (fun _ => .app .invalidTransactionFormat) hexStr

theorem extractRawTransaction_encode (bytes : List UInt8) :
    extractRawTransaction (some ("0x" ++ Hex.encode bytes)) =
      .ok ("0x" ++ Hex.encode bytes) := by
  simp [extractRawTransaction]

/-- A client's encoding of a transaction is decoded to its bytes. -/
theorem decodeHexTransaction_encode (bytes : List UInt8) :
    decodeHexTransaction ("0x" ++ Hex.encode bytes) = .ok bytes := by
  have even : ¬("0x" ++ Hex.encode bytes).utf8ByteSize % 2 ≠ 0 := by
    have marker : "0x".utf8ByteSize = 2 := rfl
    rw [String.utf8ByteSize_append, Hex.utf8ByteSize_encode, marker]
    omega
  rw [decodeHexTransaction, if_neg even]
  simp [decodeHex]

end Decoding

section Parsing

/-- `TxEnvelope`, with the fees that are read from it. -/
inductive TxEnvelope where
  | legacy (gasPrice : Nat)
  | eip2930 (gasPrice : Nat)
  | eip1559 (maxFeePerGas maxPriorityFeePerGas : Nat)
  | eip4844
  | eip7702 (maxFeePerGas maxPriorityFeePerGas : Nat)
deriving DecidableEq

/-- `TxEnvelope::decode`: the transaction at the front and what is left. -/
abbrev EnvelopeDecoder :=
  List UInt8 → Except String (TxEnvelope × List UInt8)

namespace TxTypes

def legacy : UInt8 := 0

def eip2930 : UInt8 := 1

def eip1559 : UInt8 := 2

def blob : UInt8 := 3

def eip7702 : UInt8 := 4

end TxTypes

/-- `MAX_TRANSACTION_SIZE`. -/
def maxTransactionSize : Nat := 128 * 1024

def detectTransactionType (data : List UInt8) : AppResult UInt8 :=
  match data with
  | [] => Outcome.err (.internal "Empty transaction data")
  | firstByte :: _ =>
      if firstByte < 0x80 then .ok firstByte else .ok TxTypes.legacy

/-- `parse_rlp_transaction`.  What is left after the transaction is not looked
at. -/
def parseRlpTransaction (decodeEnvelope : EnvelopeDecoder)
    (data : List UInt8) : AppResult (TxEnvelope × UInt8) :=
  if maxTransactionSize < data.length then
    Outcome.err (.internal
      (s!"Transaction too large: {data.length} bytes " ++
        s!"(max: {maxTransactionSize} bytes)"))
  else do
    let txType ← detectTransactionType data
    if txType = TxTypes.blob ∨ TxTypes.eip7702 < txType then
      Outcome.err (.internal s!"Unsupported transaction type: {txType}")
    else
      match decodeEnvelope data with
      | .ok (tx, _) => pure (tx, txType)
      | .error reason =>
          Outcome.err (.internal
            s!"Failed to decode transaction (type {txType}): {reason}")

/-- The `Display` text of the errors of the provider. -/
def AppError.toString : AppError → String
  | .invalidTransactionFormat => "Invalid L2 transaction format"
  | .serializationError reason => "Payload serialization error: " ++ reason
  | .miningTimeout timeoutSeconds =>
      s!"Mining timeout after {timeoutSeconds} seconds"
  | .nonceExhaustion noncesTried =>
      s!"Mining nonce exhaustion after trying {noncesTried} nonces"
  | .miningInvalidState reason =>
      "Mining invalid transaction state: " ++ reason
  | .internal reason => "Internal error: " ++ reason
  | .retryExhausted attempts reason =>
      s!"Retry exhausted after {attempts} attempts: " ++ reason
  | .laneEnforcementFailed reason =>
      "KIP-21 lane enforcement failed: " ++ reason

/-- `parse_transaction_with_context`. -/
def parseTransactionWithContext (decodeEnvelope : EnvelopeDecoder)
    (data : List UInt8) : Outcome TransactionError (TxEnvelope × UInt8) :=
  Outcome.mapErr (fun error => .invalidTransactionFormat error.toString)
    (parseRlpTransaction decodeEnvelope data)

end Parsing

section Fees

def getTransactionTypeName (txType : UInt8) : String :=
  if txType = TxTypes.legacy then "Legacy"
  else if txType = TxTypes.eip2930 then "EIP-2930"
  else if txType = TxTypes.eip1559 then "EIP-1559"
  else if txType = TxTypes.blob then "EIP-4844 (Blob)"
  else if txType = TxTypes.eip7702 then "EIP-7702"
  else "Unknown"

def requireGasPrice (gasPrice minProtocolFee : Nat) :
    Outcome TransactionError Unit :=
  if gasPrice < minProtocolFee then
    Outcome.err (.insufficientGasFee (Nat.repr minProtocolFee)
      (Nat.repr gasPrice))
  else .ok ()

def validateLegacyOrEip2930 (tx : TxEnvelope) (minProtocolFee : Nat)
    (txType : UInt8) : Outcome TransactionError Unit :=
  match tx with
  | .legacy gasPrice => requireGasPrice gasPrice minProtocolFee
  | .eip2930 gasPrice => requireGasPrice gasPrice minProtocolFee
  | _ =>
      Outcome.err (.invalidTransactionFormat
        (getTransactionTypeName txType ++
          " transaction has unexpected envelope type"))

def requireDynamicFees (maxFeePerGas maxPriorityFeePerGas
    minProtocolFee : Nat) : Outcome TransactionError Unit :=
  if maxFeePerGas < maxPriorityFeePerGas then
    Outcome.err (.eip1559ValidationFailed (Nat.repr maxFeePerGas)
      (Nat.repr maxPriorityFeePerGas) (Nat.repr minProtocolFee))
  else do
    requireGasPrice maxFeePerGas minProtocolFee
    requireGasPrice maxPriorityFeePerGas minProtocolFee

def validateEip1559 (tx : TxEnvelope) (minProtocolFee : Nat) :
    Outcome TransactionError Unit :=
  match tx with
  | .eip1559 maxFeePerGas maxPriorityFeePerGas =>
      requireDynamicFees maxFeePerGas maxPriorityFeePerGas minProtocolFee
  | .eip7702 maxFeePerGas maxPriorityFeePerGas =>
      requireDynamicFees maxFeePerGas maxPriorityFeePerGas minProtocolFee
  | _ =>
      Outcome.err (.invalidTransactionFormat
        ("transaction has unexpected envelope type (expected EIP-1559 or " ++
          "EIP-7702)"))

/-- `validate_gas_fee_with_type`. -/
def validateGasFeeWithType (tx : TxEnvelope) (minProtocolFee : Nat)
    (txType : UInt8) : Outcome TransactionError Unit :=
  if txType = TxTypes.legacy ∨ txType = TxTypes.eip2930 then
    validateLegacyOrEip2930 tx minProtocolFee txType
  else if txType = TxTypes.eip1559 ∨ txType = TxTypes.eip7702 then
    validateEip1559 tx minProtocolFee
  else
    Outcome.err (.invalidTransactionFormat
      (s!"Unsupported transaction type: {txType} (" ++
        getTransactionTypeName txType ++ ")"))

/-- `validate_comprehensive_transaction`. -/
def validateComprehensiveTransaction (decodeEnvelope : EnvelopeDecoder)
    (baseFee : Option Nat) (data : List UInt8) :
    Outcome TransactionError Unit := do
  let (transaction, txType) ← parseTransactionWithContext decodeEnvelope data
  match baseFee with
  | none => pure ()
  | some baseFee => validateGasFeeWithType transaction baseFee txType

/-- `validate_accept_request`.  The format is checked before the base fee is
fetched. -/
def validateAcceptRequest (decodeEnvelope : EnvelopeDecoder)
    (effectiveBaseFee : Except String Nat) (param : Option String) :
    AcceptResult (List UInt8) := do
  let rawTx ← extractRawTransaction param
  let txBytes ← decodeHexTransaction rawTx
  Outcome.mapErr .transaction
    (validateComprehensiveTransaction decodeEnvelope none txBytes)
  match effectiveBaseFee with
  | .error reason => Outcome.err (.baseFetchFailed reason)
  | .ok baseFee =>
      Outcome.mapErr .transaction
        (validateComprehensiveTransaction decodeEnvelope (some baseFee)
          txBytes)
      pure txBytes

end Fees

section Payload

inductive TxTypeId where
  | l2Start
  | entry
  | unzippedPayload
  | zippedPayload
deriving DecidableEq

/-- `tx_type_id as u8`. -/
def TxTypeId.toUInt8 : TxTypeId → UInt8
  | .l2Start => 0x00
  | .entry => 0x02
  | .unzippedPayload => 0x04
  | .zippedPayload => 0x05

structure IgraPayload where
  version : UInt8
  txTypeId : TxTypeId
  l2Data : List UInt8
  nonce : FixedBytes 4
deriving DecidableEq

/-- `VERSION`. -/
def payloadVersion : UInt8 := 0x9

def serializePayload (payload : IgraPayload) : AppResult (List UInt8) :=
  if payload.l2Data.isEmpty then
    Outcome.err (.serializationError "l2_data cannot be empty")
  else if 0x0F < payload.version then
    Outcome.err (.serializationError
      ("Version must be a 4-bit value, but got 0x" ++
        Hex.encode [payload.version]))
  else
    .ok ((payload.version <<< 4 ||| payload.txTypeId.toUInt8) ::
      (payload.l2Data ++ payload.nonce.bytes))

/-- The compressor at the level in use, and its decompressor. -/
structure Zlib where
  compress : List UInt8 → Except String (List UInt8)
  decompress : List UInt8 → Option (List UInt8)

/-- Decompressing undoes compressing. -/
def Zlib.Inverts (zlib : Zlib) : Prop :=
  ∀ data compressed, zlib.compress data = .ok compressed →
    zlib.decompress compressed = some data

/-- The compressed bytes if that saves space. -/
def l2DataOf (zlib : Zlib) (txBytes : List UInt8) :
    List UInt8 × TxTypeId :=
  match zlib.compress txBytes with
  | .ok compressed =>
      if compressed.length < txBytes.length then
        (compressed, .zippedPayload)
      else (txBytes, .unzippedPayload)
  | .error _ => (txBytes, .unzippedPayload)

/-- The payload of a raw transaction, with a nonce that mining replaces. -/
def igraPayload (zlib : Zlib) (txBytes : List UInt8) : IgraPayload where
  version := payloadVersion
  txTypeId := (l2DataOf zlib txBytes).2
  l2Data := (l2DataOf zlib txBytes).1
  nonce := ⟨[0, 0, 0, 1], rfl⟩

end Payload

section Processing

/-- What the background worker works with, besides the wallet's replies. -/
structure Provider where
  zlib : Zlib
  keccak256 : List UInt8 → FixedBytes 32
  decodeEnvelope : EnvelopeDecoder
  caller : WalletCaller
  miner : MiningConfig
  maxAttempts : UInt32

/-- The errors of `process_wallet_call`, before they become a text. -/
inductive WalletCallError where
  | serialization (error : AppError)
  | wallet (error : WalletCallerError)
deriving DecidableEq

/-- How a wallet call ends, and the calls to the daemon it made. -/
structure WalletCall where
  result : Outcome WalletCallError String
  calls : List DaemonCall

variable (upstream : Upstream) (provider : Provider)

/-- `compute_transaction_hash`, as text. -/
def transactionHash (txBytes : List UInt8) : String :=
  "0x" ++ Hex.encode (provider.keccak256 txBytes).bytes

def processWalletCall (daemon : WalletDaemon) (task : MiningTask)
    (txBytes : List UInt8) : WalletCall :=
  match serializePayload (igraPayload provider.zlib txBytes) with
  | .error fault => ⟨Outcome.mapErr .serialization (.error fault), []⟩
  | .ok payload =>
      let flow := mineAndSendTransactionWithRetry upstream provider.caller
        daemon provider.miner task
        (.sendAll provider.caller.toAddress payload
          (some (transactionHash provider txBytes))) provider.maxAttempts
      ⟨(fun _ => transactionHash provider txBytes) <$>
        Outcome.mapErr .wallet flow.result, flow.calls⟩

/-- What `try_send` on the transaction queue answers. -/
inductive QueueReply where
  | accepted
  | full
  | closed

/-- `TRANSACTION_QUEUE_CAPACITY`. -/
def transactionQueueCapacity : Nat := 1024

/-- The response to a request, and the calls that the worker makes for it. -/
structure SentTransaction where
  response : AcceptResult String
  calls : List DaemonCall

/-- `process_transaction`, and what the worker then does with the bytes. -/
def sendRawTransaction (effectiveBaseFee : Except String Nat)
    (queue : QueueReply) (daemon : WalletDaemon) (task : MiningTask)
    (param : Option String) : SentTransaction :=
  match validateAcceptRequest provider.decodeEnvelope effectiveBaseFee
      param with
  | .error fault => ⟨.error fault, []⟩
  | .ok txBytes =>
      match queue with
      | .accepted =>
          ⟨.ok (transactionHash provider txBytes),
            (processWalletCall upstream provider daemon task txBytes).calls⟩
      | .full =>
          ⟨Outcome.err (.transaction (.queueFull transactionQueueCapacity)),
            []⟩
      | .closed =>
          ⟨Outcome.err (.transaction (.internalError
            "Transaction processor channel closed")), []⟩

end Processing

section Reading

/-- The type with the number of a nibble. -/
def TxTypeId.ofUInt8? (nibble : UInt8) : Option TxTypeId :=
  [.l2Start, .entry, .unzippedPayload, .zippedPayload].find? fun txTypeId =>
    txTypeId.toUInt8 = nibble

/-- A payload read from its bytes: two nibbles, the body, and the nonce in the
last four bytes. -/
def readPayload : List UInt8 → Option IgraPayload
  | [] => none
  | header :: rest => do
      let txTypeId ← TxTypeId.ofUInt8? (header &&& 0x0F)
      let nonce ← FixedBytes.ofList? 4 (rest.drop (rest.length - 4))
      pure ⟨header >>> 4, txTypeId, rest.take (rest.length - 4), nonce⟩

/-- The raw transaction that a payload carries. -/
def rawTransactionOf (zlib : Zlib) (payload : IgraPayload) :
    Option (List UInt8) :=
  match payload.txTypeId with
  | .unzippedPayload => some payload.l2Data
  | .zippedPayload => zlib.decompress payload.l2Data
  | _ => none

private theorem header_nibbles {version : UInt8} (small : version ≤ 0x0F)
    (txTypeId : TxTypeId) :
    (version <<< 4 ||| txTypeId.toUInt8) >>> 4 = version ∧
      TxTypeId.ofUInt8? ((version <<< 4 ||| txTypeId.toUInt8) &&& 0x0F) =
        some txTypeId := by
  have nibble : ∀ value : Fin 16, ∀ txTypeId : TxTypeId,
      (UInt8.ofNat value.val <<< 4 ||| txTypeId.toUInt8) >>> 4 =
          UInt8.ofNat value.val ∧
        TxTypeId.ofUInt8?
            ((UInt8.ofNat value.val <<< 4 ||| txTypeId.toUInt8) &&& 0x0F) =
          some txTypeId := by
    intro value txTypeId
    cases txTypeId <;> revert value <;> decide
  have bound : version.toNat < 16 :=
    Nat.lt_succ_of_le (UInt8.le_iff_toNat_le.mp small)
  have found := nibble ⟨version.toNat, bound⟩ txTypeId
  rwa [UInt8.ofNat_toNat] at found

theorem serializePayload_eq_ok {payload : IgraPayload}
    {bytes : List UInt8} :
    serializePayload payload = .ok bytes ↔
      payload.l2Data ≠ [] ∧ payload.version ≤ 0x0F ∧
        bytes = (payload.version <<< 4 ||| payload.txTypeId.toUInt8) ::
          (payload.l2Data ++ payload.nonce.bytes) := by
  have filled : ¬payload.l2Data.isEmpty ↔ payload.l2Data ≠ [] := by
    rw [List.isEmpty_iff]
  simp only [serializePayload, Outcome.err, Outcome.guarded_eq_ok, filled,
    UInt8.not_lt, Except.ok.injEq]
  exact and_congr_right fun _ => and_congr_right fun _ => eq_comm

/-- A payload is read back from its bytes. -/
theorem readPayload_serializePayload {payload : IgraPayload}
    {bytes : List UInt8} (serialized : serializePayload payload = .ok bytes) :
    readPayload bytes = some payload := by
  obtain ⟨-, small, rfl⟩ := serializePayload_eq_ok.mp serialized
  obtain ⟨version, txTypeId⟩ := header_nibbles small payload.txTypeId
  have length : (payload.l2Data ++ payload.nonce.bytes).length - 4 =
      payload.l2Data.length := by
    rw [List.length_append, payload.nonce.size, Nat.add_sub_cancel]
  simp only [readPayload, length, List.take_left, List.drop_left, version,
    txTypeId, FixedBytes.ofList?_bytes]
  rfl

/-- The raw transaction is read back from the payload that was made of it. -/
theorem rawTransactionOf_igraPayload {zlib : Zlib} (inverts : zlib.Inverts)
    (txBytes : List UInt8) :
    rawTransactionOf zlib (igraPayload zlib txBytes) = some txBytes := by
  unfold rawTransactionOf igraPayload l2DataOf
  cases compression : zlib.compress txBytes with
  | error reason => rfl
  | ok compressed =>
      by_cases saves : compressed.length < txBytes.length
      · simp only [saves, if_true]
        exact inverts txBytes compressed compression
      · simp only [saves, if_false]

end Reading

end RpcProvider
