import Igra.Json
import Igra.RpcProvider.AcceptedTransactions

/-!
# Routing

A JSON-RPC request, from the router to its response.  A raw transaction is
answered on the accept path; every other method goes to the execution layer.
-/

open Kaspa Rust Kaswallet

namespace RpcProvider

structure RpcRequest where
  jsonrpc : String
  method : String
  params : Json
  id : Json

section Errors

def jsonRpcVersion : Json := .string "2.0"

def codeJson (code : Int64) : Json :=
  .number (.negative code)

/-- The error response of `AppError::to_json_rpc_error` and
`json_rpc_error`. -/
def jsonRpcError (id : Json) (code : Int64) (message : String) : Json :=
  .object [("jsonrpc", jsonRpcVersion),
    ("error", .object [("code", codeJson code),
      ("message", .string message)]),
    ("id", id)]

/-- What a domain error tells a client besides its text. -/
structure ErrorData where
  code : Int64
  errorCode : String
  retryable : Bool
  validationError : Bool

/-- The error response of `ToJsonRpcError`. -/
def domainErrorJson (data : ErrorData) (message : String) (id : Json) :
    Json :=
  .object [("jsonrpc", jsonRpcVersion),
    ("error", .object [("code", codeJson data.code),
      ("message", .string message),
      ("data", .object [("error_code", .string data.errorCode),
        ("retryable", .bool data.retryable),
        ("validation_error", .bool data.validationError)])]),
    ("id", id)]

/-- The code and the text of an error that leaves the accept path as an
`AppError`. -/
def invalidTransactionFormatJson (id : Json) : Json :=
  jsonRpcError id (-32001) "Invalid L2 transaction format"

namespace TransactionError

/-- The `Display` text. -/
def toString : TransactionError → String
  | .eip1559ValidationFailed maxFee priorityFee baseFee =>
      "EIP-1559 fee validation failed: max_fee=" ++ maxFee ++
        ", priority_fee=" ++ priorityFee ++ ", base_fee=" ++ baseFee
  | .queueFull capacity =>
      "Transaction queue is full, capacity=" ++ Nat.repr capacity
  | .internalError reason =>
      "Internal transaction processing error: " ++ reason
  | .invalidTransactionFormat reason =>
      "Invalid transaction format: " ++ reason
  | .insufficientGasFee required provided =>
      "Insufficient gas fee: required " ++ required ++ " wei, provided " ++
        provided ++ " wei"

def data : TransactionError → ErrorData
  | .eip1559ValidationFailed _ _ _ =>
      ⟨-32602, "EIP1559_VALIDATION_FAILED", false, true⟩
  | .queueFull _ => ⟨-32000, "QUEUE_FULL", true, false⟩
  | .internalError _ => ⟨-32603, "INTERNAL_ERROR", true, false⟩
  | .invalidTransactionFormat _ =>
      ⟨-32602, "INVALID_TRANSACTION_FORMAT", false, true⟩
  | .insufficientGasFee _ _ => ⟨-32602, "INSUFFICIENT_GAS_FEE", false, true⟩

def toJsonRpcError (error : TransactionError) (id : Json) : Json :=
  domainErrorJson error.data error.toString id

end TransactionError

/-- `GasError::BaseFetchFailed` as a response. -/
def baseFetchFailedJson (reason : String) (id : Json) : Json :=
  domainErrorJson ⟨-32000, "BASE_FETCH_FAILED", true, false⟩
    ("Failed to fetch base fee from EL client: " ++ reason) id

@[simp] theorem get?_id_jsonRpcError (id : Json) (code : Int64)
    (message : String) : (jsonRpcError id code message).get? "id" = some id :=
  rfl

@[simp] theorem get?_id_domainErrorJson (data : ErrorData) (message : String)
    (id : Json) : (domainErrorJson data message id).get? "id" = some id :=
  rfl

end Errors

section AcceptPath

variable (provider : Provider) (floatText : UInt64 → String)

/-- `params[0].as_str()`. -/
def firstParam : Json → Option String
  | .array (.string text :: _) => some text
  | _ => none

/-- `extract_transaction_id`, a text for the log. -/
def extractTransactionId (request : RpcRequest) : String :=
  match request.id with
  | .null => "null"
  | id => id.render floatText

/-- `validate_transaction_request`; an error is the response. -/
def validateTransactionRequest (request : RpcRequest)
    (effectiveBaseFee : Option Nat) : Outcome Json (List UInt8) := do
  let transactionId := extractTransactionId floatText request
  let rawTx ← Outcome.mapErr
    (fun _ => invalidTransactionFormatJson request.id)
    (extractRawTransaction (firstParam request.params))
  -- here the id is the text that was meant for the log
  let txBytes ← Outcome.mapErr
    (fun _ => invalidTransactionFormatJson (.string transactionId))
    (decodeHexTransaction rawTx)
  Outcome.mapErr (fun error => error.toJsonRpcError request.id)
    (validateComprehensiveTransaction provider.decodeEnvelope
      effectiveBaseFee txBytes)
  pure txBytes

/-- `validate_accept_request`, as the handler calls it. -/
def acceptRequest (request : RpcRequest) (idValue : Json)
    (effectiveBaseFee : Except String Nat) : Outcome Json (List UInt8) := do
  let txBytes ← validateTransactionRequest provider floatText request none
  match effectiveBaseFee with
  | .error reason => Outcome.err (baseFetchFailedJson reason idValue)
  | .ok baseFee =>
      Outcome.mapErr (fun error => error.toJsonRpcError idValue)
        (validateComprehensiveTransaction provider.decodeEnvelope
          (some baseFee) txBytes)
      pure txBytes

/-- What a request meets when it is handled. -/
structure RequestSurroundings where
  effectiveBaseFee : Except String Nat
  queue : QueueReply
  /-- `Uuid::new_v4` -/
  uuid : String
  /-- the response of the execution layer -/
  forwardToEl : RpcRequest → Json

def resultJson (hash : String) (id : Json) : Json :=
  .object [("jsonrpc", jsonRpcVersion), ("result", .string hash), ("id", id)]

/-- An error that is a response is returned as one. -/
def orRespond : Outcome Json Json → Outcome Empty Json
  | .ok response => .ok response
  | .error (.error response) => .ok response
  | .error .panic => Outcome.panic
  | .error .unfinished => Outcome.unfinished

/-- `id_value`: a null id is replaced. -/
def idValue (surroundings : RequestSurroundings) (request : RpcRequest) :
    Json :=
  match request.id with
  | .null => .string surroundings.uuid
  | id => id

/-- `process_transaction`. -/
def processTransaction (surroundings : RequestSurroundings)
    (request : RpcRequest) : Outcome Empty Json :=
  let id := idValue surroundings request
  orRespond do
    let txBytes ← acceptRequest provider floatText request id
      surroundings.effectiveBaseFee
    pure (match surroundings.queue with
      | .accepted => resultJson (transactionHash provider txBytes) id
      | .full =>
          (TransactionError.queueFull transactionQueueCapacity).toJsonRpcError
            id
      | .closed =>
          (TransactionError.internalError
            "Transaction processor channel closed").toJsonRpcError id)

end AcceptPath

section Router

structure SecurityConfig where
  enableWhitelist : Bool
  readOnly : Bool

/-- `ALLOWED_METHODS`. -/
def allowedMethods : List String :=
  ["eth_accounts", "eth_blockNumber", "eth_call", "eth_chainId",
    "eth_coinbase", "eth_estimateGas", "eth_feeHistory", "eth_gasPrice",
    "eth_getBalance", "eth_getBlockByHash", "eth_getBlockByNumber",
    "eth_getBlockTransactionCountByHash",
    "eth_getBlockTransactionCountByNumber", "eth_getCode",
    "eth_getFilterChanges", "eth_getFilterLogs", "eth_getLogs",
    "eth_getProof", "eth_getStorageAt",
    "eth_getTransactionByBlockHashAndIndex",
    "eth_getTransactionByBlockNumberAndIndex", "eth_getTransactionByHash",
    "eth_getRawTransactionByHash", "eth_getTransactionCount",
    "eth_getTransactionReceipt", "eth_getBlockReceipts",
    "eth_getUncleByBlockHashAndIndex", "eth_getUncleByBlockNumberAndIndex",
    "eth_getUncleCountByBlockHash", "eth_getUncleCountByBlockNumber",
    "eth_hashrate", "eth_maxPriorityFeePerGas", "eth_mining",
    "eth_newBlockFilter", "eth_newFilter", "eth_newPendingTransactionFilter",
    "eth_protocolVersion", "eth_sendRawTransaction", "eth_subscribe",
    "eth_syncing", "eth_uninstallFilter", "eth_unsubscribe", "net_listening",
    "net_peerCount", "net_version", "web3_clientVersion", "web3_sha3",
    "debug_traceTransaction", "debug_traceCall"]

def isMethodAllowed (method : String) : Bool :=
  allowedMethods.contains method

def isWriteMethod (method : String) : Bool :=
  method = "eth_sendRawTransaction" || method = "eth_sendTransaction" ||
    "personal_".toList.isPrefixOf method.toList ||
    "admin_".toList.isPrefixOf method.toList

/-- `validate_request_authorization`. -/
def validateRequestAuthorization (config : SecurityConfig)
    (request : RpcRequest) : Option Json :=
  if config.enableWhitelist && !isMethodAllowed request.method then
    some (jsonRpcError request.id (-32002)
      ("RPC method not allowed: " ++ request.method))
  else if config.readOnly && isWriteMethod request.method then
    some (jsonRpcError request.id (-32000) "Read-only mode is enabled")
  else none

/-- `route_and_process`. -/
def routeAndProcess (config : SecurityConfig) (provider : Provider)
    (floatText : UInt64 → String) (surroundings : RequestSurroundings)
    (request : RpcRequest) : Outcome Empty Json :=
  match validateRequestAuthorization config request with
  | some response => .ok response
  | none =>
      if request.method = "eth_sendRawTransaction" then
        processTransaction provider floatText surroundings request
      else .ok (surroundings.forwardToEl request)

end Router

section Settling

/-- The path returns a value, or an error of the kind. -/
def FailsWith {ε α : Type} (kind : ε → Prop) (outcome : Outcome ε α) :
    Prop :=
  (∃ value, outcome = .ok value) ∨ ∃ error, outcome = Outcome.err error ∧
    kind error

variable {ε δ α β : Type} {kind : ε → Prop}

theorem FailsWith.bind {first : Outcome ε α} {next : α → Outcome ε β}
    (fails : FailsWith kind first)
    (continued : ∀ value, first = .ok value → FailsWith kind (next value)) :
    FailsWith kind (first >>= next) := by
  rcases fails with ⟨value, rfl⟩ | ⟨error, rfl, isKind⟩
  · exact continued value rfl
  · exact .inr ⟨error, rfl, isKind⟩

theorem FailsWith.mapErr {wrap : δ → ε} {outcome : Outcome δ α}
    (settled : outcome.Settled) (isKind : ∀ error, kind (wrap error)) :
    FailsWith kind (Outcome.mapErr wrap outcome) := by
  rcases settled with ⟨value, rfl⟩ | ⟨error, rfl⟩
  · exact .inl ⟨value, rfl⟩
  · exact .inr ⟨wrap error, rfl, isKind error⟩

theorem extractRawTransaction_settled (param : Option String) :
    (extractRawTransaction param).Settled := by
  rw [extractRawTransaction]
  split
  · exact Outcome.settled_ok _
  · exact Outcome.settled_err _

theorem decodeHexTransaction_settled (rawTx : String) :
    (decodeHexTransaction rawTx).Settled := by
  rw [decodeHexTransaction, decodeHex]
  split
  · exact Outcome.settled_ok _
  · exact Outcome.settled_err _

theorem parseRlpTransaction_settled (decodeEnvelope : EnvelopeDecoder)
    (data : List UInt8) :
    (parseRlpTransaction decodeEnvelope data).Settled := by
  rw [parseRlpTransaction]
  split
  · exact Outcome.settled_err _
  · apply Outcome.Settled.bind
    · rw [detectTransactionType.eq_def]
      split
      · exact Outcome.settled_err _
      · split
        · exact Outcome.settled_ok _
        · exact Outcome.settled_ok _
    · intro txType _
      split
      · exact Outcome.settled_err _
      · split
        · exact Outcome.settled_ok _
        · exact Outcome.settled_err _

theorem requireGasPrice_settled (gasPrice minProtocolFee : Nat) :
    (requireGasPrice gasPrice minProtocolFee).Settled := by
  rw [requireGasPrice]
  split
  · exact Outcome.settled_err _
  · exact Outcome.settled_ok _

private theorem requireDynamicFees_settled
    (maxFeePerGas maxPriorityFeePerGas minProtocolFee : Nat) :
    (requireDynamicFees maxFeePerGas maxPriorityFeePerGas
      minProtocolFee).Settled := by
  rw [requireDynamicFees]
  split
  · exact Outcome.settled_err _
  · exact (requireGasPrice_settled _ _).bind
      fun _ _ => requireGasPrice_settled _ _

theorem validateGasFeeWithType_settled (tx : TxEnvelope)
    (minProtocolFee : Nat) (txType : UInt8) :
    (validateGasFeeWithType tx minProtocolFee txType).Settled := by
  rw [validateGasFeeWithType]
  split
  · cases tx with
    | legacy gasPrice => exact requireGasPrice_settled _ _
    | eip2930 gasPrice => exact requireGasPrice_settled _ _
    | eip1559 _ _ => exact Outcome.settled_err _
    | eip4844 => exact Outcome.settled_err _
    | eip7702 _ _ => exact Outcome.settled_err _
  · split
    · cases tx with
      | legacy gasPrice => exact Outcome.settled_err _
      | eip2930 gasPrice => exact Outcome.settled_err _
      | eip1559 _ _ => exact requireDynamicFees_settled _ _ _
      | eip4844 => exact Outcome.settled_err _
      | eip7702 _ _ => exact requireDynamicFees_settled _ _ _
    · exact Outcome.settled_err _

theorem validateComprehensiveTransaction_settled
    (decodeEnvelope : EnvelopeDecoder) (baseFee : Option Nat)
    (data : List UInt8) :
    (validateComprehensiveTransaction decodeEnvelope baseFee
      data).Settled := by
  rw [validateComprehensiveTransaction]
  apply Outcome.Settled.bind (parseRlpTransaction_settled _ _).mapErr
  intro parsed _
  cases baseFee with
  | none => exact Outcome.settled_ok _
  | some baseFee => exact validateGasFeeWithType_settled _ _ _

private theorem validateTransactionRequest_settled (provider : Provider)
    (floatText : UInt64 → String) (request : RpcRequest)
    (effectiveBaseFee : Option Nat) :
    (validateTransactionRequest provider floatText request
      effectiveBaseFee).Settled := by
  apply Outcome.Settled.bind (extractRawTransaction_settled _).mapErr
  intro rawTx _
  apply Outcome.Settled.bind (decodeHexTransaction_settled _).mapErr
  intro txBytes _
  apply Outcome.Settled.bind
    (validateComprehensiveTransaction_settled _ _ _).mapErr
  intro _ _
  exact Outcome.settled_ok _

private theorem acceptRequest_settled (provider : Provider)
    (floatText : UInt64 → String) (request : RpcRequest) (id : Json)
    (effectiveBaseFee : Except String Nat) :
    (acceptRequest provider floatText request id effectiveBaseFee).Settled := by
  apply Outcome.Settled.bind (validateTransactionRequest_settled _ _ _ _)
  intro txBytes _
  cases effectiveBaseFee with
  | error reason => exact Outcome.settled_err _
  | ok baseFee =>
      apply Outcome.Settled.bind
        (validateComprehensiveTransaction_settled _ _ _).mapErr
      intro _ _
      exact Outcome.settled_ok _

theorem processTransaction_returns (provider : Provider)
    (floatText : UInt64 → String) (surroundings : RequestSurroundings)
    (request : RpcRequest) :
    ∃ response, processTransaction provider floatText surroundings request =
      .ok response := by
  rw [processTransaction]
  rcases acceptRequest_settled provider floatText request
      (idValue surroundings request) surroundings.effectiveBaseFee with
    ⟨txBytes, accepted⟩ | ⟨response, refused⟩
  · rw [accepted]
    exact ⟨_, rfl⟩
  · rw [refused]
    exact ⟨response, rfl⟩

end Settling

section IdEcho

variable {config : SecurityConfig} {provider : Provider}
  {floatText : UInt64 → String} {surroundings : RequestSurroundings}
  {request : RpcRequest}

/-- The response has the id. -/
def HasId (id response : Json) : Prop :=
  response.get? "id" = some id

/-- The first parameter starts like hex digits, but they cannot be
decoded. -/
def UndecodableHex (request : RpcRequest) : Prop :=
  ∃ rawTx, extractRawTransaction (firstParam request.params) = .ok rawTx ∧
    ∀ bytes, decodeHexTransaction rawTx ≠ .ok bytes

theorem toJsonRpcError_hasId (error : TransactionError) (id : Json) :
    HasId id (error.toJsonRpcError id) :=
  get?_id_domainErrorJson _ _ id

theorem idValue_of_ne_null (nonNull : request.id ≠ .null) :
    idValue surroundings request = request.id := by
  unfold idValue
  split
  · rename_i isNull
    exact absurd isNull nonNull
  · rfl

theorem validateTransactionRequest_failsWith (effectiveBaseFee : Option Nat)
    (decodable : ¬UndecodableHex request) :
    FailsWith (HasId request.id) (validateTransactionRequest provider
      floatText request effectiveBaseFee) := by
  apply FailsWith.bind
  · exact .mapErr (extractRawTransaction_settled _) fun _ => rfl
  · intro rawTx extracted
    have bytes : ∃ bytes, decodeHexTransaction rawTx = .ok bytes := by
      by_contra none
      exact decodable ⟨rawTx, Outcome.mapErr_eq_ok.mp extracted,
        not_exists.mp none⟩
    obtain ⟨txBytes, decoded⟩ := bytes
    apply FailsWith.bind
    · exact .inl ⟨txBytes, Outcome.mapErr_eq_ok.mpr decoded⟩
    · intro other _
      apply FailsWith.bind
      · exact .mapErr (validateComprehensiveTransaction_settled _ _ _)
          fun error => toJsonRpcError_hasId error _
      · intro _ _
        exact .inl ⟨other, rfl⟩

theorem acceptRequest_failsWith (effectiveBaseFee : Except String Nat)
    (decodable : ¬UndecodableHex request) :
    FailsWith (HasId request.id) (acceptRequest provider floatText request
      request.id effectiveBaseFee) := by
  apply (validateTransactionRequest_failsWith none decodable).bind
  intro txBytes _
  cases effectiveBaseFee with
  | error reason => exact .inr ⟨_, rfl, get?_id_domainErrorJson _ _ _⟩
  | ok baseFee =>
      apply FailsWith.bind
      · exact .mapErr (validateComprehensiveTransaction_settled _ _ _)
          fun error => toJsonRpcError_hasId error _
      · intro _ _
        exact .inl ⟨txBytes, rfl⟩

theorem acceptRequest_of_undecodable (effectiveBaseFee : Except String Nat)
    (id : Json) (undecodable : UndecodableHex request) :
    acceptRequest provider floatText request id effectiveBaseFee =
      Outcome.err (invalidTransactionFormatJson
        (.string (extractTransactionId floatText request))) := by
  obtain ⟨rawTx, extracted, fails⟩ := undecodable
  obtain ⟨error, failed⟩ :=
    (decodeHexTransaction_settled rawTx).exists_err fails
  have invalid : validateTransactionRequest provider floatText request none =
      Outcome.err (invalidTransactionFormatJson
        (.string (extractTransactionId floatText request))) := by
    simp only [validateTransactionRequest, extracted, Outcome.mapErr,
      Outcome.ok_bind, failed, Outcome.err]
    rfl
  rw [acceptRequest, invalid]
  rfl

private theorem extractTransactionId_of_ne_null (nonNull : request.id ≠ .null) :
    extractTransactionId floatText request = request.id.render floatText := by
  unfold extractTransactionId
  split
  · rename_i isNull
    exact absurd isNull nonNull
  · rfl

/-- A request to send a raw transaction that is not refused gets to the accept
path. -/
theorem routeAndProcess_of_writable
    (method : request.method = "eth_sendRawTransaction")
    (writable : config.readOnly = false) :
    routeAndProcess config provider floatText surroundings request =
      processTransaction provider floatText surroundings request := by
  have allowed : isMethodAllowed "eth_sendRawTransaction" = true := by
    decide
  simp [routeAndProcess, validateRequestAuthorization, method, allowed,
    writable]

private theorem routeAndProcess_of_readOnly
    (method : request.method = "eth_sendRawTransaction")
    (refused : config.readOnly = true) :
    routeAndProcess config provider floatText surroundings request =
      .ok (jsonRpcError request.id (-32000) "Read-only mode is enabled") := by
  have allowed : isMethodAllowed "eth_sendRawTransaction" = true := by
    decide
  have writes : isWriteMethod "eth_sendRawTransaction" = true := by
    decide
  simp [routeAndProcess, validateRequestAuthorization, method, allowed,
    refused, writes]

theorem acceptRequest_eq_ok {effectiveBaseFee : Except String Nat} {id : Json}
    {txBytes : List UInt8} :
    acceptRequest provider floatText request id effectiveBaseFee =
        .ok txBytes ↔
      validateAcceptRequest provider.decodeEnvelope effectiveBaseFee
        (firstParam request.params) = .ok txBytes := by
  simp only [acceptRequest, validateTransactionRequest,
    validateAcceptRequest, Outcome.bind_eq_ok, Outcome.mapErr_eq_ok,
    Outcome.pure_eq_ok]
  constructor
  · rintro ⟨checked, ⟨rawTx, extracted, bytes, decoded, ⟨⟩, formatted, rfl⟩,
      accepted⟩
    refine ⟨rawTx, extracted, bytes, decoded, (), formatted, ?_⟩
    cases effectiveBaseFee with
    | error reason => exact absurd accepted (Outcome.err_ne_ok _ _)
    | ok baseFee =>
        simpa only [Outcome.bind_eq_ok, Outcome.mapErr_eq_ok,
          Outcome.pure_eq_ok] using accepted
  · rintro ⟨rawTx, extracted, bytes, decoded, ⟨⟩, formatted, accepted⟩
    refine ⟨bytes, ⟨rawTx, extracted, bytes, decoded, (), formatted, rfl⟩, ?_⟩
    cases effectiveBaseFee with
    | error reason => exact absurd accepted (Outcome.err_ne_ok _ _)
    | ok baseFee =>
        simpa only [Outcome.bind_eq_ok, Outcome.mapErr_eq_ok,
          Outcome.pure_eq_ok] using accepted

theorem processTransaction_hasId (nonNull : request.id ≠ .null)
    (decodable : ¬UndecodableHex request) :
    ∃ response, processTransaction provider floatText surroundings request =
        .ok response ∧ HasId request.id response := by
  rw [processTransaction, idValue_of_ne_null nonNull]
  rcases @acceptRequest_failsWith provider floatText request
      surroundings.effectiveBaseFee decodable with
    ⟨txBytes, accepted⟩ | ⟨response, refused, sameId⟩
  · rw [accepted]
    cases queue : surroundings.queue with
    | accepted => exact ⟨_, rfl, rfl⟩
    | full => exact ⟨_, rfl, rfl⟩
    | closed => exact ⟨_, rfl, rfl⟩
  · rw [refused]
    exact ⟨response, rfl, sameId⟩

/-- The router answers with the id of the request. -/
def IdEchoed (config : SecurityConfig) (provider : Provider)
    (floatText : UInt64 → String) (surroundings : RequestSurroundings)
    (request : RpcRequest) : Prop :=
  ∃ response, routeAndProcess config provider floatText surroundings request =
      .ok response ∧ HasId request.id response

/-- The id comes back exactly when the digits can be decoded or are never
looked at. -/
theorem idEchoed_iff (nonNull : request.id ≠ .null)
    (method : request.method = "eth_sendRawTransaction") :
    IdEchoed config provider floatText surroundings request ↔
      ¬(config.readOnly = false ∧ UndecodableHex request) := by
  constructor
  · rintro ⟨response, responded, same⟩ ⟨writable, undecodable⟩
    rw [routeAndProcess_of_writable method writable, processTransaction,
      acceptRequest_of_undecodable _ _ undecodable] at responded
    cases responded
    have other := Option.some.inj same
    rw [extractTransactionId_of_ne_null nonNull] at other
    exact Json.string_render_ne floatText request.id other
  · intro condition
    cases readOnly : config.readOnly with
    | true =>
        exact ⟨_, routeAndProcess_of_readOnly method readOnly, rfl⟩
    | false =>
        have decodable : ¬UndecodableHex request :=
          fun undecodable => condition ⟨readOnly, undecodable⟩
        rw [IdEchoed, routeAndProcess_of_writable method readOnly]
        exact processTransaction_hasId nonNull decodable

def openConfig : SecurityConfig := ⟨true, false⟩

def quietSurroundings : RequestSurroundings where
  effectiveBaseFee := .ok 1000000000
  queue := .accepted
  uuid := "00000000-0000-4000-8000-000000000000"
  forwardToEl := fun request => resultJson "0x0" request.id

/-- A request with the id 7. -/
def numberedRequest (rawTx : String) : RpcRequest where
  jsonrpc := "2.0"
  method := "eth_sendRawTransaction"
  params := .array [.string rawTx]
  id := .number (.unsigned 7)

theorem numberedRequest_echoed :
    IdEchoed openConfig legacyProvider (fun _ => "0.0") quietSurroundings
      (numberedRequest ("0x" ++ Hex.encode legacyTx)) := by
  apply (idEchoed_iff (by simp [numberedRequest]) rfl).mpr
  rintro ⟨-, rawTx, extracted, fails⟩
  rw [numberedRequest, firstParam, extractRawTransaction_encode] at extracted
  obtain rfl := Except.ok.inj extracted
  exact fails legacyTx (decodeHexTransaction_encode legacyTx)

/-- Digits that are none turn the number into a text. -/
theorem undecodable_not_echoed :
    ¬IdEchoed openConfig legacyProvider (fun _ => "0.0") quietSurroundings
      (numberedRequest "0xzz") := by
  rintro ⟨response, responded, same⟩
  have undecodable : UndecodableHex (numberedRequest "0xzz") := by
    have invalid : (decodeHexTransaction "0xzz").toOption = none := by
      decide
    refine ⟨"0xzz", rfl, ?_⟩
    intro bytes decoded
    rw [decoded] at invalid
    cases invalid
  rw [routeAndProcess_of_writable rfl rfl, processTransaction,
    acceptRequest_of_undecodable _ _ undecodable] at responded
  cases responded
  cases same

end IdEcho

end RpcProvider
