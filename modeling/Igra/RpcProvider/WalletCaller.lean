import Igra.Kaswallet.UtxoSelection
import Igra.RpcProvider.Mining
import Igra.RpcProvider.WalletCodec

/-!
# The wallet caller

The provider asks the wallet daemon for unsigned transactions, mines the last
one, and has the batch signed and broadcast.  The daemon is a client's view of
it: for every call a reply, a status or no answer in time.
-/

open Kaspa Rust Kaswallet

namespace RpcProvider

/-- How a call with a deadline ends. -/
inductive GrpcReply (α : Type) where
  | response (value : α)
  | status (failure : Proto.Status)
  | timedOut

/-- The replies of the wallet daemon while one payload is sent.  The daemon is
asked for unsigned transactions once per attempt. -/
structure WalletDaemon where
  createUnsignedTransactions : Nat → TransactionDescription →
    GrpcReply (List Proto.WalletSignableTransaction)
  sign : List Proto.WalletSignableTransaction → String →
    GrpcReply (List Proto.WalletSignableTransaction)
  broadcast : List Proto.WalletSignableTransaction → GrpcReply (List String)

inductive WalletCallerError where
  | transactionCreationFailed (status : Proto.Status)
  | transactionSigningFailed (status : Proto.Status)
  | transactionBroadcastFailed (status : Proto.Status)
  | miningFailed (error : AppError)
  | laneEnforcementFailed (error : AppError)
  | noTransactionIds
  | transactionDecodingFailed (reason : String)
  | transactionEncodingFailed (reason : String)
  | grpcTimeout (operation : String) (timeoutSeconds : UInt64)
deriving DecidableEq

abbrev CallerResult := Outcome WalletCallerError

/-- `GRPC_TIMEOUT_SECS`. -/
def grpcTimeoutSecs : UInt64 := 30

/-- A call under `timeout`, with the error that a status turns into. -/
def GrpcReply.toResult {α : Type} (operation : String)
    (wrap : Proto.Status → WalletCallerError) :
    GrpcReply α → CallerResult α
  | .response value => .ok value
  | .status failure => Outcome.err (wrap failure)
  | .timedOut => Outcome.err (.grpcTimeout operation grpcTimeoutSecs)

structure TransactionParams where
  toAddress : String
  amount : UInt64
  isSendAll : Bool
  payload : List UInt8
  l2TransactionHash : Option String

namespace TransactionParams

def sendAll (toAddress : String) (payload : List UInt8)
    (transactionHash : Option String) : TransactionParams where
  toAddress := toAddress
  amount := 0
  isSendAll := true
  payload := payload
  l2TransactionHash := transactionHash

/-- The request of `create_unsigned_transaction`. -/
def description (params : TransactionParams) : TransactionDescription where
  toAddress := params.toAddress
  amount := params.amount
  isSendAll := params.isSendAll
  payload := params.payload
  fromAddresses := []
  utxos := []
  useExistingChangeAddress := true
  feePolicy := none

end TransactionParams

structure WalletCaller where
  toAddress : String
  password : String
  laneEnforcement : Option LaneEnforcement

section Creation

variable (daemon : WalletDaemon)

def createUnsignedTransaction (attempt : Nat) (params : TransactionParams) :
    CallerResult (List Proto.WalletSignableTransaction) :=
  (daemon.createUnsignedTransactions attempt params.description).toResult
    "create_unsigned_transactions" .transactionCreationFailed

def isNoFundsError (status : Proto.Status) : Bool :=
  let messageLower := status.message.toLower
  decide (status.code = .resourceExhausted) ||
    textContains messageLower "no funds" ||
    textContains messageLower "utxo exhausted" ||
    textContains messageLower "insufficient utxo"

def isUtxoExhaustionError : WalletCallerError → Bool
  | .transactionCreationFailed status => isNoFundsError status
  | _ => false

/-- The error when every attempt failed. -/
def attemptsExhausted (maxAttempts : UInt32) :
    Option WalletCallerError → WalletCallerError
  | some (.transactionCreationFailed _) =>
      .miningFailed (.retryExhausted maxAttempts "UTXO exhaustion")
  | some error => error
  | none =>
      .miningFailed (.retryExhausted maxAttempts
        "UTXO exhaustion (no error captured)")

/-- The loop of `create_unsigned_transaction_with_retry`, over the attempts
that are left. -/
def createAttempts (params : TransactionParams) (maxAttempts : UInt32) :
    List Nat → Option WalletCallerError →
      CallerResult (List Proto.WalletSignableTransaction)
  | [], lastError => Outcome.err (attemptsExhausted maxAttempts lastError)
  | attempt :: attempts, _ =>
      match createUnsignedTransaction daemon attempt params with
      | .ok result => .ok result
      | .error (.error error) =>
          if isUtxoExhaustionError error then
            createAttempts params maxAttempts attempts (some error)
          else Outcome.err error
      | .error fault => .error fault

def createUnsignedTransactionWithRetry (params : TransactionParams)
    (maxAttempts : UInt32) :
    CallerResult (List Proto.WalletSignableTransaction) :=
  createAttempts daemon params maxAttempts
    (List.range' 1 maxAttempts.toNat) none

end Creation

/-- The calls that act on the funds of the wallet. -/
inductive DaemonCall where
  | sign (unsignedTransactions : List Proto.WalletSignableTransaction)
  | broadcast (transactions : List Proto.WalletSignableTransaction)
deriving DecidableEq

/-- How a flow ends, and the calls it made in order. -/
structure Flow where
  result : CallerResult String
  calls : List DaemonCall

section Completion

variable (upstream : Upstream) (caller : WalletCaller)
  (daemon : WalletDaemon) (miner : MiningConfig) (task : MiningTask)

/-- The check of `unsigned_transactions[..last_index]`. -/
def checkStaging :
    Nat → List Proto.WalletSignableTransaction → CallerResult Unit
  | _, [] => .ok ()
  | index, message :: rest =>
      if 0 < protoPayloadLen message then
        Outcome.err (.laneEnforcementFailed (.laneEnforcementFailed
          (s!"staging tx {index} carries {protoPayloadLen message}-byte " ++
            "payload; only the last tx in a multi-tx wallet response may " ++
            "carry payload")))
      else checkStaging (index + 1) rest

def KaspaWalletError.toString : KaspaWalletError → String
  | .userInputError message => message
  | .internalServerError message => message

/-- A lane gate, which is open when enforcement is off. -/
def enforceLane (stage : Stage) (transaction : SignableTransaction) :
    CallerResult Unit :=
  match caller.laneEnforcement with
  | none => .ok ()
  | some enforcement =>
      Outcome.mapErr .laneEnforcementFailed
        (validateLaneTransaction upstream transaction enforcement.lane
          enforcement.txIdPrefix stage)

/-- From the last message to the message that replaces it. -/
def mineMessage (last : Proto.WalletSignableTransaction) :
    CallerResult Proto.WalletSignableTransaction := do
  let signable ← Outcome.mapErr
    (fun error => .transactionDecodingFailed error.toString)
    (protoToSignableTransaction last)
  enforceLane upstream caller .preMining signable
  let (mined, _) ← Outcome.mapErr .miningFailed
    (mineTransaction upstream miner task signable)
  enforceLane upstream caller .preBroadcast mined
  Outcome.mapErr (fun error => .transactionEncodingFailed error.toString)
    (updateProtoWithMinedTransaction upstream last mined)

/-- `complete_transaction_flow` up to the call to sign. -/
def minedBatch (unsigned : List Proto.WalletSignableTransaction) :
    CallerResult (List Proto.WalletSignableTransaction) :=
  match unsigned.getLast? with
  | none => Outcome.err .noTransactionIds
  | some last => do
      checkStaging 0 unsigned.dropLast
      let updated ← mineMessage upstream caller miner task last
      pure (unsigned.dropLast ++ [updated])

def signTransactions (batch : List Proto.WalletSignableTransaction) :
    CallerResult (List Proto.WalletSignableTransaction) :=
  (daemon.sign batch caller.password).toResult "sign"
    .transactionSigningFailed

def broadcastTransactions (signed : List Proto.WalletSignableTransaction) :
    CallerResult (List String) :=
  (daemon.broadcast signed).toResult "broadcast" .transactionBroadcastFailed

/-- `complete_transaction_flow`. -/
def completeTransactionFlow
    (unsigned : List Proto.WalletSignableTransaction) : Flow :=
  match minedBatch upstream caller miner task unsigned with
  | .error fault => ⟨.error fault, []⟩
  | .ok batch =>
      match signTransactions caller daemon batch with
      | .error fault => ⟨.error fault, [.sign batch]⟩
      | .ok signed =>
          { result := do
              let transactionIds ← broadcastTransactions daemon signed
              Outcome.ofOption .noTransactionIds transactionIds.getLast?
            calls := [.sign batch, .broadcast signed] }

def mineAndSendTransactionWithRetry (params : TransactionParams)
    (maxAttempts : UInt32) : Flow :=
  match createUnsignedTransactionWithRetry daemon params maxAttempts with
  | .error fault => ⟨.error fault, []⟩
  | .ok unsigned =>
      completeTransactionFlow upstream caller daemon miner task unsigned

end Completion

section Rules

variable {upstream : Upstream} {caller : WalletCaller}
  {daemon : WalletDaemon} {miner : MiningConfig} {task : MiningTask}

theorem response_of_toResult {α : Type} {operation : String}
    {wrap : Proto.Status → WalletCallerError} {reply : GrpcReply α}
    {value : α} (succeeded : reply.toResult operation wrap = .ok value) :
    reply = .response value := by
  cases reply with
  | response other =>
      cases succeeded
      rfl
  | status failure => exact absurd succeeded (Outcome.err_ne_ok _ _)
  | timedOut => exact absurd succeeded (Outcome.err_ne_ok _ _)

/-- Retrying returns the reply to some attempt. -/
theorem exists_attempt_of_createAttempts {params : TransactionParams}
    {maxAttempts : UInt32} {attempts : List Nat}
    {lastError : Option WalletCallerError}
    {unsigned : List Proto.WalletSignableTransaction}
    (created : createAttempts daemon params maxAttempts attempts lastError =
      .ok unsigned) :
    ∃ attempt ∈ attempts,
      daemon.createUnsignedTransactions attempt params.description =
        .response unsigned := by
  induction attempts generalizing lastError with
  | nil => exact absurd created (Outcome.err_ne_ok _ _)
  | cons attempt attempts ih =>
      rw [createAttempts] at created
      split at created
      · rename_i result replied
        cases created
        exact ⟨attempt, List.mem_cons_self, response_of_toResult replied⟩
      · split at created
        · obtain ⟨later, member, replied⟩ := ih created
          exact ⟨later, List.mem_cons_of_mem _ member, replied⟩
        · exact absurd created (Outcome.err_ne_ok _ _)
      · cases created

private theorem checkStaging_eq_ok {index : Nat}
    {staging : List Proto.WalletSignableTransaction} :
    checkStaging index staging = .ok () ↔
      ∀ message ∈ staging, protoPayloadLen message = 0 := by
  induction staging generalizing index with
  | nil => simp [checkStaging]
  | cons message rest ih =>
      rw [checkStaging]
      by_cases carries : 0 < protoPayloadLen message
      · rw [if_pos carries]
        simp [Nat.ne_of_gt carries]
      · rw [if_neg carries, ih]
        simp [Nat.eq_zero_of_not_pos carries]

theorem checkStaging_settled (index : Nat)
    (staging : List Proto.WalletSignableTransaction) :
    (checkStaging index staging).Settled := by
  induction staging generalizing index with
  | nil => exact Outcome.settled_ok ()
  | cons message rest ih =>
      rw [checkStaging]
      split
      · exact Outcome.settled_err _
      · exact ih (index + 1)

theorem enforceLane_settled {stage : Stage}
    {transaction : SignableTransaction} :
    (enforceLane upstream caller stage transaction).Settled := by
  unfold enforceLane
  split
  · exact Outcome.settled_ok ()
  · exact validateLaneTransaction_settled.mapErr

theorem laneConforming_of_enforceLane {enforcement : LaneEnforcement}
    {transaction : SignableTransaction}
    (enforced : caller.laneEnforcement = some enforcement)
    (passed : enforceLane upstream caller .preBroadcast transaction =
      .ok ()) :
    LaneConforming upstream enforcement transaction.tx := by
  rw [enforceLane, enforced] at passed
  exact laneConforming_of_validateLaneTransaction
    (Outcome.mapErr_eq_ok.mp passed)

private theorem exists_of_mem_right {α β : Type} {related : α → β → Prop}
    {left : List α} {right : List β}
    (aligned : List.Forall₂ related left right) {item : β}
    (member : item ∈ right) : ∃ other ∈ left, related other item := by
  induction aligned with
  | nil => cases member
  | cons first _ ih =>
      rcases List.mem_cons.mp member with rfl | later
      · exact ⟨_, List.mem_cons_self, first⟩
      · obtain ⟨other, inLeft, found⟩ := ih later
        exact ⟨other, List.mem_cons_of_mem _ inLeft, found⟩

/-- How the message that is signed comes from the one the daemon returned. -/
structure MinedMessage (upstream : Upstream) (caller : WalletCaller)
    (miner : MiningConfig) (last updated : Proto.WalletSignableTransaction)
    where
  signable : SignableTransaction
  mined : SignableTransaction
  stats : MiningStats
  decoded : protoToSignableTransaction last = .ok signable
  search : mineBlocking upstream miner.txIdPrefix signable =
    .ok (mined, stats)
  passed : enforceLane upstream caller .preBroadcast mined = .ok ()
  encoded : updateProtoWithMinedTransaction upstream last mined = .ok updated

private theorem minedMessage_of_mineMessage
    {last updated : Proto.WalletSignableTransaction}
    (succeeded : mineMessage upstream caller miner task last = .ok updated) :
    Nonempty (MinedMessage upstream caller miner last updated) := by
  simp only [mineMessage, Outcome.bind_eq_ok, Outcome.mapErr_eq_ok]
    at succeeded
  obtain ⟨signable, decoded, -, -, ⟨mined, stats⟩, found, ⟨⟩, passed,
    encoded⟩ := succeeded
  exact ⟨⟨signable, mined, stats, decoded,
    exists_mineBlocking_of_mineTransaction found, passed, encoded⟩⟩

theorem Reworked.encodable {original mined : SignableTransaction}
    {nonce : UInt32} (reworked : Reworked original nonce mined)
    (encodable : SignableEncodable original) : SignableEncodable mined := by
  obtain ⟨⟨commits, unbound⟩, aligned, present⟩ := encodable
  rw [reworked.rest]
  refine ⟨⟨commits, ?_⟩, aligned, present⟩
  intro output member
  obtain ⟨before, inBefore, value, -, rfl⟩ :=
    exists_of_mem_right reworked.outputs member
  exact unbound before inBefore

namespace MinedMessage

variable {last updated : Proto.WalletSignableTransaction}

theorem reworked
    (message : MinedMessage upstream caller miner last updated) :
    Reworked message.signable message.stats.noncesTried message.mined :=
  (reworked_of_mineBlocking message.search).1

theorem encodable
    (message : MinedMessage upstream caller miner last updated) :
    SignableEncodable message.mined :=
  message.reworked.encodable
    (encodable_of_protoToSignableTransaction message.decoded).1

theorem massless
    (message : MinedMessage upstream caller miner last updated) :
    message.mined.tx.storageMass = 0 := by
  rw [message.reworked.rest]
  exact (encodable_of_protoToSignableTransaction message.decoded).2

/-- The message that is signed holds the mined transaction. -/
theorem innerTransaction
    (message : MinedMessage upstream caller miner last updated) :
    innerTransaction updated =
      some (transactionToProto upstream message.mined.tx) :=
  congrArg RpcProvider.innerTransaction
    (eq_of_updateProtoWithMinedTransaction message.encodable message.encoded)

/-- Any decoder of the wallet finds the mined transaction in it. -/
theorem decode
    (message : MinedMessage upstream caller miner last updated)
    {transaction : WalletSignableTransaction}
    (read : walletSignableTransactionFromProto upstream updated =
      .ok transaction) :
    transaction.tx = message.mined.tx := by
  have found :=
    transactionFromProto_of_walletSignableTransactionFromProto read
  rw [message.innerTransaction, Option.getD_some,
    transaction_roundTrip upstream message.encodable.tx] at found
  exact (Except.ok.inj found).symm

end MinedMessage

/-- A batch that is signed is what the daemon returned, with its last message
mined and no payload before it. -/
theorem exists_of_minedBatch
    {unsigned batch : List Proto.WalletSignableTransaction}
    (succeeded : minedBatch upstream caller miner task unsigned =
      .ok batch) :
    ∃ staging last updated,
      unsigned = staging ++ [last] ∧ batch = staging ++ [updated] ∧
        (∀ message ∈ staging, protoPayloadLen message = 0) ∧
        Nonempty (MinedMessage upstream caller miner last updated) := by
  cases ending : unsigned.getLast? with
  | none =>
      simp only [minedBatch, ending] at succeeded
      exact absurd succeeded (Outcome.err_ne_ok _ _)
  | some last =>
      simp only [minedBatch, ending, Outcome.bind_eq_ok,
        Outcome.pure_eq_ok] at succeeded
      obtain ⟨⟨⟩, staged, updated, mined, rfl⟩ := succeeded
      refine ⟨unsigned.dropLast, last, updated, ?_, rfl,
        checkStaging_eq_ok.mp staged, minedMessage_of_mineMessage mined⟩
      exact (List.dropLast_append_getLast? last ending).symm

/-- The calls of a flow: none, or a mined batch to sign, or then also its
reply to broadcast. -/
theorem calls_of_completeTransactionFlow
    {unsigned : List Proto.WalletSignableTransaction} {call : DaemonCall}
    (made : call ∈ (completeTransactionFlow upstream caller daemon miner task
      unsigned).calls) :
    ∃ batch, minedBatch upstream caller miner task unsigned = .ok batch ∧
      (call = .sign batch ∨ ∃ signed, call = .broadcast signed ∧
        daemon.sign batch caller.password = .response signed) := by
  unfold completeTransactionFlow at made
  cases prepared : minedBatch upstream caller miner task unsigned with
  | error fault =>
      rw [prepared] at made
      cases made
  | ok batch =>
      rw [prepared] at made
      refine ⟨batch, rfl, ?_⟩
      cases signing : signTransactions caller daemon batch with
      | error fault =>
          simp only [signing, List.mem_singleton] at made
          exact .inl made
      | ok signed =>
          simp only [signing, List.mem_cons, List.not_mem_nil,
            or_false] at made
          rcases made with isSign | isBroadcast
          · exact .inl isSign
          · exact .inr ⟨signed, isBroadcast, response_of_toResult signing⟩

theorem sign_mem_calls
    {unsigned batch : List Proto.WalletSignableTransaction}
    (prepared : minedBatch upstream caller miner task unsigned =
      .ok batch) :
    .sign batch ∈ (completeTransactionFlow upstream caller daemon miner task
      unsigned).calls := by
  rw [completeTransactionFlow, prepared]
  cases signing : signTransactions caller daemon batch with
  | error fault => simp [signing]
  | ok signed => simp [signing]

/-- A flow that succeeds has broadcast a batch. -/
theorem broadcast_mem_calls
    {unsigned : List Proto.WalletSignableTransaction} {transactionId : String}
    (succeeded : (completeTransactionFlow upstream caller daemon miner task
      unsigned).result = .ok transactionId) :
    ∃ signed, .broadcast signed ∈ (completeTransactionFlow upstream caller
      daemon miner task unsigned).calls := by
  unfold completeTransactionFlow at succeeded ⊢
  cases prepared : minedBatch upstream caller miner task unsigned with
  | error fault =>
      rw [prepared] at succeeded
      cases succeeded
  | ok batch =>
      rw [prepared] at succeeded
      cases signing : signTransactions caller daemon batch with
      | error fault =>
          simp only [signing] at succeeded
          cases succeeded
      | ok signed => exact ⟨signed, by simp [signing]⟩

/-- Without a call the flow ended before signing. -/
theorem result_of_no_calls
    {unsigned : List Proto.WalletSignableTransaction}
    (uncalled : (completeTransactionFlow upstream caller daemon miner task
      unsigned).calls = []) :
    ∃ fault, minedBatch upstream caller miner task unsigned =
        .error fault ∧
      (completeTransactionFlow upstream caller daemon miner task
        unsigned).result = .error fault := by
  cases prepared : minedBatch upstream caller miner task unsigned with
  | error fault => exact ⟨fault, rfl, by rw [completeTransactionFlow, prepared]⟩
  | ok batch =>
      have signing : .sign batch ∈ (completeTransactionFlow upstream caller
          daemon miner task unsigned).calls := sign_mem_calls prepared
      rw [uncalled] at signing
      cases signing

end Rules

end RpcProvider
