import Igra.RpcProvider.Server
import Igra.Runs

/-!
# The transaction pipeline

The hashes that clients are told are those of the transactions that the worker
has sent, sends, or will send, each once and in the order of the answers.  What
the worker broadcasts for a transaction carries its bytes.
-/

open Kaspa Rust Kaswallet Runs

namespace RpcProvider

section Refusals

/-- The response tells no hash. -/
def NoResult (response : Json) : Prop :=
  response.get? "result" = none

theorem validateTransactionRequest_noResult (provider : Provider)
    (floatText : UInt64 → String) (request : RpcRequest)
    (effectiveBaseFee : Option Nat) :
    FailsWith NoResult (validateTransactionRequest provider floatText request
      effectiveBaseFee) := by
  apply FailsWith.bind
  · exact .mapErr (extractRawTransaction_settled _) fun _ => rfl
  · intro rawTx _
    apply FailsWith.bind
    · exact .mapErr (decodeHexTransaction_settled _) fun _ => rfl
    · intro txBytes _
      apply FailsWith.bind
      · exact .mapErr (validateComprehensiveTransaction_settled _ _ _)
          fun _ => rfl
      · intro _ _
        exact .inl ⟨txBytes, rfl⟩

theorem acceptRequest_noResult (provider : Provider)
    (floatText : UInt64 → String) (request : RpcRequest) (id : Json)
    (effectiveBaseFee : Except String Nat) :
    FailsWith NoResult (acceptRequest provider floatText request id
      effectiveBaseFee) := by
  apply (validateTransactionRequest_noResult _ _ _ _).bind
  intro txBytes _
  cases effectiveBaseFee with
  | error reason => exact .inr ⟨_, rfl, rfl⟩
  | ok baseFee =>
      apply FailsWith.bind
      · exact .mapErr (validateComprehensiveTransaction_settled _ _ _)
          fun _ => rfl
      · intro _ _
        exact .inl ⟨txBytes, rfl⟩

theorem noResult_of_validateRequestAuthorization {config : SecurityConfig}
    {request : RpcRequest} {response : Json}
    (refused : validateRequestAuthorization config request = some response) :
    NoResult response := by
  unfold validateRequestAuthorization at refused
  split at refused
  · cases refused
    rfl
  · split at refused
    · cases refused
      rfl
    · cases refused

end Refusals

section Routing

variable {service : Service} {server next : Server} {post : Option Nat}
  {circumstances : Circumstances} {request : RpcRequest} {response : Json}
  {transaction : TransactionRequest}

/-- What is known of a transaction that gets to the queue. -/
structure Admitted (service : Service) (request : RpcRequest)
    (transaction : TransactionRequest) : Prop where
  method : request.method = "eth_sendRawTransaction"
  writable : service.rpc.security.readOnly = false
  id : request.id ≠ .null → transaction.id = request.id
  accepted : ∃ effectiveBaseFee,
    validateAcceptRequest service.rpc.provider.decodeEnvelope effectiveBaseFee
      (firstParam request.params) = .ok transaction.txBytes

theorem admitted_of_transactionOf
    (wants : service.rpc.transactionOf circumstances request =
      some transaction) :
    Admitted service request transaction := by
  unfold WsService.transactionOf at wants
  split at wants
  · cases wants
  · rename_i authorized
    split at wants
    · rename_i method
      split at wants
      · rename_i txBytes accepted
        cases wants
        refine ⟨method, ?_, idValue_of_ne_null, _,
          acceptRequest_eq_ok.mp accepted⟩
        cases readOnly : service.rpc.security.readOnly with
        | false => rfl
        | true =>
            have writes : isWriteMethod "eth_sendRawTransaction" = true := by
              decide
            unfold validateRequestAuthorization at authorized
            split at authorized
            · cases authorized
            · rw [method, readOnly, writes] at authorized
              cases authorized
      · cases wants
    · cases wants

/-- `route_and_process` may answer so. -/
def Executed (service : Service) (request : RpcRequest) (response : Json) :
    Prop :=
  ∃ circumstances, service.rpc.execute circumstances request = .ok response

/-- How a request is answered. -/
inductive Routes (service : Service) (server : Server)
    (request : RpcRequest) :
    Json → TransactionQueue → Option TransactionRequest → Prop where
  | accepted {transaction : TransactionRequest} {queue : TransactionQueue}
      (admitted : Admitted service request transaction)
      (sends : server.queue.trySend transaction = some queue) :
      Routes service server request
        (resultJson
          (transactionHash service.rpc.provider transaction.txBytes)
          transaction.id) queue (some transaction)
  | refused {response : Json}
      (silent : request.method = "eth_sendRawTransaction" →
        NoResult response) :
      Routes service server request response server.queue none

theorem execute_of_writable
    (authorized :
      validateRequestAuthorization service.rpc.security request = none)
    (method : request.method = "eth_sendRawTransaction")
    (queue : QueueReply) :
    service.rpc.execute { circumstances with queue } request =
      orRespond (do
        let txBytes ← acceptRequest service.rpc.provider service.rpc.floatText
          request (idValue (service.rpc.surroundings circumstances) request)
          circumstances.effectiveBaseFee
        pure (match queue with
          | .accepted =>
              resultJson (transactionHash service.rpc.provider txBytes)
                (idValue (service.rpc.surroundings circumstances) request)
          | .full =>
              (TransactionError.queueFull
                transactionQueueCapacity).toJsonRpcError
                (idValue (service.rpc.surroundings circumstances) request)
          | .closed =>
              (TransactionError.internalError
                "Transaction processor channel closed").toJsonRpcError
                (idValue (service.rpc.surroundings circumstances)
                  request))) := by
  unfold WsService.execute routeAndProcess
  rw [authorized]
  simp only [method, if_true]
  rfl

theorem noResult_of_execute
    (method : request.method = "eth_sendRawTransaction")
    (none : service.rpc.transactionOf circumstances request = none)
    {queue : QueueReply}
    (executed : service.rpc.execute { circumstances with queue } request =
      .ok response) :
    NoResult response := by
  cases authorized :
      validateRequestAuthorization service.rpc.security request with
  | some refusal =>
      unfold WsService.execute routeAndProcess at executed
      rw [authorized] at executed
      cases executed
      exact noResult_of_validateRequestAuthorization authorized
  | none =>
      rw [execute_of_writable authorized method] at executed
      unfold WsService.transactionOf at none
      rw [authorized] at none
      simp only [method, if_true] at none
      rcases acceptRequest_noResult service.rpc.provider
          service.rpc.floatText request
          (idValue (service.rpc.surroundings circumstances) request)
          circumstances.effectiveBaseFee with
        ⟨txBytes, accepted⟩ | ⟨refusal, refused, silent⟩
      · rw [accepted] at none
        cases none
      · rw [refused] at executed
        cases executed
        exact silent

theorem execute_of_transactionOf
    (wants : service.rpc.transactionOf circumstances request =
      some transaction) (queue : QueueReply) :
    service.rpc.execute { circumstances with queue } request =
      .ok (match queue with
        | .accepted => resultJson
            (transactionHash service.rpc.provider transaction.txBytes)
            transaction.id
        | .full =>
            (TransactionError.queueFull
              transactionQueueCapacity).toJsonRpcError transaction.id
        | .closed =>
            (TransactionError.internalError
              "Transaction processor channel closed").toJsonRpcError
              transaction.id) := by
  unfold WsService.transactionOf at wants
  split at wants
  · cases wants
  · rename_i authorized
    split at wants
    · rename_i method
      split at wants
      · rename_i txBytes accepted
        cases wants
        rw [execute_of_writable authorized method, accepted]
        rfl
      · cases wants
    · cases wants

theorem tryEnqueue_cases (worker : Worker) (queue : TransactionQueue)
    (transaction : TransactionRequest) :
    (∃ next, queue.trySend transaction = some next ∧
        tryEnqueue worker queue transaction = (.accepted, next)) ∨
      tryEnqueue worker queue transaction = (.full, queue) ∨
      tryEnqueue worker queue transaction = (.closed, queue) := by
  unfold tryEnqueue
  cases worker with
  | gone => exact .inr (.inr rfl)
  | idle =>
      cases queue.trySend transaction with
      | none => exact .inr (.inl rfl)
      | some next => exact .inl ⟨next, rfl, rfl⟩
  | processing _ =>
      cases queue.trySend transaction with
      | none => exact .inr (.inl rfl)
      | some next => exact .inl ⟨next, rfl, rfl⟩

theorem route_eq_ok
    (routed : server.route service post circumstances request =
      .ok (response, next)) :
    ∃ queue accepted, Routes service server request response queue accepted ∧
      Executed service request response ∧ next = { server with
        queue
        answers :=
          server.answers ++ [⟨post, request, response, accepted⟩] } := by
  unfold Server.route at routed
  cases wants : service.rpc.transactionOf circumstances request with
  | none =>
      rw [wants] at routed
      obtain ⟨answer, executed, same⟩ := Outcome.bind_eq_ok.mp routed
      have silent (method : request.method = "eth_sendRawTransaction") :=
        noResult_of_execute method wants executed
      cases same
      refine ⟨_, _, .refused silent, ⟨_, executed⟩, ?_⟩
      cases circumstances.queue with
      | accepted => rfl
      | full => rfl
      | closed => rfl
  | some transaction =>
      have executes := execute_of_transactionOf wants
      have admitted := admitted_of_transactionOf wants
      simp only [wants] at routed
      rcases tryEnqueue_cases server.worker server.queue transaction with
        ⟨queue, sends, enqueued⟩ | enqueued | enqueued
      · rw [enqueued] at routed
        simp only [executes] at routed
        cases routed
        exact ⟨_, _, .accepted admitted sends, ⟨_, executes .accepted⟩, rfl⟩
      · rw [enqueued] at routed
        simp only [executes] at routed
        cases routed
        exact ⟨_, _, .refused fun _ => rfl, ⟨_, executes .full⟩, rfl⟩
      · rw [enqueued] at routed
        simp only [executes] at routed
        cases routed
        exact ⟨_, _, .refused fun _ => rfl, ⟨_, executes .closed⟩, rfl⟩

end Routing

def SettledTransaction.succeeded (settled : SettledTransaction) : Bool :=
  settled.call.result.isOk

/-- The call has ended in an error. -/
def SettledTransaction.failed (settled : SettledTransaction) : Bool :=
  match settled.call.result with
  | .error (.error _) => true
  | _ => false

section Steps

variable {service : Service} {server next : Server} {event : ServerEvent}

/-- What an event does to the server. -/
inductive Moves (service : Service) (server : Server) :
    ServerEvent → Server → Prop where
  | posts (body : List UInt8) :
      Moves service server (.posts body)
        { server with
          exchanges :=
            server.exchanges ++ [⟨parseRpcEnvelope service body, []⟩] }
  | serves {post : Nat} {exchange : Exchange} {request : RpcRequest}
      {circumstances : Circumstances} {response : Json}
      {queue : TransactionQueue} {accepted : Option TransactionRequest}
      (found : server.exchanges[post]? = some exchange)
      (waits : exchange.next? = some request)
      (executed : Executed service request response)
      (routes : Routes service server request response queue accepted) :
      Moves service server (.serves post circumstances)
        { server with
          exchanges := server.exchanges.set post
            { exchange with responses := exchange.responses ++ [response] }
          queue
          answers :=
            server.answers ++ [⟨some post, request, response, accepted⟩] }
  | relays {request : RpcRequest} {circumstances : Circumstances}
      {response : Json} {queue : TransactionQueue}
      {accepted : Option TransactionRequest}
      (executed : Executed service request response)
      (routes : Routes service server request response queue accepted) :
      Moves service server (.relays request circumstances)
        { server with
          queue
          answers :=
            server.answers ++ [⟨none, request, response, accepted⟩] }
  | takes {transaction : TransactionRequest} {queue : TransactionQueue}
      (idle : server.worker = .idle)
      (receives : server.queue.receive = some (transaction, queue)) :
      Moves service server .takes
        { server with queue, worker := .processing transaction }
  | finishes {daemon : WalletDaemon} {task : MiningTask}
      {transaction : TransactionRequest} {after : Server}
      (works : server.worker = .processing transaction)
      (settles : server.settle transaction (processWalletCall service.upstream
        service.rpc.provider daemon task transaction.txBytes) = some after) :
      Moves service server (.finishes daemon task) after

theorem moves_of_perform
    (performed : server.perform service event = some next) :
    Moves service server event next := by
  cases event with
  | posts body =>
      cases performed
      exact .posts body
  | serves post circumstances =>
      simp only [Server.perform, Option.bind_eq_bind, Option.bind_eq_some_iff]
        at performed
      obtain ⟨exchange, found, request, waits, ⟨response, routed⟩, returned,
        same⟩ := performed
      obtain ⟨queue, accepted, routes, executed, rfl⟩ :=
        route_eq_ok (Outcome.toOption_eq_some.mp returned)
      cases same
      exact .serves found waits executed routes
  | relays request circumstances =>
      obtain ⟨⟨response, routed⟩, returned, same⟩ :=
        Option.map_eq_some_iff.mp performed
      obtain ⟨queue, accepted, routes, executed, rfl⟩ :=
        route_eq_ok (Outcome.toOption_eq_some.mp returned)
      cases same
      exact .relays executed routes
  | takes =>
      simp only [Server.perform] at performed
      split at performed
      · rename_i idle
        obtain ⟨⟨transaction, queue⟩, receives, same⟩ :=
          Option.map_eq_some_iff.mp performed
        cases same
        exact .takes idle receives
      · cases performed
  | finishes daemon task =>
      simp only [Server.perform] at performed
      split at performed
      · rename_i transaction works
        exact .finishes works performed
      · cases performed

/-- What the worker does when a call has returned, or has panicked. -/
theorem settle_eq_some {transaction : TransactionRequest} {call : WalletCall}
    (settles : server.settle transaction call = some next) :
    next.exchanges = server.exchanges ∧ next.queue = server.queue ∧
      next.answers = server.answers ∧ next.worker.current = [] ∧
      next.settled = server.settled ++ [⟨transaction, call⟩] ∧
      next.processedCount =
        (if SettledTransaction.succeeded ⟨transaction, call⟩ then
          saturatingSucc server.processedCount else server.processedCount) ∧
      next.errorCount =
        (if SettledTransaction.failed ⟨transaction, call⟩ then
          saturatingSucc server.errorCount else server.errorCount) := by
  unfold SettledTransaction.succeeded SettledTransaction.failed
  unfold Server.settle at settles
  split at settles
  · rename_i hash returned
    cases settles
    rw [returned]
    exact ⟨rfl, rfl, rfl, rfl, rfl, rfl, rfl⟩
  · rename_i error returned
    cases settles
    rw [returned]
    exact ⟨rfl, rfl, rfl, rfl, rfl, rfl, rfl⟩
  · rename_i returned
    cases settles
    rw [returned]
    exact ⟨rfl, rfl, rfl, rfl, rfl, rfl, rfl⟩
  · cases settles

end Steps

section Pipeline

variable {service : Service} {server next : Server} {event : ServerEvent}
  {events : List ServerEvent}

/-- The wallet call carried the bytes of the transaction to the wallet. -/
structure Delivers (service : Service) (settled : SettledTransaction) :
    Prop where
  /-- what is broadcast carries a payload that reads back as the bytes -/
  carries : ∀ signed, .broadcast signed ∈ settled.call.calls →
    ∃ payload view, CarriesLast signed payload ∧
      readPayload payload = some view ∧ view.version = payloadVersion ∧
      rawTransactionOf service.rpc.provider.zlib view =
        some settled.transaction.txBytes
  /-- a call that succeeds has broadcast something, for the hash that the
  client was told -/
  broadcasts : ∀ hash, settled.call.result = .ok hash →
    hash = transactionHash service.rpc.provider settled.transaction.txBytes ∧
      ∃ signed, .broadcast signed ∈ settled.call.calls

def Answer.Truthful (service : Service) (answer : Answer) : Prop :=
  match answer.accepted with
  | some transaction =>
      Admitted service answer.request transaction ∧
        answer.response = resultJson
          (transactionHash service.rpc.provider transaction.txBytes)
          transaction.id
  | none =>
      answer.request.method = "eth_sendRawTransaction" →
        NoResult answer.response

/-- A count that stays at its last value. -/
def Counts (count : UInt16) (items : Nat) : Prop :=
  count.toNat = min items 0xFFFF

structure Ordered (service : Service) (server : Server) : Prop where
  /-- the transactions of the answers are those that were put into the queue -/
  sent : server.answers.filterMap Answer.accepted = server.queue.sent
  /-- what was taken out is done with or in work -/
  taken : server.queue.taken =
    server.settled.map SettledTransaction.transaction ++ server.worker.current
  truthful : ∀ answer ∈ server.answers, answer.Truthful service

structure Pipelined (service : Service) (server : Server) : Prop
    extends Ordered service server where
  delivers : ∀ settled ∈ server.settled, Delivers service settled
  processed : Counts server.processedCount
    (server.settled.countP SettledTransaction.succeeded)
  failed : Counts server.errorCount
    (server.settled.countP SettledTransaction.failed)

/-- The daemons that the worker talks to are wallet services. -/
def ServedByWallets (service : Service) (_ : Server) : ServerEvent → Prop
  | .finishes daemon _ => ServedByWallet service.upstream daemon
  | _ => True

theorem Counts.succ {count : UInt16} {items : Nat}
    (counts : Counts count items) :
    Counts (saturatingSucc count) (items + 1) := by
  unfold Counts saturatingSucc at *
  split
  · rename_i last
    subst last
    have full : (0xFFFF : UInt16).toNat = 0xFFFF := rfl
    omega
  · rename_i below
    have less : count.toNat < 0xFFFF := by
      have bound := UInt16.toNat_lt count
      have other : count.toNat ≠ 0xFFFF := fun same =>
        below (UInt16.toNat.inj same)
      omega
    rw [UInt16.toNat_add, show (1 : UInt16).toNat = 1 from rfl,
      Nat.mod_eq_of_lt (by omega)]
    omega

theorem Counts.append {α : Type} {count : UInt16} {items : List α}
    {counted : α → Bool} (counts : Counts count (items.countP counted))
    (item : α) :
    Counts (if counted item then saturatingSucc count else count)
      ((items ++ [item]).countP counted) := by
  rw [List.countP_append, List.countP_singleton]
  split
  · exact counts.succ
  · exact counts

/-- The worker's call for an admitted transaction delivers it. -/
theorem delivers_of_admitted {request : RpcRequest}
    {transaction : TransactionRequest} {daemon : WalletDaemon}
    {task : MiningTask}
    (inverts : service.rpc.provider.zlib.Inverts)
    (served : ServedByWallet service.upstream daemon)
    (admitted : Admitted service request transaction) :
    Delivers service ⟨transaction, processWalletCall service.upstream
      service.rpc.provider daemon task transaction.txBytes⟩ := by
  obtain ⟨effectiveBaseFee, accepted⟩ := admitted.accepted
  constructor
  · intro signed broadcasting
    rw [← @calls_of_accepted service.upstream service.rpc.provider
      effectiveBaseFee daemon task _ _ accepted] at broadcasting
    obtain ⟨framed, attempt, description, unsigned, batch, serialized,
      carried, created, prepared, signs⟩ :=
      exists_of_broadcast accepted broadcasting
    obtain ⟨creator, moment, fuel, made⟩ :=
      served.creates attempt description unsigned created
    obtain ⟨signer, signatures, succeeded⟩ := served.signs _ _ _ signs
    have unmined := carriesLast_of_createUnsignedTransactions made
    rw [carried] at unmined
    obtain ⟨nonce, mined⟩ := unmined.mined prepared
    exact ⟨_, minedPayload service.rpc.provider.zlib transaction.txBytes nonce,
      mined.signed succeeded,
      readPayload_serializePayload
        (serializePayload_minedPayload serialized nonce), rfl,
      rawTransactionOf_minedPayload inverts nonce⟩
  · intro hash returned
    refine ⟨?_, exists_broadcast_of_processWalletCall returned⟩
    dsimp only at returned
    unfold processWalletCall at returned
    split at returned
    · rw [Outcome.mapErr_eq_ok] at returned
      cases returned
    · obtain ⟨_, _, same⟩ := Outcome.map_eq_ok.mp returned
      exact same.symm

/-- The accepted transactions are in order those that are done with, the one
in work, and those that wait. -/
theorem Ordered.inOrder (ordered : Ordered service server) :
    server.answers.filterMap Answer.accepted =
      server.settled.map SettledTransaction.transaction ++
        (server.worker.current ++ server.queue.waiting) := by
  rw [ordered.sent, Mailbox.sent, ordered.taken, List.append_assoc]

/-- The transaction in work was admitted. -/
theorem Ordered.admitted (ordered : Ordered service server)
    {transaction : TransactionRequest}
    (works : server.worker = .processing transaction) :
    ∃ request, Admitted service request transaction := by
  have among :
      transaction ∈ server.answers.filterMap Answer.accepted := by
    rw [ordered.inOrder, works]
    exact List.mem_append_right _ (List.mem_append_left _
      (List.mem_singleton_self _))
  obtain ⟨answer, member, accepts⟩ := List.mem_filterMap.mp among
  have truthful := ordered.truthful answer member
  unfold Answer.Truthful at truthful
  rw [accepts] at truthful
  exact ⟨answer.request, truthful.1⟩

theorem Ordered.answer (ordered : Ordered service server)
    {post : Option Nat} {request : RpcRequest} {response : Json}
    {queue : TransactionQueue} {accepted : Option TransactionRequest}
    (routes : Routes service server request response queue accepted)
    (exchanges : List Exchange) :
    Ordered service { server with
      exchanges
      queue
      answers := server.answers ++ [⟨post, request, response, accepted⟩] } := by
  constructor
  · rw [List.filterMap_append, ordered.sent]
    cases routes with
    | accepted admitted sends => exact (Mailbox.sent_of_trySend sends).symm
    | refused _ => exact List.append_nil _
  · cases routes with
    | accepted admitted sends =>
        exact (Mailbox.taken_of_trySend sends).trans ordered.taken
    | refused _ => exact ordered.taken
  · intro answer member
    rcases List.mem_append.mp member with old | new
    · exact ordered.truthful answer old
    · obtain rfl := List.mem_singleton.mp new
      cases routes with
      | accepted admitted _ => exact ⟨admitted, rfl⟩
      | refused silent => exact silent

theorem Ordered.step (ordered : Ordered service server)
    (moves : Moves service server event next) : Ordered service next := by
  cases moves with
  | posts body => exact ⟨ordered.sent, ordered.taken, ordered.truthful⟩
  | serves _ _ _ routes => exact ordered.answer routes _
  | relays _ routes => exact ordered.answer routes _
  | takes idle receives =>
      refine ⟨?_, ?_, ordered.truthful⟩
      · exact ordered.sent.trans (Mailbox.sent_of_receive receives).symm
      · rw [Mailbox.taken_of_receive receives, ordered.taken, idle,
          List.append_assoc]
        rfl
  | finishes works settles =>
      obtain ⟨_, queue, answers, current, settled, _, _⟩ :=
        settle_eq_some settles
      constructor
      · rw [answers, queue]
        exact ordered.sent
      · rw [queue, settled, current, ordered.taken, works, List.map_append,
          List.append_nil]
        rfl
      · rw [answers]
        exact ordered.truthful

theorem ordered_started : Ordered service .started := by
  refine ⟨rfl, rfl, ?_⟩
  intro answer member
  cases member

theorem ordered_of_run
    (run : Run (Server.Advances service) .started events server) :
    Ordered service server :=
  run.preserves ordered_started fun _ _ _ ordered taken =>
    ordered.step (moves_of_perform taken)

theorem Pipelined.step (pipelined : Pipelined service server)
    (inverts : service.rpc.provider.zlib.Inverts)
    (allowed : ServedByWallets service server event)
    (moves : Moves service server event next) : Pipelined service next := by
  have ordered := pipelined.toOrdered.step moves
  cases moves with
  | posts body =>
      exact ⟨ordered, pipelined.delivers, pipelined.processed,
        pipelined.failed⟩
  | serves _ _ _ _ =>
      exact ⟨ordered, pipelined.delivers, pipelined.processed,
        pipelined.failed⟩
  | relays _ _ =>
      exact ⟨ordered, pipelined.delivers, pipelined.processed,
        pipelined.failed⟩
  | takes _ _ =>
      exact ⟨ordered, pipelined.delivers, pipelined.processed,
        pipelined.failed⟩
  | finishes works settles =>
      obtain ⟨request, admitted⟩ := pipelined.admitted works
      obtain ⟨_, _, _, _, settled, processed, failed⟩ :=
        settle_eq_some settles
      refine ⟨ordered, ?_, ?_, ?_⟩
      · intro done member
        rw [settled] at member
        rcases List.mem_append.mp member with old | new
        · exact pipelined.delivers done old
        · obtain rfl := List.mem_singleton.mp new
          exact delivers_of_admitted inverts allowed admitted
      · rw [processed, settled]
        exact pipelined.processed.append ⟨_, _⟩
      · rw [failed, settled]
        exact pipelined.failed.append ⟨_, _⟩

/-- Over any run, each accepted transaction is sent through the wallet once and
in its turn, or still waits; clients are told the hashes of these and of no
others, and what is broadcast for one carries its bytes. -/
theorem pipelined_of_run (inverts : service.rpc.provider.zlib.Inverts)
    (run : Run (restrict (ServedByWallets service) (Server.Advances service))
      .started events server) :
    Pipelined service server := by
  refine run.preserves ?_ fun _ _ _ pipelined taken =>
    pipelined.step inverts taken.1 (moves_of_perform taken.2)
  refine ⟨ordered_started, ?_, rfl, rfl⟩
  intro settled member
  cases member

end Pipeline

section Samples

section Forward

variable {service : Service} {circumstances : Circumstances}
  {request : RpcRequest} {transaction : TransactionRequest}

variable (daemon : WalletDaemon) (task : MiningTask)

private theorem exists_settle (server : Server) {call : WalletCall}
    (ended : SettledTransaction.succeeded ⟨transaction, call⟩ = true ∨
      SettledTransaction.failed ⟨transaction, call⟩ = true) :
    ∃ next, server.settle transaction call = some next ∧
      next.worker = .idle := by
  unfold SettledTransaction.succeeded SettledTransaction.failed at ended
  unfold Server.settle
  cases result : call.result with
  | ok hash => exact ⟨_, rfl, rfl⟩
  | error fault =>
      rw [result] at ended
      cases fault with
      | error reason => exact ⟨_, rfl, rfl⟩
      | panic => simp [Except.isOk, Except.toBool] at ended
      | unfinished => simp [Except.isOk, Except.toBool] at ended

/-- A transaction that is relayed while nothing waits is taken and sent. -/
private theorem exists_run_of_relayed (server : Server) {call : WalletCall}
    (idle : server.worker = .idle) (empty : server.queue.waiting = [])
    (wants : service.rpc.transactionOf circumstances request =
      some transaction)
    (calls : processWalletCall service.upstream service.rpc.provider daemon
      task transaction.txBytes = call)
    (ended : SettledTransaction.succeeded ⟨transaction, call⟩ = true ∨
      SettledTransaction.failed ⟨transaction, call⟩ = true) :
    ∃ next,
      Run (Server.Advances service) server
          [.relays request circumstances, .takes, .finishes daemon task]
          next ∧
        next.worker = .idle ∧ next.queue.waiting = [] ∧
        next.settled = server.settled ++ [⟨transaction, call⟩] ∧
        next.processedCount =
          (if SettledTransaction.succeeded ⟨transaction, call⟩ then
            saturatingSucc server.processedCount
          else server.processedCount) ∧
        next.errorCount =
          (if SettledTransaction.failed ⟨transaction, call⟩ then
            saturatingSucc server.errorCount
          else server.errorCount) := by
  obtain ⟨holding, queue, sends, receives, nothing⟩ :=
    Mailbox.exists_receive_of_trySend empty (by decide) transaction
  have enqueued : tryEnqueue server.worker server.queue transaction =
      (.accepted, holding) := by
    rw [idle]
    simp only [tryEnqueue, sends]
  have executed := execute_of_transactionOf wants .accepted
  let relayed : Server := { server with
    queue := holding
    answers := server.answers ++ [⟨none, request,
      resultJson (transactionHash service.rpc.provider transaction.txBytes)
        transaction.id, some transaction⟩] }
  have relays : server.perform service (.relays request circumstances) =
      some relayed := by
    simp only [Server.perform, Server.route, wants, enqueued, executed]
    rfl
  let taken : Server :=
    { relayed with queue, worker := .processing transaction }
  have takes : relayed.perform service .takes = some taken := by
    simp only [Server.perform, relayed, idle, receives]
    rfl
  obtain ⟨next, settles, rests⟩ := exists_settle taken ended
  have finishes : taken.perform service (.finishes daemon task) =
      some next := by
    simp only [Server.perform, taken, calls]
    exact settles
  obtain ⟨-, kept, -, -, settled, processed, failed⟩ :=
    settle_eq_some settles
  exact ⟨next, ((Run.start.extend relays).extend takes).extend finishes,
    rests, kept ▸ nothing, settled, processed, failed⟩

end Forward

def legacyService : Service where
  rpc :=
    { security := openConfig
      provider := legacyProvider
      floatText := fun _ => "0.0"
      u256Text := sampleText
      gasConfig := ⟨2000⟩
      parse := fun _ => .error "expected value" }
  upstream := devnet
  parseEnvelope _ := .error "expected value"
  parseValue _ := .error "expected value"

def oneGwei : Circumstances :=
  { (default : Circumstances) with effectiveBaseFee := .ok 1000000000 }

def relayedRequest : RpcRequest :=
  numberedRequest ("0x" ++ Hex.encode legacyTx)

def relayedTransaction : TransactionRequest :=
  ⟨legacyTx, .number (.unsigned 7)⟩

/-- The wallet broadcasts the transaction, and is silent when it is sent
again. -/
def relayedTwice : List ServerEvent :=
  [.relays relayedRequest oneGwei, .takes, .finishes laneDaemon .completed] ++
    [.relays relayedRequest oneGwei, .takes,
      .finishes silentDaemon .completed]

private theorem relayedTwice_servedByWallets (server : Server) :
    ∀ event ∈ relayedTwice, ServedByWallets legacyService server event := by
  have silent : ServedByWallet devnet silentDaemon := by
    constructor
    · intro _ _ _ replied
      cases replied
    · intro _ _ _ replied
      cases replied
  unfold relayedTwice ServedByWallets
  simp only [List.cons_append, List.nil_append, List.forall_mem_cons,
    List.not_mem_nil, false_implies, implies_true, and_true, true_and]
  exact ⟨servedByWallet_laneDaemon, silent⟩

private theorem transactionOf_relayedRequest :
    legacyService.rpc.transactionOf oneGwei relayedRequest =
      some relayedTransaction := by
  have accepted : acceptRequest legacyProvider legacyService.rpc.floatText
      relayedRequest (.number (.unsigned 7)) (.ok 1000000000) =
        .ok legacyTx :=
    acceptRequest_eq_ok.mpr legacyRequest_accepted
  have authorized : validateRequestAuthorization openConfig relayedRequest =
      none := rfl
  have method : relayedRequest.method = "eth_sendRawTransaction" := rfl
  have id : idValue (legacyService.rpc.surroundings oneGwei) relayedRequest =
      .number (.unsigned 7) := rfl
  unfold WsService.transactionOf
  rw [show validateRequestAuthorization legacyService.rpc.security
    relayedRequest = none from rfl]
  simp only [method, if_true, id]
  rw [show oneGwei.effectiveBaseFee = .ok 1000000000 from rfl,
    show acceptRequest legacyService.rpc.provider _ relayedRequest _ _ =
      .ok legacyTx from accepted]
  rfl

def broadcastCall : WalletCall :=
  processWalletCall devnet legacyProvider laneDaemon .completed legacyTx

def silentCall : WalletCall :=
  processWalletCall devnet legacyProvider silentDaemon .completed legacyTx

private theorem broadcastCall_succeeded :
    SettledTransaction.succeeded ⟨relayedTransaction, broadcastCall⟩ = true ∧
      SettledTransaction.failed ⟨relayedTransaction, broadcastCall⟩ =
        false := by
  obtain ⟨hash, returned, -⟩ := legacyRequest_run
  rw [SettledTransaction.succeeded, SettledTransaction.failed, broadcastCall,
    returned]
  exact ⟨rfl, rfl⟩

private theorem silentCall_failed :
    SettledTransaction.succeeded ⟨relayedTransaction, silentCall⟩ = false ∧
      SettledTransaction.failed ⟨relayedTransaction, silentCall⟩ = true := by
  decide +kernel

theorem pipelined_of_run_relayedTwice :
    ∃ server, Run (restrict (ServedByWallets legacyService)
        (Server.Advances legacyService)) .started relayedTwice server ∧
      server.processedCount = 1 ∧ server.errorCount = 1 ∧
      Pipelined legacyService server ∧
      ∃ settled ∈ server.settled, ∃ signed payload view,
        .broadcast signed ∈ settled.call.calls ∧
          CarriesLast signed payload ∧ readPayload payload = some view ∧
          rawTransactionOf legacyZlib view = some legacyTx := by
  have wants := transactionOf_relayedRequest
  obtain ⟨succeeded, unfailed⟩ := broadcastCall_succeeded
  obtain ⟨unsent, failed⟩ := silentCall_failed
  obtain ⟨sent, firstRun, idle, empty, firstSettled, firstProcessed,
    firstErrors⟩ := exists_run_of_relayed laneDaemon .completed .started rfl
      rfl wants (Eq.refl broadcastCall) (.inl succeeded)
  obtain ⟨server, secondRun, -, -, settled, processed, errors⟩ :=
    exists_run_of_relayed silentDaemon .completed sent idle empty wants
      (Eq.refl silentCall) (.inr failed)
  rw [succeeded, if_pos rfl] at firstProcessed
  rw [unfailed, if_neg Bool.false_ne_true] at firstErrors
  rw [unsent, if_neg Bool.false_ne_true, firstProcessed] at processed
  rw [failed, if_pos rfl, firstErrors] at errors
  have run := (firstRun.trans secondRun).restrict_of_forall
    fun event member server => relayedTwice_servedByWallets server event member
  have pipelined := pipelined_of_run inverts_legacyZlib run
  have member : ⟨relayedTransaction, broadcastCall⟩ ∈ server.settled := by
    rw [settled, firstSettled]
    exact .head _
  have delivers := pipelined.delivers _ member
  obtain ⟨hash, returned, -⟩ := legacyRequest_run
  obtain ⟨-, signed, broadcasting⟩ := delivers.broadcasts hash returned
  obtain ⟨payload, view, carries, read, -, carried⟩ :=
    delivers.carries signed broadcasting
  exact ⟨server, run, processed, errors, pipelined, _, member, signed,
    payload, view, broadcasting, carries, read, carried⟩

end Samples

end RpcProvider
