import Igra.Mailbox
import Igra.RpcProvider.PayloadIntegrity
import Igra.RpcProvider.WebSocket

/-!
# The server

Requests come in the bodies of HTTP posts and through WebSockets, and all of
them go through one router.  A post is served request by request, while other
posts are served too.  Accepted transactions wait in one queue for the worker,
which takes one at a time and sends it through the wallet.
-/

open Kaspa Rust Kaswallet

namespace RpcProvider

/-- What the server works with.  Bodies are read by `serde_json::from_slice`,
as an envelope or as any value. -/
structure Service where
  rpc : WsService
  upstream : Upstream
  parseEnvelope : List UInt8 → Except String RpcEnvelope
  parseValue : List UInt8 → Except String Json

structure TransactionRequest where
  txBytes : List UInt8
  id : Json

section Posts

/-- `parse_rpc_envelope`; an error is the response. -/
def parseRpcEnvelope (service : Service) (body : List UInt8) :
    Except Json RpcEnvelope :=
  match service.parseEnvelope body with
  | .ok envelope => .ok envelope
  | .error _ =>
      match service.parseValue body with
      | .ok value =>
          .error (jsonRpcError ((value.get? "id").getD .null) (-32600)
            "Invalid Request")
      | .error _ => .error (jsonRpcError .null (-32700) "Parse error")

/-- `handle_rpc`, as far as it has got. -/
structure Exchange where
  envelope : Except Json RpcEnvelope
  responses : List Json

def Exchange.requests (exchange : Exchange) : List RpcRequest :=
  match exchange.envelope with
  | .ok envelope => envelope.requests
  | .error _ => []

/-- The request that is served next. -/
def Exchange.next? (exchange : Exchange) : Option RpcRequest :=
  exchange.requests[exchange.responses.length]?

/-- What the post is answered with, once all requests are served. -/
def Exchange.answer? (exchange : Exchange) : Option Json :=
  match exchange.envelope with
  | .error response => some response
  | .ok (.single _) => exchange.responses.head?
  | .ok (.batch requests) =>
      if requests.isEmpty then some emptyBatchJson
      else if exchange.responses.length = requests.length then
        some (.array exchange.responses)
      else none

end Posts

section Queue

/-- What a request meets under the circumstances. -/
def WsService.surroundings (service : WsService)
    (circumstances : Circumstances) : RequestSurroundings where
  effectiveBaseFee := circumstances.effectiveBaseFee
  queue := circumstances.queue
  uuid := circumstances.uuid
  forwardToEl := forwardToEl service.u256Text service.gasConfig
    circumstances.answer

/-- The transaction for which `process_transaction` gets to the queue. -/
def WsService.transactionOf (service : WsService)
    (circumstances : Circumstances) (request : RpcRequest) :
    Option TransactionRequest :=
  match validateRequestAuthorization service.security request with
  | some _ => none
  | none =>
      if request.method = "eth_sendRawTransaction" then
        match acceptRequest service.provider service.floatText request
            (idValue (service.surroundings circumstances) request)
            circumstances.effectiveBaseFee with
        | .ok txBytes =>
            some ⟨txBytes,
              idValue (service.surroundings circumstances) request⟩
        | .error _ => none
      else none

inductive Worker where
  | idle
  | processing (transaction : TransactionRequest)
  /-- it has panicked, which closes the queue -/
  | gone

/-- The transaction in work. -/
def Worker.current : Worker → List TransactionRequest
  | .processing transaction => [transaction]
  | _ => []

abbrev TransactionQueue := Mailbox TransactionRequest transactionQueueCapacity

/-- `try_send`. -/
def tryEnqueue (worker : Worker) (queue : TransactionQueue)
    (transaction : TransactionRequest) : QueueReply × TransactionQueue :=
  match worker with
  | .gone => (.closed, queue)
  | _ =>
      match queue.trySend transaction with
      | some queue => (.accepted, queue)
      | none => (.full, queue)

/-- A request that `route_and_process` has answered, with the post that it came
from and the transaction that was put into the queue for it. -/
structure Answer where
  post : Option Nat
  request : RpcRequest
  response : Json
  accepted : Option TransactionRequest

/-- A transaction that the worker is done with. -/
structure SettledTransaction where
  transaction : TransactionRequest
  call : WalletCall

/-- `saturating_add(1)`. -/
def saturatingSucc (count : UInt16) : UInt16 :=
  if count = 0xFFFF then count else count + 1

structure Server where
  exchanges : List Exchange
  queue : TransactionQueue
  worker : Worker
  processedCount : UInt16
  errorCount : UInt16
  answers : List Answer
  settled : List SettledTransaction

inductive ServerEvent where
  /-- a body is posted -/
  | posts (body : List UInt8)
  /-- the next request of a post is served -/
  | serves (post : Nat) (circumstances : Circumstances)
  /-- a task of a WebSocket calls `route_and_process` -/
  | relays (request : RpcRequest) (circumstances : Circumstances)
  /-- the worker takes a transaction -/
  | takes
  /-- the worker is done with its transaction -/
  | finishes (daemon : WalletDaemon) (task : MiningTask)

namespace Server

def started : Server where
  exchanges := []
  queue := .empty
  worker := .idle
  processedCount := 0
  errorCount := 0
  answers := []
  settled := []

/-- `route_and_process`.  A request that puts no transaction into the queue
does not depend on its reply. -/
def route (service : Service) (server : Server) (post : Option Nat)
    (circumstances : Circumstances) (request : RpcRequest) :
    Outcome Empty (Json × Server) := do
  let transaction := service.rpc.transactionOf circumstances request
  let (reply, queue) := match transaction with
    | some transaction => tryEnqueue server.worker server.queue transaction
    | none => (circumstances.queue, server.queue)
  let response ← service.rpc.execute { circumstances with queue := reply }
    request
  let accepted := match reply with
    | .accepted => transaction
    | _ => none
  pure (response,
    { server with
      queue
      answers := server.answers ++ [⟨post, request, response, accepted⟩] })

/-- What the worker does when `process_wallet_call` returns or panics. -/
def settle (server : Server) (transaction : TransactionRequest)
    (call : WalletCall) : Option Server :=
  let settled := server.settled ++ [⟨transaction, call⟩]
  match call.result with
  | .ok _ =>
      some { server with
        worker := .idle
        processedCount := saturatingSucc server.processedCount
        settled }
  | .error (.error _) =>
      some { server with
        worker := .idle
        errorCount := saturatingSucc server.errorCount
        settled }
  | .error .panic => some { server with worker := .gone, settled }
  | .error .unfinished => none

def perform (service : Service) (server : Server) :
    ServerEvent → Option Server
  | .posts body =>
      some { server with
        exchanges :=
          server.exchanges ++ [⟨parseRpcEnvelope service body, []⟩] }
  | .serves post circumstances => do
      let exchange ← server.exchanges[post]?
      let request ← exchange.next?
      let (response, next) ←
        (server.route service (some post) circumstances request).toOption
      pure { next with
        exchanges := server.exchanges.set post
          { exchange with responses := exchange.responses ++ [response] } }
  | .relays request circumstances =>
      (server.route service none circumstances request).toOption.map Prod.snd
  | .takes =>
      match server.worker with
      | .idle =>
          server.queue.receive.map fun (transaction, queue) =>
            { server with queue, worker := .processing transaction }
      | _ => none
  | .finishes daemon task =>
      match server.worker with
      | .processing transaction =>
          server.settle transaction (processWalletCall service.upstream
            service.rpc.provider daemon task transaction.txBytes)
      | _ => none

/-- One event of the server. -/
def Advances (service : Service) (server : Server) (event : ServerEvent)
    (next : Server) : Prop :=
  server.perform service event = some next

end Server

end Queue

end RpcProvider
