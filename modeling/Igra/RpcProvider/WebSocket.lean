import Igra.RpcProvider.FeeFlooring
import Igra.RpcProvider.Routing
import Igra.Semaphore

/-!
# WebSocket connections

The main loop of a connection reads one message after another.  Requests that
are no subscriptions go to tasks of their own, which hold permits of a
semaphore until they have answered; what it cannot hand out it answers itself.
The tasks run between the messages, in any order, and every task advances all
the requests of its batch at once.
-/

open Rust Kaswallet Semaphore

namespace RpcProvider

section Requests

/-- The answer of the execution layer.  By JSON-RPC a response has the id of
its request. -/
structure ElAnswer where
  send : RpcRequest → Except String Json
  echoes : ∀ request response, send request = .ok response →
    HasId request.id response

/-- `ProxyService::forward_to_el`; the error is the text of the `AppError`. -/
def forwardToEl (text : U256Text) (config : GasConfig) (answer : ElAnswer)
    (request : RpcRequest) : Json :=
  match answer.send request with
  | .ok response =>
      if request.method = "eth_gasPrice" ∨
          request.method = "eth_maxPriorityFeePerGas" then
        floorGasPriceValue text config response
      else if request.method = "eth_feeHistory" then
        floorFeeHistoryValue text config response
      else response
  | .error reason =>
      jsonRpcError request.id (-32000) ("EL request failed: " ++ reason)

inductive RpcEnvelope where
  | single (request : RpcRequest)
  | batch (requests : List RpcRequest)

def RpcEnvelope.requests : RpcEnvelope → List RpcRequest
  | .single request => [request]
  | .batch requests => requests

/-- What a connection is served with; `parse` is `serde_json::from_str`, whose
errors are texts. -/
structure WsService where
  security : SecurityConfig
  provider : Provider
  floatText : UInt64 → String
  u256Text : U256Text
  gasConfig : GasConfig
  parse : String → Except String RpcEnvelope

/-- What a request meets while it is executed. -/
structure Circumstances where
  effectiveBaseFee : Except String Nat
  queue : QueueReply
  uuid : String
  answer : ElAnswer

/-- The execution layer is out of reach. -/
instance : Inhabited Circumstances where
  default :=
    { effectiveBaseFee := .error "unreachable"
      queue := .accepted
      uuid := "00000000-0000-4000-8000-000000000000"
      answer :=
        { send := fun _ => .error "unreachable"
          echoes := by
            intro request response sent
            cases sent } }

def WsService.execute (service : WsService) (circumstances : Circumstances)
    (request : RpcRequest) : Outcome Empty Json :=
  routeAndProcess service.security service.provider service.floatText
    { effectiveBaseFee := circumstances.effectiveBaseFee
      queue := circumstances.queue
      uuid := circumstances.uuid
      forwardToEl := forwardToEl service.u256Text service.gasConfig
        circumstances.answer }
    request

end Requests

section Tasks

def maxInflightRequests : Nat := 64

def isSubscriptionMethod (method : String) : Bool :=
  method = "eth_subscribe" || method = "eth_unsubscribe"

def serverBusyJson (id : Json) : Json :=
  jsonRpcError id (-32005) "Server busy, too many in-flight requests"

def emptyBatchJson : Json :=
  jsonRpcError .null (-32600) "Invalid Request: empty batch"

def subscriptionInBatchJson (id : Json) : Json :=
  jsonRpcError id (-32600)
    ("Subscription requests in batch are not supported; " ++
      "send eth_subscribe as a single request")

inductive Progress where
  | waiting
  /-- `route_and_process` has been called and has not returned -/
  | executing
  | done (response : Json)

/-- A future of a task. -/
structure Item where
  request : RpcRequest
  progress : Progress

/-- The first poll, as far as `route_and_process` or past it. -/
def Item.poll (item : Item) : Option Item :=
  match item.progress with
  | .waiting =>
      if isSubscriptionMethod item.request.method then
        some { item with
          progress := .done (subscriptionInBatchJson item.request.id) }
      else some { item with progress := .executing }
  | .executing => none
  | .done _ => none

/-- `route_and_process` returns. -/
def Item.return (service : WsService) (circumstances : Circumstances)
    (item : Item) : Option Item :=
  match item.progress with
  | .waiting => none
  | .executing =>
      match service.execute circumstances item.request with
      | .ok response => some { item with progress := .done response }
      | .error _ => none
  | .done _ => none

def Item.response? (item : Item) : Option Json :=
  match item.progress with
  | .waiting => none
  | .executing => none
  | .done response => some response

def Item.isExecuting (item : Item) : Bool :=
  match item.progress with
  | .waiting => false
  | .executing => true
  | .done _ => false

/-- A task serves the envelope with a number. -/
structure RpcTask where
  number : Nat
  envelope : RpcEnvelope
  permits : Nat
  items : List Item
  answered : Bool

def RpcTask.spawned (number : Nat) (envelope : RpcEnvelope) (permits : Nat) :
    RpcTask where
  number := number
  envelope := envelope
  permits := permits
  items := envelope.requests.map fun request => ⟨request, .waiting⟩
  answered := false

/-- How many requests `route_and_process` executes for the task. -/
def RpcTask.executing (task : RpcTask) : Nat :=
  task.items.countP Item.isExecuting

/-- The value to send, once all futures are done. -/
def RpcTask.response? (task : RpcTask) : Option Json :=
  match task.items.mapM Item.response? with
  | none => none
  | some responses =>
      match task.envelope with
      | .single _ => responses.head?
      | .batch _ => some (.array responses)

/-- One of the futures advances. -/
def RpcTask.advance (index : Nat) (advances : Item → Option Item) :
    Change RpcTask.permits where
  apply task :=
    match task.items[index]? with
    | none => none
    | some item =>
        (advances item).map fun advanced =>
          { task with items := task.items.set index advanced }
  keeps := by
    intro task changed advanced
    split at advanced
    · cases advanced
    · obtain ⟨_, _, rfl⟩ := Option.map_eq_some_iff.mp advanced
      rfl

def RpcTask.markAnswered : Change RpcTask.permits where
  apply task := some { task with answered := true }
  keeps := by
    intro task changed marked
    cases marked
    rfl

end Tasks

section Connections

/-- What goes through the channel to the client.  A response is kept with the
number of the envelope that it answers, which is not sent. -/
inductive Outgoing where
  | response (number : Option Nat) (value : Json)
  | relayed (text : String)

def Outgoing.answerTo (number : Nat) : Outgoing → Option Json
  | .response (some answered) value =>
      if answered = number then some value else none
  | .response none _ => none
  | .relayed _ => none

/-- The envelopes that have been received are numbered in their order; the
tasks are those of `in_flight`. -/
structure Connection where
  /-- the main loop has not ended -/
  reading : Bool
  /-- the writer takes messages for the client -/
  writing : Bool
  /-- requests can be forwarded to reth -/
  relaying : Bool
  envelopes : List RpcEnvelope
  inflight : Pool RpcTask.permits maxInflightRequests
  sent : List Outgoing
  forwarded : List RpcRequest

namespace Connection

def opened : Connection where
  reading := true
  writing := true
  relaying := true
  envelopes := []
  inflight := .new _ _
  sent := []
  forwarded := []

def Open (connection : Connection) : Prop :=
  connection.reading = true ∧ connection.writing = true

/-- How many requests are being executed by `route_and_process`. -/
def executing (connection : Connection) : Nat :=
  (connection.inflight.holders.map RpcTask.executing).sum

def answersTo (connection : Connection) (number : Nat) : List Json :=
  connection.sent.filterMap (Outgoing.answerTo number)

/-- `send_value` in the main loop, which breaks when the channel is closed. -/
def sendValue (connection : Connection) (number : Option Nat) (value : Json) :
    Connection :=
  if connection.writing then
    { connection with sent := connection.sent ++ [.response number value] }
  else { connection with reading := false }

/-- `process_subscription_request`. -/
def processSubscriptionRequest (service : WsService) (connection : Connection)
    (number : Nat) (request : RpcRequest) : Connection :=
  match validateRequestAuthorization service.security request with
  | some errorResponse => connection.sendValue (some number) errorResponse
  | none =>
      if connection.relaying then
        { connection with forwarded := connection.forwarded ++ [request] }
      else { connection with reading := false }

/-- The task is spawned if it gets its permits. -/
def spawn (connection : Connection) (task : RpcTask) (busyId : Json) :
    Connection :=
  match connection.inflight.tryAcquire task with
  | some inflight => { connection with inflight }
  | none => connection.sendValue (some task.number) (serverBusyJson busyId)

def receiveEnvelope (service : WsService) (connection : Connection)
    (envelope : RpcEnvelope) : Connection :=
  let number := connection.envelopes.length
  let received :=
    { connection with envelopes := connection.envelopes ++ [envelope] }
  match envelope with
  | .single request =>
      if isSubscriptionMethod request.method then
        received.processSubscriptionRequest service number request
      else received.spawn (.spawned number envelope 1) request.id
  | .batch requests =>
      if requests.isEmpty then
        received.sendValue (some number) emptyBatchJson
      else
        let batchLen := min requests.length maxInflightRequests
        received.spawn (.spawned number envelope batchLen) .null

def receiveText (service : WsService) (connection : Connection)
    (text : String) : Connection :=
  match service.parse text with
  | .ok envelope => connection.receiveEnvelope service envelope
  | .error reason =>
      connection.sendValue none
        (jsonRpcError .null (-32700) ("Parse error: " ++ reason))

end Connection

/-- What `client_read.next()` gives within the timeout. -/
inductive ClientMessage where
  | text (text : String)
  | binary (bytes : List UInt8)
  | ping
  | pong
  | close
  | readError
  | streamEnded
  | idleTimeout

inductive WsEvent where
  | receives (message : ClientMessage)
  | polls (task item : Nat)
  | returns (task item : Nat) (circumstances : Circumstances)
  /-- a task sends its response -/
  | answers (task : Nat)
  /-- a task drops its permits and ends -/
  | ends (task : Nat)
  /-- a task is aborted by the clean-up -/
  | aborts (task : Nat)
  | relays (text : String)
  | writerStops
  | upstreamBreaks

namespace Connection

def receive (service : WsService) (connection : Connection) :
    ClientMessage → Connection
  | .text text => connection.receiveText service text
  | .binary bytes =>
      match String.fromUTF8? ⟨bytes.toArray⟩ with
      | some text => connection.receiveText service text
      | none => connection
  | .ping => connection
  | .pong => connection
  | .close => { connection with reading := false }
  | .readError => { connection with reading := false }
  | .streamEnded => { connection with reading := false }
  | .idleTimeout => { connection with reading := false }

/-- The response is sent, unless there is no one to take it. -/
def answer (connection : Connection) (index : Nat) : Option Connection :=
  match connection.inflight.holders[index]? with
  | none => none
  | some task =>
      if task.answered then none
      else
        match task.response? with
        | none => none
        | some response =>
            (connection.inflight.modify index RpcTask.markAnswered).map
              fun inflight =>
                { connection with
                  inflight
                  sent :=
                    if connection.writing then
                      connection.sent ++ [.response (some task.number) response]
                    else connection.sent }

def finish (connection : Connection) (index : Nat) : Option Connection :=
  match connection.inflight.holders[index]? with
  | none => none
  | some task =>
      if task.answered then
        (connection.inflight.release index).map fun inflight =>
          { connection with inflight }
      else none

def perform (service : WsService) (connection : Connection) :
    WsEvent → Option Connection
  | .receives message =>
      if connection.reading then some (connection.receive service message)
      else none
  | .polls task item =>
      (connection.inflight.modify task (RpcTask.advance item Item.poll)).map
        fun inflight => { connection with inflight }
  | .returns task item circumstances =>
      (connection.inflight.modify task
        (RpcTask.advance item (Item.return service circumstances))).map
        fun inflight => { connection with inflight }
  | .answers task => connection.answer task
  | .ends task => connection.finish task
  | .aborts task =>
      if connection.reading then none
      else (connection.inflight.release task).map fun inflight =>
        { connection with inflight }
  | .relays text =>
      if connection.writing then
        some { connection with sent := connection.sent ++ [.relayed text] }
      else none
  | .writerStops => some { connection with writing := false }
  | .upstreamBreaks => some { connection with relaying := false }

/-- One event of a connection. -/
def Advances (service : WsService) (connection : Connection)
    (event : WsEvent) (next : Connection) : Prop :=
  connection.perform service event = some next

end Connection

end Connections

end RpcProvider
