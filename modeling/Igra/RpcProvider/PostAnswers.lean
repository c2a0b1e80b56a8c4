import Igra.RpcProvider.InflightLimit
import Igra.RpcProvider.TransactionPipeline

/-!
# Answers to posts

A post is answered once all of its requests are: its answer has a response for
each of them, in their order.  What its requests put into the queue comes there
in their order too, whatever other requests are served in between.
-/

open Rust Kaswallet Runs

namespace RpcProvider

section Posts

/-- The bodies that were posted. -/
def postedBodies (events : List ServerEvent) : List (List UInt8) :=
  events.filterMap fun
    | .posts body => some body
    | _ => none

def Server.answersTo (server : Server) (post : Nat) : List Answer :=
  server.answers.filter fun answer => answer.post = some post

variable (service : Service)

/-- What is known of a post while it is served. -/
structure Exchange.Attended (server : Server) (bodies : List (List UInt8))
    (post : Nat) (exchange : Exchange) : Prop where
  parsed : ∃ body, bodies[post]? = some body ∧
    exchange.envelope = parseRpcEnvelope service body
  bounded : exchange.responses.length ≤ exchange.requests.length
  served : (server.answersTo post).map
      (fun answer => (answer.request, answer.response)) =
    exchange.requests.zip exchange.responses

structure Attends (bodies : List (List UInt8)) (server : Server) : Prop where
  counted : server.exchanges.length = bodies.length
  attended : ∀ post (exchange : Exchange),
    server.exchanges[post]? = some exchange →
      exchange.Attended service server bodies post
  known : ∀ answer ∈ server.answers, ∀ post, answer.post = some post →
    post < server.exchanges.length
  executed : ∀ answer ∈ server.answers,
    Executed service answer.request answer.response

/-- The response has the id of the request if the router keeps it. -/
def Echoes (request : RpcRequest) (response : Json) : Prop :=
  service.rpc.KeepsId request → HasId request.id response

/-- The value answers what was posted. -/
def AnswersPost (envelope : Except Json RpcEnvelope) (value : Json) : Prop :=
  match envelope with
  | .error response => value = response
  | .ok (.single request) => Echoes service request value
  | .ok (.batch []) => value = emptyBatchJson
  | .ok (.batch requests) =>
      ∃ responses, value = .array responses ∧
        List.Forall₂ (Echoes service) requests responses

end Posts

section Serving

variable {service : Service} {server next : Server} {event : ServerEvent}
  {events : List ServerEvent} {bodies : List (List UInt8)} {post : Nat}
  {exchange : Exchange}

private theorem postedBodies_append (events : List ServerEvent)
    (event : ServerEvent) :
    postedBodies (events ++ [event]) =
      postedBodies events ++ postedBodies [event] :=
  List.filterMap_append

theorem answersTo_append {answer : Answer}
    (answers : next.answers = server.answers ++ [answer]) (post : Nat) :
    next.answersTo post = server.answersTo post ++
      if answer.post = some post then [answer] else [] := by
  unfold Server.answersTo
  rw [answers, List.filter_append, List.filter_cons, List.filter_nil]
  simp only [decide_eq_true_eq]

theorem Attends.answersTo_length (attends : Attends service bodies server) :
    server.answersTo server.exchanges.length = [] := by
  apply List.filter_eq_nil_iff.mpr
  intro answer member same
  exact absurd (attends.known answer member _ (of_decide_eq_true same))
    (Nat.lt_irrefl _)

theorem zip_append_singleton {requests : List RpcRequest}
    {responses : List Json} {request : RpcRequest}
    (waits : requests[responses.length]? = some request) (response : Json) :
    requests.zip (responses ++ [response]) =
      requests.zip responses ++ [(request, response)] := by
  induction responses generalizing requests with
  | nil =>
      cases requests with
      | nil => cases waits
      | cons first rest =>
          cases waits
          simp
  | cons earlier responses ih =>
      cases requests with
      | nil => cases waits
      | cons first rest => exact congrArg ((first, earlier) :: ·) (ih waits)

/-- A step that leaves the posts and their answers alone. -/
theorem Attends.keep (attends : Attends service bodies server)
    (exchanges : next.exchanges = server.exchanges)
    (answers : next.answers = server.answers) :
    Attends service bodies next := by
  have answersTo (post : Nat) :
      next.answersTo post = server.answersTo post := by
    rw [Server.answersTo, answers, Server.answersTo]
  constructor
  · rw [exchanges]
    exact attends.counted
  · intro post exchange found
    rw [exchanges] at found
    obtain ⟨parsed, bounded, served⟩ := attends.attended post exchange found
    exact ⟨parsed, bounded, by rw [answersTo, served]⟩
  · rw [answers, exchanges]
    exact attends.known
  · rw [answers]
    exact attends.executed

theorem Attends.opened (attends : Attends service bodies server)
    (body : List UInt8) :
    Attends service (bodies ++ [body]) { server with
      exchanges :=
        server.exchanges ++ [⟨parseRpcEnvelope service body, []⟩] } := by
  constructor
  · rw [List.length_append, List.length_append, attends.counted]
    rfl
  · intro post exchange found
    rcases Nat.lt_or_ge post server.exchanges.length with old | new
    · rw [List.getElem?_append_left old] at found
      obtain ⟨⟨earlier, atPost, parsed⟩, bounded, served⟩ :=
        attends.attended post exchange found
      refine ⟨⟨earlier, ?_, parsed⟩, bounded, served⟩
      rw [List.getElem?_append_left (attends.counted ▸ old)]
      exact atPost
    · rw [List.getElem?_append_right new] at found
      obtain ⟨place, same⟩ := List.getElem?_eq_some_iff.mp found
      have last : post = server.exchanges.length := by
        rw [List.length_singleton] at place
        omega
      subst last
      have isNew : exchange = ⟨parseRpcEnvelope service body, []⟩ := by
        rw [← same]
        simp
      subst isNew
      refine ⟨⟨body, ?_, rfl⟩, Nat.zero_le _, ?_⟩
      · rw [List.getElem?_append_right (by rw [attends.counted]),
          attends.counted, Nat.sub_self]
        rfl
      · rw [List.zip_nil_right]
        exact List.map_eq_nil_iff.mpr attends.answersTo_length
  · intro answer member post same
    rw [List.length_append]
    exact Nat.lt_add_right _ (attends.known answer member post same)
  · exact attends.executed

theorem Attends.serve (attends : Attends service bodies server)
    {request : RpcRequest} {response : Json} {queue : TransactionQueue}
    {accepted : Option TransactionRequest}
    (found : server.exchanges[post]? = some exchange)
    (waits : exchange.next? = some request)
    (executed : Executed service request response) :
    Attends service bodies { server with
      exchanges := server.exchanges.set post
        { exchange with responses := exchange.responses ++ [response] }
      queue
      answers :=
        server.answers ++ [⟨some post, request, response, accepted⟩] } := by
  have fits := (List.getElem?_eq_some_iff.mp found).1
  constructor
  · rw [List.length_set]
    exact attends.counted
  · intro place other atPlace
    rw [List.getElem?_set] at atPlace
    by_cases same : post = place
    · subst same
      rw [if_pos rfl, if_pos fits] at atPlace
      cases atPlace
      obtain ⟨parsed, _, served⟩ := attends.attended post exchange found
      refine ⟨parsed, ?_, ?_⟩
      · rw [List.length_append]
        exact (List.getElem?_eq_some_iff.mp waits).1
      · rw [answersTo_append rfl, if_pos rfl, List.map_append, served]
        exact (zip_append_singleton waits response).symm
    · rw [if_neg same] at atPlace
      obtain ⟨parsed, bounded, served⟩ :=
        attends.attended place other atPlace
      refine ⟨parsed, bounded, ?_⟩
      rw [answersTo_append rfl, if_neg (by simpa using same),
        List.append_nil]
      exact served
  · intro answer member place isFrom
    rw [List.length_set]
    rcases List.mem_append.mp member with old | new
    · exact attends.known answer old place isFrom
    · cases List.mem_singleton.mp new
      cases isFrom
      exact fits
  · intro answer member
    rcases List.mem_append.mp member with old | new
    · exact attends.executed answer old
    · cases List.mem_singleton.mp new
      exact executed

theorem Attends.relay (attends : Attends service bodies server)
    {request : RpcRequest} {response : Json} {queue : TransactionQueue}
    {accepted : Option TransactionRequest}
    (executed : Executed service request response) :
    Attends service bodies { server with
      queue
      answers :=
        server.answers ++ [⟨none, request, response, accepted⟩] } := by
  constructor
  · exact attends.counted
  · intro place exchange found
    obtain ⟨parsed, bounded, served⟩ := attends.attended place exchange found
    refine ⟨parsed, bounded, ?_⟩
    rw [answersTo_append rfl, if_neg (by simp), List.append_nil]
    exact served
  · intro answer member place isFrom
    rcases List.mem_append.mp member with old | new
    · exact attends.known answer old place isFrom
    · cases List.mem_singleton.mp new
      cases isFrom
  · intro answer member
    rcases List.mem_append.mp member with old | new
    · exact attends.executed answer old
    · cases List.mem_singleton.mp new
      exact executed

theorem Attends.step (attends : Attends service bodies server)
    (moves : Moves service server event next) :
    Attends service (bodies ++ postedBodies [event]) next := by
  cases moves with
  | posts body => exact attends.opened body
  | serves found waits executed _ =>
      rw [show postedBodies [ServerEvent.serves _ _] = [] from rfl,
        List.append_nil]
      exact attends.serve found waits executed
  | relays executed _ =>
      rw [show postedBodies [ServerEvent.relays _ _] = [] from rfl,
        List.append_nil]
      exact attends.relay executed
  | takes idle receives =>
      rw [show postedBodies [ServerEvent.takes] = [] from rfl,
        List.append_nil]
      exact attends.keep rfl rfl
  | finishes works settles =>
      obtain ⟨exchanges, _, answers, _⟩ := settle_eq_some settles
      rw [show postedBodies [ServerEvent.finishes _ _] = [] from rfl,
        List.append_nil]
      exact attends.keep exchanges answers

theorem attends_of_run
    (run : Run (Server.Advances service) .started events server) :
    Attends service (postedBodies events) server := by
  induction run with
  | start =>
      refine ⟨rfl, ?_, ?_, ?_⟩
      · intro post exchange found
        cases found
      · intro answer member
        cases member
      · intro answer member
        cases member
  | extend _ taken ih =>
      rw [postedBodies_append]
      exact ih.step (moves_of_perform taken)

/-- Each request of a post can be served as soon as it is its turn. -/
theorem exists_serves (found : server.exchanges[post]? = some exchange)
    {request : RpcRequest} (waits : exchange.next? = some request)
    (circumstances : Circumstances) :
    ∃ next, server.Advances service (.serves post circumstances) next := by
  have routes : ∃ routed, server.route service (some post) circumstances
      request = .ok routed := by
    unfold Server.route
    cases service.rpc.transactionOf circumstances request with
    | none =>
        obtain ⟨response, executed⟩ :=
          execute_returns service.rpc circumstances request
        exact ⟨_, Outcome.bind_eq_ok.mpr ⟨response, executed, rfl⟩⟩
    | some transaction =>
        obtain ⟨response, executed⟩ := execute_returns service.rpc
          { circumstances with
            queue := (tryEnqueue server.worker server.queue transaction).1 }
          request
        exact ⟨_, Outcome.bind_eq_ok.mpr ⟨response, executed, rfl⟩⟩
  obtain ⟨⟨response, routed⟩, returned⟩ := routes
  refine ⟨{ routed with
    exchanges := server.exchanges.set post
      { exchange with responses := exchange.responses ++ [response] } }, ?_⟩
  simp only [Server.Advances, Server.perform, Option.bind_eq_bind,
    Option.bind_eq_some_iff]
  exact ⟨exchange, found, request, waits, _,
    Outcome.toOption_eq_some.mpr returned, rfl⟩

theorem exists_next_of_answer?_eq_none
    (bounded : exchange.responses.length ≤ exchange.requests.length)
    (unanswered : exchange.answer? = none) :
    ∃ request, exchange.next? = some request := by
  suffices fits : exchange.responses.length < exchange.requests.length from
    ⟨_, List.getElem?_eq_getElem fits⟩
  obtain ⟨envelope, responses⟩ := exchange
  cases envelope with
  | error response => cases unanswered
  | ok envelope =>
      cases envelope with
      | single request =>
          cases responses with
          | nil => exact Nat.zero_lt_one
          | cons first rest => cases unanswered
      | batch requests =>
          simp only [Exchange.answer?] at unanswered
          split at unanswered
          · cases unanswered
          · split at unanswered
            · cases unanswered
            · rename_i left
              exact Nat.lt_of_le_of_ne bounded left

theorem Exchange.Attended.echoes
    (attended : exchange.Attended service server bodies post)
    (executed : ∀ answer ∈ server.answers,
      Executed service answer.request answer.response)
    {request : RpcRequest} {response : Json}
    (paired : (request, response) ∈
      exchange.requests.zip exchange.responses) :
    Echoes service request response := by
  intro keeps
  rw [← attended.served] at paired
  obtain ⟨answer, member, same⟩ := List.mem_map.mp paired
  cases same
  obtain ⟨circumstances, returned⟩ :=
    executed answer (List.mem_filter.mp member).1
  exact execute_hasId keeps returned

theorem Exchange.Attended.answersPost
    (attended : exchange.Attended service server bodies post)
    (executed : ∀ answer ∈ server.answers,
      Executed service answer.request answer.response)
    {value : Json} (answered : exchange.answer? = some value) :
    AnswersPost service exchange.envelope value := by
  have echoes {request : RpcRequest} {response : Json} :=
    @Exchange.Attended.echoes _ _ _ _ _ attended executed request response
  obtain ⟨envelope, responses⟩ := exchange
  cases envelope with
  | error response => exact (Option.some.inj answered).symm
  | ok envelope =>
      cases envelope with
      | single request =>
          cases responses with
          | nil => cases answered
          | cons first rest =>
              cases answered
              exact echoes List.mem_cons_self
      | batch requests =>
          cases requests with
          | nil => exact (Option.some.inj answered).symm
          | cons first rest =>
              simp only [Exchange.answer?, List.isEmpty_cons,
                Bool.false_eq_true, if_false] at answered
              split at answered
              · rename_i all
                cases answered
                refine ⟨responses, rfl, List.forall₂_iff_zip.mpr ⟨all.symm, ?_⟩⟩
                intro request response paired
                exact echoes paired
              · cases answered

/-- What is known of a post at any time. -/
structure Exchange.Answered (service : Service) (server : Server)
    (bodies : List (List UInt8)) (post : Nat) (exchange : Exchange) : Prop
    extends exchange.Attended service server bodies post where
  /-- the transactions of the post come to the worker in their order -/
  inTurn : ((server.answersTo post).filterMap Answer.accepted).Sublist
    (server.settled.map SettledTransaction.transaction ++
      (server.worker.current ++ server.queue.waiting))
  answersPost : ∀ value, exchange.answer? = some value →
    AnswersPost service exchange.envelope value
  goesOn : exchange.answer? = none → ∀ circumstances,
    ∃ next, server.Advances service (.serves post circumstances) next

/-- However posts and other requests are interleaved, a post is answered in
kind once its requests are served, which they can always be. -/
theorem posts_answered
    (run : Run (Server.Advances service) .started events server)
    (found : server.exchanges[post]? = some exchange) :
    exchange.Answered service server (postedBodies events) post := by
  have attends := attends_of_run run
  have attended := attends.attended post exchange found
  refine ⟨attended, ?_, fun value answered =>
    attended.answersPost attends.executed answered, ?_⟩
  · rw [← (ordered_of_run run).inOrder]
    exact List.filter_sublist.filterMap _
  · intro unanswered circumstances
    obtain ⟨request, waits⟩ :=
      exists_next_of_answer?_eq_none attended.bounded unanswered
    exact exists_serves found waits circumstances

/-- A transaction of EIP-2930 with a gas price of 20 gwei. -/
def shortTx : List UInt8 :=
  [0x01, 0xd2, 0x01, 0x80, 0x85, 0x04, 0xa8, 0x17, 0xc8, 0x00, 0x82, 0x52,
   0x08, 0x80, 0x80, 0x80, 0xc0, 0x80, 0x01, 0x01]

def shortTxHash : FixedBytes 32 where
  bytes :=
    [0x94, 0xe4, 0x63, 0xc0, 0x80, 0xf8, 0x87, 0x71, 0x15, 0xf5, 0xa3,
     0x11, 0x16, 0xa5, 0x53, 0x72, 0x20, 0x41, 0xbf, 0x05, 0x4c, 0x0e,
     0x0e, 0xad, 0x25, 0xc9, 0x4b, 0x92, 0xf7, 0xc8, 0x01, 0x8e]
  size := rfl

def shortProvider : Provider :=
  { legacyProvider with
    keccak256 := fun _ => shortTxHash
    decodeEnvelope := fun data =>
      if data = shortTx then .ok (.eip2930 20000000000, [])
      else .error "unexpected length" }

/-- Every body is a batch of a transaction and of a request that is none. -/
def batchService : Service :=
  { legacyService with
    rpc := { legacyService.rpc with provider := shortProvider }
    parseEnvelope := fun _ => .ok (.batch
      [numberedRequest "0x01d201808504a817c800825208808080c0800101",
        numberedRequest "0xzz"]) }

def servedBatch : List ServerEvent :=
  [.posts [], .serves 0 oneGwei, .takes, .serves 0 oneGwei]

/-- Both requests of the batch are served, while the worker takes the first
one's transaction. -/
theorem posts_answered_servedBatch :
    ∃ server exchange,
      Run (Server.Advances batchService) .started servedBatch server ∧
      server.exchanges[0]? = some exchange ∧
      exchange.responses.length = 2 ∧
      exchange.Answered batchService server [[]] 0 := by
  have followed : (Runs.follow (fun _ _ => True)
      (Server.perform batchService) .started servedBatch).any fun server =>
        server.exchanges.map (fun exchange => exchange.responses.length) ==
          [2] := by
    decide +kernel
  obtain ⟨server, reached, finished⟩ := (Option.any_eq_true _ _).mp followed
  have run := (Run.of_follow (fun _ _ _ advances => advances)
    reached).unrestrict
  obtain ⟨exchange, only, length⟩ :=
    List.map_eq_singleton_iff.mp (eq_of_beq finished)
  have found : server.exchanges[0]? = some exchange := by
    rw [only]
    rfl
  exact ⟨server, exchange, run, found, length, posts_answered run found⟩

end Serving

end RpcProvider
