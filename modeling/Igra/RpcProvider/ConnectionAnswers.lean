import Igra.RpcProvider.WebSocket

/-!
# The answers on a connection

Whatever comes between, each envelope gets one answer: from the main loop when
it is read, or from its task.  A task keeps the requests of its envelope in
their order until all of them are done.
-/

open Rust Kaswallet Semaphore

namespace RpcProvider

section Answers

/-- The requests of an envelope that `route_and_process` is called for. -/
def RpcEnvelope.executed (envelope : RpcEnvelope) : Nat :=
  envelope.requests.countP fun request => !isSubscriptionMethod request.method

/-- An envelope that the main loop or a task answers; a subscription is
answered by reth. -/
def RpcEnvelope.Awaits : RpcEnvelope → Prop
  | .single request => isSubscriptionMethod request.method = false
  | .batch _ => True

namespace WsService

variable (service : WsService)

/-- What `process_ws_request_value` returns for a request. -/
def Responds (request : RpcRequest) (response : Json) : Prop :=
  if isSubscriptionMethod request.method then
    response = subscriptionInBatchJson request.id
  else ∃ circumstances, service.execute circumstances request = .ok response

/-- An answer to an envelope. -/
def Replies (envelope : RpcEnvelope) (value : Json) : Prop :=
  match envelope with
  | .single request =>
      value = serverBusyJson request.id ∨ service.Responds request value
  | .batch [] => value = emptyBatchJson
  | .batch requests =>
      value = serverBusyJson .null ∨
        ∃ responses, value = .array responses ∧
          List.Forall₂ service.Responds requests responses

/-- The router keeps the id, except of a raw transaction that has none or
whose digits cannot be decoded. -/
def KeepsId (request : RpcRequest) : Prop :=
  request.method = "eth_sendRawTransaction" →
    service.security.readOnly = true ∨
      request.id ≠ .null ∧ ¬UndecodableHex request

/-- A request has a response with its id; a batch has one response for each of
its requests, in their order, or none for all of them. -/
def AnswersInKind (envelope : RpcEnvelope) (value : Json) : Prop :=
  match envelope with
  | .single request => HasId request.id value
  | .batch requests =>
      value = serverBusyJson .null ∨
        ∃ responses, value = .array responses ∧
          List.Forall₂ service.Responds requests responses

/-- An envelope that is answered in kind; an empty batch is none. -/
def Regular (envelope : RpcEnvelope) : Prop :=
  match envelope with
  | .single request => service.KeepsId request
  | .batch requests => requests ≠ []

end WsService

variable {service : WsService} {request : RpcRequest}

theorem forwardToEl_hasId (text : U256Text) (config : GasConfig)
    (answer : ElAnswer) (request : RpcRequest) :
    HasId request.id (forwardToEl text config answer request) := by
  have kept (response : Json) (same : HasId request.id response)
      (change : Json → Json) :
      HasId request.id (response.modifyField "result" change) := by
    rw [HasId, Json.get?_modifyField, if_neg (by decide)]
    exact same
  obtain ⟨minFloorWei, computed, _⟩ := exists_minFloorWei config
  unfold forwardToEl
  cases sent : answer.send request with
  | error reason => exact get?_id_jsonRpcError _ _ _
  | ok response =>
      have same := answer.echoes request response sent
      dsimp only
      split
      · rw [floorGasPriceValue_eq computed]
        exact kept response same _
      · split
        · rw [floorFeeHistoryValue_eq computed]
          exact kept response same _
        · exact same

theorem execute_hasId {circumstances : Circumstances} {response : Json}
    (keeps : service.KeepsId request)
    (executed : service.execute circumstances request = .ok response) :
    HasId request.id response := by
  unfold WsService.execute routeAndProcess at executed
  split at executed
  · rename_i refusal refused
    cases executed
    unfold validateRequestAuthorization at refused
    split at refused
    · cases refused
      exact get?_id_jsonRpcError _ _ _
    · split at refused
      · cases refused
        exact get?_id_jsonRpcError _ _ _
      · cases refused
  · rename_i authorized
    split at executed
    · rename_i isRaw
      rcases keeps isRaw with readOnly | ⟨nonNull, decodable⟩
      · have writes : isWriteMethod "eth_sendRawTransaction" = true := by
          decide
        have allowed : isMethodAllowed "eth_sendRawTransaction" = true := by
          decide
        simp [validateRequestAuthorization, isRaw, readOnly, writes, allowed]
          at authorized
      · obtain ⟨other, processed, same⟩ :=
          processTransaction_hasId nonNull decodable
        cases executed.symm.trans processed
        exact same
    · cases executed
      exact forwardToEl_hasId _ _ _ _

private theorem hasId_of_responds {response : Json}
    (keeps : service.KeepsId request)
    (responds : service.Responds request response) :
    HasId request.id response := by
  unfold WsService.Responds at responds
  split at responds
  · rw [responds]
    exact get?_id_jsonRpcError _ _ _
  · obtain ⟨circumstances, executed⟩ := responds
    exact execute_hasId keeps executed

theorem answersInKind_of_replies {envelope : RpcEnvelope} {value : Json}
    (regular : service.Regular envelope)
    (replies : service.Replies envelope value) :
    service.AnswersInKind envelope value := by
  cases envelope with
  | single request =>
      rcases replies with rfl | responds
      · exact get?_id_jsonRpcError _ _ _
      · exact hasId_of_responds regular responds
  | batch requests =>
      cases requests with
      | nil => exact absurd rfl regular
      | cons first rest => exact replies

end Answers

section Tasks

variable {service : WsService} {task : RpcTask}

/-- A future has the request of its envelope, and a response to it when it is
done. -/
structure Item.Serves (service : WsService) (item : Item) : Prop where
  executes : item.isExecuting = true →
    isSubscriptionMethod item.request.method = false
  responds : ∀ response, item.response? = some response →
    service.Responds item.request response

structure RpcTask.Serves (service : WsService) (task : RpcTask) : Prop where
  requests : task.items.map Item.request = task.envelope.requests
  permits :
    task.permits = min task.envelope.requests.length maxInflightRequests
  nonempty : task.envelope.requests ≠ []
  awaits : task.envelope.Awaits
  items : ∀ item ∈ task.items, item.Serves service

theorem RpcTask.executing_le (serves : task.Serves service) :
    task.executing ≤ task.envelope.executed := by
  rw [RpcEnvelope.executed, ← serves.requests, List.countP_map]
  apply List.countP_mono_left
  intro item member executing
  have proceeds := (serves.items item member).executes executing
  simp [proceeds]

/-- A task stays within its permits when its batch stays within the limit. -/
theorem RpcTask.executing_le_permits (serves : task.Serves service)
    (fits : task.envelope.executed ≤ maxInflightRequests) :
    task.executing ≤ task.permits := by
  have below := RpcTask.executing_le serves
  have whole : task.envelope.executed ≤ task.envelope.requests.length :=
    List.countP_le_length
  rw [serves.permits]
  omega

theorem serves_spawned {envelope : RpcEnvelope} {permits : Nat} (number : Nat)
    (enough : permits = min envelope.requests.length maxInflightRequests)
    (nonempty : envelope.requests ≠ []) (awaits : envelope.Awaits) :
    (RpcTask.spawned number envelope permits).Serves service where
  requests := by
    change (envelope.requests.map fun request =>
      (⟨request, .waiting⟩ : Item)).map Item.request = envelope.requests
    rw [List.map_map]
    exact List.map_id _
  permits := enough
  nonempty := nonempty
  awaits := awaits
  items := by
    intro item member
    obtain ⟨request, _, rfl⟩ := List.mem_map.mp member
    constructor
    · intro executing
      cases executing
    · intro response done
      cases done

theorem Item.serves_of_poll {item polled : Item}
    (advances : item.poll = some polled) :
    polled.request = item.request ∧ polled.Serves service := by
  unfold Item.poll at advances
  cases progress : item.progress with
  | waiting =>
      rw [progress] at advances
      dsimp only at advances
      split at advances
      · rename_i subscription
        cases advances
        refine ⟨rfl, ?_, ?_⟩
        · intro executing
          cases executing
        · intro response done
          cases done
          rw [WsService.Responds, if_pos subscription]
      · rename_i proceeds
        cases advances
        refine ⟨rfl, ?_, ?_⟩
        · intro _
          exact Bool.eq_false_iff.mpr proceeds
        · intro response done
          cases done
  | executing =>
      rw [progress] at advances
      cases advances
  | done response =>
      rw [progress] at advances
      cases advances

theorem Item.Serves.of_return {item returned : Item}
    {circumstances : Circumstances} (serves : item.Serves service)
    (advances : item.return service circumstances = some returned) :
    returned.request = item.request ∧ returned.Serves service := by
  unfold Item.return at advances
  cases progress : item.progress with
  | waiting =>
      rw [progress] at advances
      cases advances
  | executing =>
      rw [progress] at advances
      dsimp only at advances
      have proceeds := serves.executes (by rw [Item.isExecuting, progress])
      cases executed : service.execute circumstances item.request with
      | error fault =>
          rw [executed] at advances
          cases advances
      | ok response =>
          rw [executed] at advances
          cases advances
          refine ⟨rfl, ?_, ?_⟩
          · intro executing
            cases executing
          · intro other done
            cases done
            unfold WsService.Responds
            rw [proceeds, if_neg Bool.false_ne_true]
            exact ⟨circumstances, executed⟩
  | done response =>
      rw [progress] at advances
      cases advances

/-- A future that advances leaves the rest of its task alone. -/
theorem RpcTask.Serves.advance {index : Nat}
    {advances : Item → Option Item} {changed : RpcTask}
    (serves : task.Serves service)
    (keeps : ∀ item advanced, item.Serves service →
      advances item = some advanced →
      advanced.request = item.request ∧ advanced.Serves service)
    (advanced : (RpcTask.advance index advances).apply task = some changed) :
    changed.Serves service ∧ changed.number = task.number ∧
      changed.envelope = task.envelope ∧ changed.answered = task.answered := by
  unfold RpcTask.advance at advanced
  dsimp only at advanced
  split at advanced
  · cases advanced
  · rename_i item found
    obtain ⟨other, advances, rfl⟩ := Option.map_eq_some_iff.mp advanced
    obtain ⟨before, after, whole, rfl⟩ := exists_split found
    have member : item ∈ task.items := List.mem_of_getElem? found
    obtain ⟨sameRequest, otherServes⟩ :=
      keeps item other (serves.items item member) advances
    have replaced : task.items.set before.length other =
        before ++ other :: after := by
      rw [whole, List.set_append_right _ _ le_rfl, Nat.sub_self,
        List.set_cons_zero]
    refine ⟨⟨?_, serves.permits, serves.nonempty, serves.awaits, ?_⟩, rfl, rfl,
      rfl⟩
    · have requests := serves.requests
      rw [whole, List.map_append, List.map_cons] at requests
      dsimp only
      rw [replaced, List.map_append, List.map_cons, sameRequest]
      exact requests
    · intro one isOne
      dsimp only at isOne
      rw [replaced] at isOne
      rcases List.mem_append.mp isOne with earlier | rest
      · apply serves.items
        rw [whole]
        exact List.mem_append_left _ earlier
      · rcases List.mem_cons.mp rest with rfl | later
        · exact otherServes
        · apply serves.items
          rw [whole]
          exact List.mem_append_right _ (List.mem_cons_of_mem _ later)

theorem responds_of_mapM {items : List Item} {responses : List Json}
    (serves : ∀ item ∈ items, item.Serves service)
    (collected : items.mapM Item.response? = some responses) :
    List.Forall₂ service.Responds (items.map Item.request) responses := by
  induction items generalizing responses with
  | nil =>
      cases collected
      exact .nil
  | cons item items ih =>
      rw [List.mapM_cons] at collected
      obtain ⟨response, done, continued⟩ := Option.bind_eq_some_iff.mp collected
      obtain ⟨others, rest, finished⟩ := Option.bind_eq_some_iff.mp continued
      cases finished
      refine .cons ?_ (ih ?_ rest)
      · exact (serves item List.mem_cons_self).responds response done
      · intro other member
        exact serves other (List.mem_cons_of_mem _ member)

theorem RpcTask.Serves.replies {value : Json} (serves : task.Serves service)
    (responded : task.response? = some value) :
    service.Replies task.envelope value := by
  unfold RpcTask.response? at responded
  split at responded
  · cases responded
  · rename_i responses collected
    have responds := responds_of_mapM serves.items collected
    rw [serves.requests] at responds
    have nonempty := serves.nonempty
    cases isEnvelope : task.envelope with
    | single request =>
        rw [isEnvelope] at responded responds
        cases responds with
        | cons responds rest =>
            cases responded
            exact .inr responds
    | batch requests =>
        rw [isEnvelope] at responded responds nonempty
        cases responded
        cases requests with
        | nil => exact absurd rfl nonempty
        | cons first rest => exact .inr ⟨responses, rfl, responds⟩

end Tasks

namespace Connection

variable {service : WsService} {connection next : Connection}

/-- A task has yet to answer the envelope. -/
def Pending (connection : Connection) (number : Nat) : Prop :=
  ∃ task ∈ connection.inflight.holders,
    task.number = number ∧ task.answered = false

/-- Either a task has yet to answer the envelope, or it has one answer. -/
def Settles (service : WsService) (connection : Connection) (number : Nat)
    (envelope : RpcEnvelope) : Prop :=
  connection.Pending number ∧ connection.answersTo number = [] ∨
    ¬connection.Pending number ∧
      ∃ value, connection.answersTo number = [value] ∧
        service.Replies envelope value

structure Accounted (service : WsService) (connection : Connection) :
    Prop where
  tasks : ∀ task ∈ connection.inflight.holders, task.Serves service ∧
    connection.envelopes[task.number]? = some task.envelope
  distinct : (connection.inflight.holders.map RpcTask.number).Nodup
  unsent : ∀ number, connection.envelopes.length ≤ number →
    connection.answersTo number = []
  settles : connection.Open → ∀ number envelope,
    connection.envelopes[number]? = some envelope → envelope.Awaits →
      connection.Settles service number envelope

theorem accounted_opened : Accounted service opened where
  tasks := by
    intro task member
    cases member
  distinct := List.nodup_nil
  unsent _ _ := rfl
  settles := by
    intro _ number envelope found
    cases found

section Messages

/-- No envelope is received and none is answered. -/
structure Quiet (connection next : Connection) : Prop where
  holders : next.inflight.holders = connection.inflight.holders
  envelopes : next.envelopes = connection.envelopes
  answers : ∀ number, next.answersTo number = connection.answersTo number
  stillOpen : next.Open → connection.Open

/-- The main loop answers an envelope, or breaks. -/
structure RepliesTo (number : Nat) (value : Json)
    (connection next : Connection) : Prop where
  holders : next.inflight.holders = connection.inflight.holders
  envelopes : next.envelopes = connection.envelopes
  others : ∀ other, other ≠ number →
    next.answersTo other = connection.answersTo other
  reply : next.Open → connection.Open ∧
    next.answersTo number = connection.answersTo number ++ [value]

theorem answersTo_append (outgoing : Outgoing)
    (sent : next.sent = connection.sent ++ [outgoing]) (number : Nat) :
    next.answersTo number =
      connection.answersTo number ++ (outgoing.answerTo number).toList := by
  rw [answersTo, answersTo, sent, List.filterMap_append]
  cases answer : outgoing.answerTo number with
  | none =>
      rw [List.filterMap_cons_none answer]
      rfl
  | some value =>
      rw [List.filterMap_cons_some answer]
      rfl

theorem answersTo_of_other {outgoing : Outgoing} {number : Nat}
    (sent : next.sent = connection.sent ++ [outgoing])
    (other : outgoing.answerTo number = none) :
    next.answersTo number = connection.answersTo number := by
  rw [answersTo_append outgoing sent, other]
  exact List.append_nil _

theorem repliesTo_append (connection : Connection) (number : Nat)
    (value : Json) :
    RepliesTo number value connection
      { connection with
        sent := connection.sent ++ [.response (some number) value] } := by
  refine ⟨rfl, rfl, ?_, ?_⟩
  · intro other different
    apply answersTo_of_other rfl
    exact if_neg different.symm
  · intro isOpen
    refine ⟨isOpen, ?_⟩
    rw [answersTo_append _ rfl, Outgoing.answerTo, if_pos rfl]
    rfl

theorem repliesTo_sendValue (connection : Connection) (number : Nat)
    (value : Json) :
    RepliesTo number value connection
      (connection.sendValue (some number) value) := by
  unfold sendValue
  split
  · exact repliesTo_append connection number value
  · refine ⟨rfl, rfl, fun _ _ => rfl, ?_⟩
    intro isOpen
    cases isOpen.1

theorem repliesTo_answer (connection : Connection) (number : Nat)
    (value : Json) :
    RepliesTo number value connection
      { connection with
        sent :=
          if connection.writing then
            connection.sent ++ [.response (some number) value]
          else connection.sent } := by
  cases writing : connection.writing with
  | true =>
      have replies := repliesTo_append connection number value
      rw [writing] at replies
      exact replies
  | false =>
      refine ⟨rfl, rfl, fun _ _ => rfl, ?_⟩
      intro isOpen
      cases isOpen.2

theorem quiet_stop (connection : Connection) :
    Quiet connection { connection with reading := false } where
  holders := rfl
  envelopes := rfl
  answers _ := rfl
  stillOpen := by
    intro isOpen
    cases isOpen.1

private theorem quiet_sendValue (connection : Connection) (value : Json) :
    Quiet connection (connection.sendValue none value) := by
  unfold sendValue
  split
  · exact ⟨rfl, rfl, fun _ => answersTo_of_other rfl rfl, id⟩
  · exact quiet_stop connection

theorem Pending.congr
    (holders : next.inflight.holders = connection.inflight.holders)
    (number : Nat) : next.Pending number ↔ connection.Pending number := by
  unfold Pending
  rw [holders]

theorem Accounted.of_quiet (accounted : Accounted service connection)
    (quiet : Quiet connection next) : Accounted service next where
  tasks := by
    rw [quiet.holders, quiet.envelopes]
    exact accounted.tasks
  distinct := by
    rw [quiet.holders]
    exact accounted.distinct
  unsent := by
    intro number
    rw [quiet.envelopes, quiet.answers]
    exact accounted.unsent number
  settles := by
    intro isOpen number envelope
    rw [quiet.envelopes, Settles, Pending.congr quiet.holders, quiet.answers]
    exact accounted.settles (quiet.stillOpen isOpen) number envelope

theorem Accounted.number_lt (accounted : Accounted service connection)
    {task : RpcTask} (member : task ∈ connection.inflight.holders) :
    task.number < connection.envelopes.length :=
  (List.getElem?_eq_some_iff.mp (accounted.tasks task member).2).1

theorem Accounted.not_pending (accounted : Accounted service connection)
    {number : Nat} (new : connection.envelopes.length ≤ number) :
    ¬connection.Pending number := by
  rintro ⟨task, member, rfl, _⟩
  exact absurd (accounted.number_lt member) (Nat.not_lt.mpr new)

theorem Accounted.tasks_append (accounted : Accounted service connection)
    (envelope : RpcEnvelope) {task : RpcTask}
    (member : task ∈ connection.inflight.holders) :
    task.Serves service ∧
      (connection.envelopes ++ [envelope])[task.number]? =
        some task.envelope := by
  refine ⟨(accounted.tasks task member).1, ?_⟩
  rw [List.getElem?_append_left (accounted.number_lt member)]
  exact (accounted.tasks task member).2

theorem getElem?_concat {envelopes : List RpcEnvelope}
    {envelope received : RpcEnvelope} {number : Nat}
    (found : (envelopes ++ [received])[number]? = some envelope) :
    envelopes[number]? = some envelope ∧ number ≠ envelopes.length ∨
      number = envelopes.length ∧ envelope = received := by
  rcases Nat.lt_trichotomy number envelopes.length with before | rfl | after
  · rw [List.getElem?_append_left before] at found
    exact .inl ⟨found, Nat.ne_of_lt before⟩
  · rw [List.getElem?_concat_length] at found
    exact .inr ⟨rfl, (Option.some.inj found).symm⟩
  · have outside : (envelopes ++ [received]).length ≤ number := by
      rw [List.length_append]
      exact after
    rw [List.getElem?_eq_none outside] at found
    cases found

theorem Accounted.of_reply (accounted : Accounted service connection)
    {envelope : RpcEnvelope} {value : Json}
    (replies : RepliesTo connection.envelopes.length value
      { connection with envelopes := connection.envelopes ++ [envelope] } next)
    (valid : envelope.Awaits → service.Replies envelope value) :
    Accounted service next where
  tasks := by
    rw [replies.holders, replies.envelopes]
    intro task member
    exact accounted.tasks_append envelope member
  distinct := by
    rw [replies.holders]
    exact accounted.distinct
  unsent := by
    intro number
    rw [replies.envelopes, List.length_append]
    intro unreceived
    rw [replies.others number (Nat.ne_of_gt unreceived)]
    exact accounted.unsent number (Nat.le_of_succ_le unreceived)
  settles := by
    intro isOpen number received found awaits
    obtain ⟨wasOpen, reply⟩ := replies.reply isOpen
    have pending := Pending.congr replies.holders number
    rw [replies.envelopes] at found
    rcases getElem?_concat found with ⟨earlier, different⟩ | ⟨rfl, rfl⟩
    · rw [Settles, pending, replies.others number different]
      exact accounted.settles wasOpen number received earlier awaits
    · refine .inr ⟨?_, value, ?_, valid awaits⟩
      · rw [pending]
        exact accounted.not_pending le_rfl
      · rw [reply]
        exact congrArg (· ++ [value]) (accounted.unsent _ le_rfl)

theorem Accounted.of_silence (accounted : Accounted service connection)
    {envelope : RpcEnvelope}
    (quiet : Quiet
      { connection with envelopes := connection.envelopes ++ [envelope] } next)
    (valid : next.Open → ¬envelope.Awaits) : Accounted service next where
  tasks := by
    rw [quiet.holders, quiet.envelopes]
    intro task member
    exact accounted.tasks_append envelope member
  distinct := by
    rw [quiet.holders]
    exact accounted.distinct
  unsent := by
    intro number
    rw [quiet.envelopes, List.length_append, quiet.answers]
    intro unreceived
    exact accounted.unsent number (Nat.le_of_succ_le unreceived)
  settles := by
    intro isOpen number received found awaits
    rw [quiet.envelopes] at found
    rcases getElem?_concat found with ⟨earlier, _⟩ | ⟨_, rfl⟩
    · rw [Settles, Pending.congr quiet.holders, quiet.answers]
      exact accounted.settles (quiet.stillOpen isOpen) number received earlier
        awaits
    · exact absurd awaits (valid isOpen)

theorem Accounted.of_spawned (accounted : Accounted service connection)
    {envelope : RpcEnvelope} {permits : Nat}
    {inflight : Pool RpcTask.permits maxInflightRequests}
    (serves : (RpcTask.spawned connection.envelopes.length envelope
      permits).Serves service)
    (holders : inflight.holders = connection.inflight.holders ++
      [.spawned connection.envelopes.length envelope permits]) :
    Accounted service
      { connection with
        envelopes := connection.envelopes ++ [envelope]
        inflight } where
  tasks := by
    intro task member
    dsimp only at member
    rw [holders] at member
    rcases List.mem_append.mp member with old | new
    · exact accounted.tasks_append envelope old
    · rw [List.mem_singleton.mp new]
      exact ⟨serves, List.getElem?_concat_length⟩
  distinct := by
    dsimp only
    rw [holders, List.map_append]
    apply accounted.distinct.append (List.nodup_singleton _)
    intro number old new
    obtain ⟨task, member, rfl⟩ := List.mem_map.mp old
    have less := accounted.number_lt member
    rw [List.mem_singleton.mp new] at less
    exact Nat.lt_irrefl _ less
  unsent := by
    intro number
    dsimp only
    rw [List.length_append]
    intro unreceived
    exact accounted.unsent number (Nat.le_of_succ_le unreceived)
  settles := by
    intro isOpen number received found awaits
    have pending : Pending
        { connection with
          envelopes := connection.envelopes ++ [envelope]
          inflight } number ↔
        connection.Pending number ∨ number = connection.envelopes.length := by
      unfold Pending
      dsimp only
      rw [holders]
      constructor
      · rintro ⟨task, member, isNumber, unanswered⟩
        rcases List.mem_append.mp member with old | new
        · exact .inl ⟨task, old, isNumber, unanswered⟩
        · rw [List.mem_singleton.mp new] at isNumber
          exact .inr isNumber.symm
      · rintro (⟨task, old, isNumber, unanswered⟩ | rfl)
        · exact ⟨task, List.mem_append_left _ old, isNumber, unanswered⟩
        · exact ⟨_, List.mem_append_right _ List.mem_cons_self, rfl, rfl⟩
    rw [Settles, pending]
    rcases getElem?_concat found with ⟨earlier, different⟩ | ⟨rfl, _⟩
    · rw [or_iff_left different]
      exact accounted.settles isOpen number received earlier awaits
    · exact .inl ⟨.inr rfl, accounted.unsent _ le_rfl⟩

theorem Accounted.spawn (accounted : Accounted service connection)
    {envelope : RpcEnvelope} {permits : Nat} {busyId : Json}
    (enough : permits = min envelope.requests.length maxInflightRequests)
    (nonempty : envelope.requests ≠ []) (awaits : envelope.Awaits)
    (busy : service.Replies envelope (serverBusyJson busyId)) :
    Accounted service
      (({ connection with
        envelopes := connection.envelopes ++ [envelope] } : Connection).spawn
        (.spawned connection.envelopes.length envelope permits) busyId) := by
  unfold Connection.spawn
  split
  · rename_i inflight acquired
    exact accounted.of_spawned (serves_spawned _ enough nonempty awaits)
      (Pool.holders_of_tryAcquire acquired)
  · exact accounted.of_reply (repliesTo_sendValue _ _ _) fun _ => busy

theorem Accounted.subscription (accounted : Accounted service connection)
    {request : RpcRequest}
    (subscription : isSubscriptionMethod request.method = true) :
    Accounted service
      (({ connection with
        envelopes := connection.envelopes ++ [.single request] } :
          Connection).processSubscriptionRequest service
            connection.envelopes.length request) := by
  have noAnswer : ¬(RpcEnvelope.single request).Awaits := by
    intro awaits
    cases awaits.symm.trans subscription
  unfold processSubscriptionRequest
  split
  · exact accounted.of_reply (repliesTo_sendValue _ _ _) fun awaits =>
      absurd awaits noAnswer
  · split
    · exact accounted.of_silence ⟨rfl, rfl, fun _ => rfl, id⟩ fun _ => noAnswer
    · exact accounted.of_silence (quiet_stop _) fun _ => noAnswer

theorem Accounted.receiveEnvelope (accounted : Accounted service connection)
    (envelope : RpcEnvelope) :
    Accounted service (connection.receiveEnvelope service envelope) := by
  unfold Connection.receiveEnvelope
  cases envelope with
  | single request =>
      dsimp only
      split
      · rename_i subscription
        exact accounted.subscription subscription
      · rename_i proceeds
        exact accounted.spawn rfl (List.cons_ne_nil _ _)
          (Bool.eq_false_iff.mpr proceeds) (.inl rfl)
  | batch requests =>
      cases requests with
      | nil =>
          exact accounted.of_reply (repliesTo_sendValue _ _ _) fun _ => rfl
      | cons first rest =>
          exact accounted.spawn rfl (List.cons_ne_nil _ _) trivial (.inl rfl)

theorem Accounted.receiveText (accounted : Accounted service connection)
    (text : String) :
    Accounted service (connection.receiveText service text) := by
  unfold Connection.receiveText
  split
  · exact accounted.receiveEnvelope _
  · exact accounted.of_quiet (quiet_sendValue _ _)

theorem Accounted.receive (accounted : Accounted service connection)
    (message : ClientMessage) :
    Accounted service (connection.receive service message) := by
  have ended : Accounted service { connection with reading := false } :=
    accounted.of_quiet (quiet_stop connection)
  cases message with
  | text text => exact accounted.receiveText text
  | binary bytes =>
      unfold Connection.receive
      dsimp only
      split
      · exact accounted.receiveText _
      · exact accounted
  | ping => exact accounted
  | pong => exact accounted
  | close => exact ended
  | readError => exact ended
  | streamEnded => exact ended
  | idleTimeout => exact ended

end Messages

section TaskEvents

variable {before after : List RpcTask} {task : RpcTask}
  {inflight : Pool RpcTask.permits maxInflightRequests}

theorem Accounted.released (accounted : Accounted service connection)
    (whole : connection.inflight.holders = before ++ task :: after)
    (holders : inflight.holders = before ++ after)
    (answered : connection.Open → task.answered = true) :
    Accounted service { connection with inflight } := by
  have kept {other : RpcTask} (member : other ∈ inflight.holders) :
      other ∈ connection.inflight.holders := by
    rw [holders] at member
    rw [whole]
    rcases List.mem_append.mp member with earlier | later
    · exact List.mem_append_left _ earlier
    · exact List.mem_append_right _ (List.mem_cons_of_mem _ later)
  constructor
  · intro other member
    exact accounted.tasks other (kept member)
  · have distinct := accounted.distinct
    rw [whole, List.map_append, List.map_cons] at distinct
    dsimp only
    rw [holders, List.map_append]
    exact (List.nodup_middle.mp distinct).of_cons
  · exact accounted.unsent
  · intro isOpen number envelope found awaits
    have pending : Pending { connection with inflight } number ↔
        connection.Pending number := by
      constructor
      · rintro ⟨other, member, isNumber, unanswered⟩
        exact ⟨other, kept member, isNumber, unanswered⟩
      · rintro ⟨other, member, isNumber, unanswered⟩
        refine ⟨other, ?_, isNumber, unanswered⟩
        rw [whole] at member
        dsimp only
        rw [holders]
        rcases List.mem_append.mp member with earlier | rest
        · exact List.mem_append_left _ earlier
        · rcases List.mem_cons.mp rest with rfl | later
          · cases unanswered.symm.trans (answered isOpen)
          · exact List.mem_append_right _ later
    rw [Settles, pending]
    exact accounted.settles isOpen number envelope found awaits

theorem Accounted.mem_answered (accounted : Accounted service connection)
    (whole : connection.inflight.holders = before ++ task :: after)
    {changed other : RpcTask} :
    other ∈ before ++ changed :: after ↔
      other = changed ∨
        other ∈ connection.inflight.holders ∧ other.number ≠ task.number := by
  have distinct := accounted.distinct
  rw [whole, List.map_append, List.map_cons] at distinct
  have unlike (elsewhere : other ∈ before ++ after) :
      other.number ≠ task.number := by
    intro same
    apply (List.nodup_cons.mp (List.nodup_middle.mp distinct)).1
    rw [← same, ← List.map_append]
    exact List.mem_map_of_mem elsewhere
  rw [whole]
  simp only [List.mem_append, List.mem_cons] at unlike ⊢
  constructor
  · rintro (earlier | isChanged | later)
    · exact .inr ⟨.inl earlier, unlike (.inl earlier)⟩
    · exact .inl isChanged
    · exact .inr ⟨.inr (.inr later), unlike (.inr later)⟩
  · rintro (isChanged | ⟨earlier | isTask | later, different⟩)
    · exact .inr (.inl isChanged)
    · exact .inl earlier
    · exact absurd (congrArg RpcTask.number isTask) different
    · exact .inr (.inr later)

theorem Accounted.pending_answered (accounted : Accounted service connection)
    (whole : connection.inflight.holders = before ++ task :: after)
    (holders : inflight.holders =
      before ++ { task with answered := true } :: after) (number : Nat) :
    Pending { connection with inflight } number ↔
      connection.Pending number ∧ number ≠ task.number := by
  unfold Pending
  dsimp only
  simp only [holders, accounted.mem_answered whole]
  constructor
  · rintro ⟨other, rfl | ⟨old, different⟩, rfl, unanswered⟩
    · cases unanswered
    · exact ⟨⟨other, old, rfl, unanswered⟩, different⟩
  · rintro ⟨⟨other, old, rfl, unanswered⟩, different⟩
    exact ⟨other, .inr ⟨old, different⟩, rfl, unanswered⟩

theorem Accounted.answered (accounted : Accounted service connection)
    (whole : connection.inflight.holders = before ++ task :: after)
    (holders : inflight.holders =
      before ++ { task with answered := true } :: after)
    (unanswered : task.answered = false) {response : Json}
    (responded : task.response? = some response) :
    Accounted service
      { connection with
        inflight
        sent :=
          if connection.writing then
            connection.sent ++ [.response (some task.number) response]
          else connection.sent } := by
  have isTask : task ∈ connection.inflight.holders := by
    rw [whole]
    exact List.mem_append_right _ List.mem_cons_self
  obtain ⟨serves, known⟩ := accounted.tasks task isTask
  have replies := repliesTo_answer { connection with inflight } task.number
    response
  constructor
  · dsimp only
    rw [holders]
    intro other member
    rcases (accounted.mem_answered whole).mp member with rfl | ⟨old, _⟩
    · exact ⟨⟨serves.requests, serves.permits, serves.nonempty, serves.awaits,
        serves.items⟩, known⟩
    · exact accounted.tasks other old
  · have distinct := accounted.distinct
    rw [whole, List.map_append, List.map_cons] at distinct
    dsimp only
    rw [holders, List.map_append, List.map_cons]
    exact distinct
  · intro number unreceived
    have later := Nat.lt_of_lt_of_le (accounted.number_lt isTask) unreceived
    rw [replies.others number (Nat.ne_of_gt later)]
    exact accounted.unsent number unreceived
  · intro isOpen number envelope found awaits
    obtain ⟨wasOpen, reply⟩ := replies.reply isOpen
    have settles := accounted.settles wasOpen number envelope found awaits
    have pending := accounted.pending_answered whole holders number
    by_cases same : number = task.number
    · subst same
      cases known.symm.trans found
      refine .inr ⟨fun isPending => (pending.mp isPending).2 rfl, response, ?_,
        serves.replies responded⟩
      rcases settles with ⟨_, none⟩ | ⟨notPending, _⟩
      · rw [reply]
        exact congrArg (· ++ [response]) none
      · exact absurd ⟨task, isTask, rfl, unanswered⟩ notPending
    · rw [Settles, replies.others number same]
      rcases settles with ⟨isPending, none⟩ | ⟨notPending, replied⟩
      · exact .inl ⟨pending.mpr ⟨isPending, same⟩, none⟩
      · exact .inr ⟨fun isPending => notPending (pending.mp isPending).1,
          replied⟩

theorem Accounted.of_advance (accounted : Accounted service connection)
    {index item : Nat}
    {advances : Item → Option Item}
    (keeps : ∀ item advanced, item.Serves service →
      advances item = some advanced →
      advanced.request = item.request ∧ advanced.Serves service)
    (modified : connection.inflight.modify index
      (RpcTask.advance item advances) = some inflight) :
    Accounted service { connection with inflight } := by
  obtain ⟨before, task, changed, after, whole, _, advanced, holders⟩ :=
    Pool.holders_of_modify modified
  have member : task ∈ connection.inflight.holders := by
    rw [whole]
    exact List.mem_append_right _ List.mem_cons_self
  obtain ⟨serves, known⟩ := accounted.tasks task member
  obtain ⟨changedServes, sameNumber, sameEnvelope, sameAnswered⟩ :=
    serves.advance keeps advanced
  have pending (number : Nat) :
      Pending { connection with inflight } number ↔
        connection.Pending number := by
    unfold Pending
    dsimp only
    rw [holders, whole]
    simp only [List.mem_append, List.mem_cons, or_and_right, exists_or,
      exists_eq_left, sameNumber, sameAnswered]
  constructor
  · intro other isOther
    dsimp only at isOther
    rw [holders] at isOther
    rcases List.mem_append.mp isOther with earlier | rest
    · apply accounted.tasks
      rw [whole]
      exact List.mem_append_left _ earlier
    · rcases List.mem_cons.mp rest with rfl | later
      · rw [sameNumber, sameEnvelope]
        exact ⟨changedServes, known⟩
      · apply accounted.tasks
        rw [whole]
        exact List.mem_append_right _ (List.mem_cons_of_mem _ later)
  · have distinct := accounted.distinct
    rw [whole, List.map_append, List.map_cons] at distinct
    dsimp only
    rw [holders, List.map_append, List.map_cons, sameNumber]
    exact distinct
  · exact accounted.unsent
  · intro isOpen number envelope found awaits
    rw [Settles, pending]
    exact accounted.settles isOpen number envelope found awaits

theorem Accounted.of_answer (accounted : Accounted service connection)
    {index : Nat} (answered : connection.answer index = some next) :
    Accounted service next := by
  unfold Connection.answer at answered
  split at answered
  · cases answered
  · rename_i task found
    split at answered
    · cases answered
    · rename_i unanswered
      split at answered
      · cases answered
      · rename_i response responded
        obtain ⟨inflight, modified, rfl⟩ := Option.map_eq_some_iff.mp answered
        obtain ⟨before, other, changed, after, whole, same, marked, holders⟩ :=
          Pool.holders_of_modify modified
        cases found.symm.trans same
        cases marked
        exact accounted.answered whole holders
          (Bool.eq_false_iff.mpr unanswered) responded

theorem Accounted.of_finish (accounted : Accounted service connection)
    {index : Nat} (finished : connection.finish index = some next) :
    Accounted service next := by
  unfold Connection.finish at finished
  split at finished
  · cases finished
  · rename_i task found
    split at finished
    · rename_i answered
      obtain ⟨inflight, released, rfl⟩ := Option.map_eq_some_iff.mp finished
      obtain ⟨before, other, after, whole, same, holders⟩ :=
        Pool.holders_of_release released
      cases found.symm.trans same
      exact accounted.released whole holders fun _ => answered
    · cases finished

end TaskEvents

theorem Accounted.advances {event : WsEvent}
    (accounted : Accounted service connection)
    (advances : connection.Advances service event next) :
    Accounted service next := by
  cases event with
  | receives message =>
      unfold Advances perform at advances
      dsimp only at advances
      split at advances
      · cases advances
        exact accounted.receive message
      · cases advances
  | polls task item =>
      obtain ⟨inflight, modified, rfl⟩ := Option.map_eq_some_iff.mp advances
      exact accounted.of_advance (fun _ _ _ => Item.serves_of_poll) modified
  | returns task item circumstances =>
      obtain ⟨inflight, modified, rfl⟩ := Option.map_eq_some_iff.mp advances
      exact accounted.of_advance (fun _ _ serves => serves.of_return) modified
  | answers task => exact accounted.of_answer advances
  | ends task => exact accounted.of_finish advances
  | aborts task =>
      unfold Advances perform at advances
      dsimp only at advances
      split at advances
      · cases advances
      · rename_i stopped
        obtain ⟨inflight, released, rfl⟩ := Option.map_eq_some_iff.mp advances
        obtain ⟨before, other, after, whole, _, holders⟩ :=
          Pool.holders_of_release released
        exact accounted.released whole holders fun isOpen =>
          absurd isOpen.1 stopped
  | relays text =>
      unfold Advances perform at advances
      dsimp only at advances
      split at advances
      · cases advances
        exact accounted.of_quiet
          ⟨rfl, rfl, fun _ => answersTo_of_other rfl rfl, id⟩
      · cases advances
  | writerStops =>
      cases advances
      have quiet : Quiet connection { connection with writing := false } := by
        refine ⟨rfl, rfl, fun _ => rfl, ?_⟩
        intro isOpen
        cases isOpen.2
      exact accounted.of_quiet quiet
  | upstreamBreaks =>
      cases advances
      exact accounted.of_quiet ⟨rfl, rfl, fun _ => rfl, id⟩

theorem Accounted.executing_le (accounted : Accounted service connection)
    (fits : ∀ task ∈ connection.inflight.holders,
      task.envelope.executed ≤ maxInflightRequests) :
    connection.executing ≤ maxInflightRequests := by
  apply Pool.sum_le_capacity
  intro task member
  exact RpcTask.executing_le_permits (accounted.tasks task member).1
    (fits task member)

end Connection

end RpcProvider
