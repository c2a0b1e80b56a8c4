import Igra.RpcProvider.ConnectionAnswers
import Igra.Runs

/-!
# The limit of requests in flight

A task never executes more requests than it has permits, unless its batch has
more than there are.  Every event of a task takes some of its work away, and
what remains of the tasks can always go on.
-/

open Rust Kaswallet Semaphore

namespace RpcProvider

section Progress

/-- An event of a task that goes on with its work. -/
def WsEvent.OfTask : WsEvent → Prop
  | .receives _ => False
  | .polls _ _ => True
  | .returns _ _ _ => True
  | .answers _ => True
  | .ends _ => True
  | .aborts _ => False
  | .relays _ => False
  | .writerStops => False
  | .upstreamBreaks => False

/-- The events that a future still needs. -/
def Item.work (item : Item) : Nat :=
  match item.progress with
  | .waiting => 2
  | .executing => 1
  | .done _ => 0

def RpcTask.work (task : RpcTask) : Nat :=
  (task.items.map Item.work).sum + if task.answered then 1 else 2

def Connection.work (connection : Connection) : Nat :=
  (connection.inflight.holders.map RpcTask.work).sum

variable {service : WsService} {connection next : Connection}

theorem Item.work_of_poll {item polled : Item}
    (advances : item.poll = some polled) : polled.work < item.work := by
  unfold Item.poll at advances
  unfold Item.work
  cases progress : item.progress with
  | waiting =>
      rw [progress] at advances
      dsimp only at advances
      split at advances
      · cases advances
        exact Nat.zero_lt_two
      · cases advances
        exact Nat.one_lt_two
  | executing =>
      rw [progress] at advances
      cases advances
  | done response =>
      rw [progress] at advances
      cases advances

theorem Item.work_of_return {item returned : Item}
    {circumstances : Circumstances}
    (advances : item.return service circumstances = some returned) :
    returned.work < item.work := by
  unfold Item.return at advances
  unfold Item.work
  cases progress : item.progress with
  | waiting =>
      rw [progress] at advances
      cases advances
  | executing =>
      rw [progress] at advances
      dsimp only at advances
      split at advances
      · cases advances
        exact Nat.zero_lt_one
      · cases advances
  | done response =>
      rw [progress] at advances
      cases advances

theorem RpcTask.work_of_advance {task changed : RpcTask} {index : Nat}
    {advances : Item → Option Item}
    (less : ∀ item advanced, advances item = some advanced →
      advanced.work < item.work)
    (advanced : (RpcTask.advance index advances).apply task = some changed) :
    changed.work < task.work := by
  unfold RpcTask.advance at advanced
  dsimp only at advanced
  split at advanced
  · cases advanced
  · rename_i item found
    obtain ⟨other, advances, rfl⟩ := Option.map_eq_some_iff.mp advanced
    obtain ⟨before, after, whole, rfl⟩ := exists_split found
    have lighter := less item other advances
    unfold RpcTask.work
    dsimp only
    rw [whole, List.set_append_right _ _ le_rfl, Nat.sub_self,
      List.set_cons_zero]
    simp only [List.map_append, List.map_cons, List.sum_append, List.sum_cons]
    omega

namespace Connection

theorem work_of_modify
    {inflight : Pool RpcTask.permits maxInflightRequests} {index : Nat}
    {change : Change RpcTask.permits}
    (less : ∀ task changed, connection.inflight.holders[index]? = some task →
      change.apply task = some changed → changed.work < task.work)
    (modified : connection.inflight.modify index change = some inflight)
    (same : next.inflight = inflight) : next.work < connection.work := by
  obtain ⟨before, task, changed, after, whole, found, applied, holders⟩ :=
    Pool.holders_of_modify modified
  have lighter := less task changed found applied
  unfold work
  rw [same, holders, whole]
  simp only [List.map_append, List.map_cons, List.sum_append, List.sum_cons]
  omega

theorem work_lt {event : WsEvent} (ofTask : event.OfTask)
    (advances : connection.Advances service event next) :
    next.work < connection.work := by
  cases event with
  | receives message => cases ofTask
  | polls task item =>
      obtain ⟨inflight, modified, rfl⟩ := Option.map_eq_some_iff.mp advances
      refine work_of_modify ?_ modified rfl
      intro _ _ _ advanced
      exact RpcTask.work_of_advance (fun _ _ => Item.work_of_poll) advanced
  | returns task item circumstances =>
      obtain ⟨inflight, modified, rfl⟩ := Option.map_eq_some_iff.mp advances
      refine work_of_modify ?_ modified rfl
      intro _ _ _ advanced
      exact RpcTask.work_of_advance (fun _ _ => Item.work_of_return) advanced
  | answers task =>
      unfold Advances perform Connection.answer at advances
      dsimp only at advances
      split at advances
      · cases advances
      · rename_i found isFound
        split at advances
        · cases advances
        · rename_i unanswered
          split at advances
          · cases advances
          · obtain ⟨inflight, modified, rfl⟩ :=
              Option.map_eq_some_iff.mp advances
            refine work_of_modify ?_ modified rfl
            intro other changed same marked
            cases isFound.symm.trans same
            cases marked
            unfold RpcTask.work
            rw [if_neg unanswered, if_pos rfl]
            exact Nat.lt_succ_self _
  | ends task =>
      unfold Advances perform Connection.finish at advances
      dsimp only at advances
      split at advances
      · cases advances
      · split at advances
        · obtain ⟨inflight, released, rfl⟩ :=
            Option.map_eq_some_iff.mp advances
          obtain ⟨before, other, after, whole, _, holders⟩ :=
            Pool.holders_of_release released
          have heavy : 0 < other.work := by
            unfold RpcTask.work
            split
            · omega
            · omega
          unfold work
          dsimp only
          rw [holders, whole]
          simp only [List.map_append, List.map_cons, List.sum_append,
            List.sum_cons]
          omega
        · cases advances
  | aborts task => cases ofTask
  | relays text => cases ofTask
  | writerStops => cases ofTask
  | upstreamBreaks => cases ofTask

end Connection

end Progress

section Liveness

variable {service : WsService} {request : RpcRequest}

/-- A request that is executed gets a response. -/
theorem execute_returns (service : WsService) (circumstances : Circumstances)
    (request : RpcRequest) :
    ∃ response, service.execute circumstances request = .ok response := by
  unfold WsService.execute routeAndProcess
  split
  · exact ⟨_, rfl⟩
  · split
    · exact processTransaction_returns _ _ _ _
    · exact ⟨_, rfl⟩

theorem advance_apply {task : RpcTask} {index : Nat} {item advanced : Item}
    {advances : Item → Option Item} (found : task.items[index]? = some item)
    (applied : advances item = some advanced) :
    (RpcTask.advance index advances).apply task =
      some { task with items := task.items.set index advanced } := by
  unfold RpcTask.advance
  simp only [found, applied, Option.map_some]

theorem Item.response?_of_not_advancing {item : Item}
    (unpolled : item.poll = none)
    (unreturned : ∀ circumstances, item.return service circumstances = none) :
    ∃ response, item.response? = some response := by
  unfold Item.response?
  cases progress : item.progress with
  | waiting =>
      unfold Item.poll at unpolled
      rw [progress] at unpolled
      dsimp only at unpolled
      split at unpolled
      · cases unpolled
      · cases unpolled
  | executing =>
      have unreturned := unreturned default
      obtain ⟨response, executed⟩ :=
        execute_returns service default item.request
      unfold Item.return at unreturned
      rw [progress] at unreturned
      dsimp only at unreturned
      rw [executed] at unreturned
      cases unreturned
  | done response => exact ⟨response, rfl⟩

private theorem exists_mapM {items : List Item}
    (done : ∀ item ∈ items, ∃ response, item.response? = some response) :
    ∃ responses, items.mapM Item.response? = some responses ∧
      responses.length = items.length := by
  induction items with
  | nil => exact ⟨[], rfl, rfl⟩
  | cons item items ih =>
      obtain ⟨response, isDone⟩ := done item List.mem_cons_self
      obtain ⟨responses, collected, length⟩ := ih fun other member =>
        done other (List.mem_cons_of_mem _ member)
      refine ⟨response :: responses, ?_, congrArg (· + 1) length⟩
      rw [List.mapM_cons, isDone, collected]
      rfl

theorem RpcTask.Serves.response?_of_done {task : RpcTask}
    (serves : task.Serves service)
    (done : ∀ item ∈ task.items, ∃ response, item.response? = some response) :
    ∃ response, task.response? = some response := by
  obtain ⟨responses, collected, length⟩ := exists_mapM done
  unfold RpcTask.response?
  rw [collected]
  dsimp only
  cases isEnvelope : task.envelope with
  | batch requests => exact ⟨_, rfl⟩
  | single request =>
      have requests := congrArg List.length serves.requests
      rw [isEnvelope, List.length_map, ← length] at requests
      cases responses with
      | nil => cases requests
      | cons response rest => exact ⟨response, rfl⟩

variable {connection : Connection} {index : Nat} {task : RpcTask}

private theorem exists_answer
    (found : connection.inflight.holders[index]? = some task)
    (unanswered : task.answered = false) {response : Json}
    (responded : task.response? = some response) :
    ∃ next, connection.answer index = some next := by
  obtain ⟨inflight, modified, _⟩ := Pool.exists_modify found
    (show RpcTask.markAnswered.apply task = some _ from rfl)
  unfold Connection.answer
  simp only [found, unanswered, Bool.false_eq_true, if_false, responded,
    modified, Option.map_some]
  exact ⟨_, rfl⟩

private theorem exists_finish
    (found : connection.inflight.holders[index]? = some task)
    (answered : task.answered = true) :
    ∃ next, connection.finish index = some next := by
  obtain ⟨inflight, released⟩ := Pool.exists_release found
  unfold Connection.finish
  simp only [found, answered, if_true, released, Option.map_some]
  exact ⟨_, rfl⟩

theorem advances_polls {item : Nat}
    {inflight : Pool RpcTask.permits maxInflightRequests}
    (polled : connection.inflight.modify index
      (RpcTask.advance item Item.poll) = some inflight) :
    connection.Advances service (.polls index item)
      { connection with inflight } := by
  unfold Connection.Advances Connection.perform
  simp only [polled, Option.map_some]

theorem advances_returns {item : Nat} {circumstances : Circumstances}
    {inflight : Pool RpcTask.permits maxInflightRequests}
    (returned : connection.inflight.modify index
      (RpcTask.advance item (Item.return service circumstances)) =
        some inflight) :
    connection.Advances service (.returns index item circumstances)
      { connection with inflight } := by
  unfold Connection.Advances Connection.perform
  simp only [returned, Option.map_some]

/-- As long as a task remains, one of its events can happen. -/
theorem Connection.Accounted.goes_on
    (accounted : connection.Accounted service)
    (remains : connection.inflight.holders ≠ []) :
    ∃ event next, WsEvent.OfTask event ∧
      connection.Advances service event next := by
  obtain ⟨task, rest, holders⟩ := List.exists_cons_of_ne_nil remains
  have found : connection.inflight.holders[0]? = some task := by
    rw [holders]
    rfl
  have serves := (accounted.tasks task (List.mem_of_getElem? found)).1
  have modifies {change : Change RpcTask.permits} {changed : RpcTask}
      (applied : change.apply task = some changed) :=
    Pool.exists_modify found applied
  cases answered : task.answered with
  | true =>
      obtain ⟨next, ends⟩ := exists_finish found answered
      exact ⟨.ends 0, next, trivial, ends⟩
  | false =>
      by_cases advancing : ∃ item ∈ task.items, item.response? = none
      · obtain ⟨item, member, undone⟩ := advancing
        obtain ⟨index, isItem⟩ := List.mem_iff_getElem?.mp member
        cases polled : item.poll with
        | some advanced =>
            obtain ⟨inflight, modified, _⟩ :=
              modifies (advance_apply isItem polled)
            exact ⟨.polls 0 index, { connection with inflight }, trivial,
              advances_polls modified⟩
        | none =>
            have returns : ∃ circumstances advanced,
                item.return service circumstances = some advanced := by
              by_contra never
              push Not at never
              obtain ⟨response, isDone⟩ := Item.response?_of_not_advancing
                polled fun circumstances =>
                  Option.eq_none_iff_forall_ne_some.mpr (never circumstances)
              cases undone.symm.trans isDone
            obtain ⟨circumstances, advanced, returned⟩ := returns
            obtain ⟨inflight, modified, _⟩ :=
              modifies (advance_apply isItem returned)
            exact ⟨.returns 0 index circumstances,
              { connection with inflight }, trivial, advances_returns modified⟩
      · push Not at advancing
        obtain ⟨response, responded⟩ := serves.response?_of_done
          fun item member => Option.ne_none_iff_exists'.mp
            (advancing item member)
        obtain ⟨next, answers⟩ := exists_answer found answered responded
        exact ⟨.answers 0, next, trivial, answers⟩

end Liveness

section Connections

variable {service : WsService} {connection : Connection}

/-- What holds at any point of a connection.  That tasks tire and can go on
means that they all end. -/
structure Connection.Served (service : WsService) (connection : Connection) :
    Prop where
  bounded :
    (∀ task ∈ connection.inflight.holders,
      task.envelope.executed ≤ maxInflightRequests) →
    connection.executing ≤ maxInflightRequests
  settles : connection.Open → ∀ number envelope,
    connection.envelopes[number]? = some envelope → envelope.Awaits →
      connection.Settles service number envelope
  inKind : connection.Open → ∀ number envelope,
    connection.envelopes[number]? = some envelope → envelope.Awaits →
      service.Regular envelope →
        ∀ value ∈ connection.answersTo number,
          service.AnswersInKind envelope value
  goesOn : connection.inflight.holders ≠ [] →
    ∃ event next, WsEvent.OfTask event ∧
      connection.Advances service event next
  tires : ∀ event next, WsEvent.OfTask event →
    connection.Advances service event next → next.work < connection.work
  returned : connection.inflight.holders = [] →
    connection.inflight.available = maxInflightRequests

theorem accounted_of_run {events : List WsEvent}
    (run : Runs.Run (Connection.Advances service) .opened events connection) :
    connection.Accounted service :=
  run.preserves Connection.accounted_opened fun _ _ _ accounted advances =>
    accounted.advances advances

theorem served_of_run {events : List WsEvent}
    (run : Runs.Run (Connection.Advances service) .opened events connection) :
    connection.Served service := by
  have accounted := accounted_of_run run
  refine ⟨accounted.executing_le, accounted.settles, ?_, accounted.goes_on,
    fun _ _ => Connection.work_lt, Pool.available_of_nil _⟩
  intro isOpen number envelope found awaits regular value answered
  rcases accounted.settles isOpen number envelope found awaits with
    ⟨_, none⟩ | ⟨_, reply, one, replies⟩
  · rw [none] at answered
    cases answered
  · rw [one] at answered
    rw [List.mem_singleton.mp answered]
    exact answersInKind_of_replies regular replies

end Connections

section LargeBatches

variable {service : WsService} {connection : Connection} {task : RpcTask}

theorem exists_modify_alone {change : Change RpcTask.permits}
    {changed : RpcTask} (alone : connection.inflight.holders = [task])
    (applied : change.apply task = some changed) :
    ∃ inflight, connection.inflight.modify 0 change = some inflight ∧
      inflight.holders = [changed] := by
  have found : connection.inflight.holders[0]? = some task := by
    rw [alone]
    rfl
  obtain ⟨inflight, modified, holders⟩ := Pool.exists_modify found applied
  refine ⟨inflight, modified, ?_⟩
  rw [holders, alone]
  rfl

/-- The first polls of futures that wait start all requests but those of
subscriptions. -/
theorem polls_rest (requests : List RpcRequest) (before : List Item)
    (alone : connection.inflight.holders = [task])
    (items : task.items =
      before ++ requests.map fun request => ⟨request, .waiting⟩) :
    ∃ events next, Runs.Run (Connection.Advances service) connection events
        next ∧
      next.executing = connection.executing + requests.countP fun request =>
        !isSubscriptionMethod request.method := by
  induction requests generalizing connection task before with
  | nil => exact ⟨[], connection, .start, rfl⟩
  | cons request rest ih =>
      let item : Item := ⟨request, .waiting⟩
      have isItem : task.items[before.length]? = some item := by
        rw [items, List.getElem?_append_right le_rfl, Nat.sub_self]
        rfl
      have polled : ∃ polled, item.poll = some polled ∧
          [polled].countP Item.isExecuting =
            [request].countP fun request =>
              !isSubscriptionMethod request.method := by
        cases subscription : isSubscriptionMethod request.method with
        | true =>
            refine ⟨_, if_pos subscription, ?_⟩
            simp [subscription, Item.isExecuting]
        | false =>
            refine ⟨_, if_neg (by simp [item, subscription]), ?_⟩
            simp [subscription, Item.isExecuting]
      obtain ⟨polled, polls, counted⟩ := polled
      let started : RpcTask :=
        { task with items := before ++ polled ::
            rest.map fun request => ⟨request, .waiting⟩ }
      have starts : (RpcTask.advance before.length Item.poll).apply task =
          some started := by
        rw [advance_apply isItem polls, items,
          List.set_append_right _ _ le_rfl, Nat.sub_self]
        rfl
      obtain ⟨inflight, modified, isStarted⟩ :=
        exists_modify_alone alone starts
      obtain ⟨events, next, run, executing⟩ :=
        @ih { connection with inflight } started (before ++ [polled]) isStarted
          (List.append_cons before polled _)
      refine ⟨_, next, .cons (advances_polls modified) run, ?_⟩
      have atFirst : connection.executing = before.countP Item.isExecuting +
          (rest.map fun request => (⟨request, .waiting⟩ : Item)).countP
            Item.isExecuting := by
        simp only [Connection.executing, alone, List.map_cons, List.map_nil,
          List.sum_singleton, RpcTask.executing, items, List.countP_append]
        rw [List.countP_cons_of_neg (by simp [Item.isExecuting])]
      have afterFirst : Connection.executing { connection with inflight } =
          before.countP Item.isExecuting + [polled].countP Item.isExecuting +
            (rest.map fun request => (⟨request, .waiting⟩ : Item)).countP
              Item.isExecuting := by
        simp only [Connection.executing, isStarted, List.map_cons,
          List.map_nil, List.sum_singleton, RpcTask.executing, started]
        rw [List.append_cons, List.countP_append, List.countP_append]
      have all : (request :: rest).countP
            (fun request => !isSubscriptionMethod request.method) =
          [request].countP (fun request =>
            !isSubscriptionMethod request.method) +
          rest.countP fun request => !isSubscriptionMethod request.method :=
        @List.countP_append _ _ [request] rest
      omega

/-- A batch is executed as a whole, whatever its length. -/
theorem executes_batch (service : WsService) {text : String}
    {requests : List RpcRequest}
    (parsed : service.parse text = .ok (.batch requests)) :
    ∃ events connection,
      Runs.Run (Connection.Advances service) .opened
        (.receives (.text text) :: events) connection ∧
      connection.executing = (RpcEnvelope.batch requests).executed := by
  cases requests with
  | nil =>
      refine ⟨[], _, .cons rfl .start, ?_⟩
      unfold Connection.receive
      simp only [Connection.receiveText, parsed]
      rfl
  | cons first rest =>
      let task : RpcTask := .spawned 0 (.batch (first :: rest))
        (min (first :: rest).length maxInflightRequests)
      have fits : task.permits ≤ Connection.opened.inflight.available :=
        Nat.min_le_right _ _
      obtain ⟨inflight, acquired, holders⟩ := Pool.exists_tryAcquire fits
      have spawns : Connection.Advances service .opened
          (.receives (.text text))
          { Connection.opened with
            envelopes := [.batch (first :: rest)]
            inflight } := by
        have received : Connection.receiveText service .opened text =
            Connection.receiveEnvelope service .opened
              (.batch (first :: rest)) := by
          rw [Connection.receiveText, parsed]
        have spawned : Connection.receiveEnvelope service .opened
            (.batch (first :: rest)) =
              Connection.spawn
                { Connection.opened with
                  envelopes := [.batch (first :: rest)] } task .null := rfl
        unfold Connection.Advances Connection.perform Connection.receive
        dsimp only
        rw [received, spawned, Connection.spawn, acquired]
        rfl
      obtain ⟨events, connection, run, executing⟩ :=
        @polls_rest service
          { Connection.opened with
            envelopes := [.batch (first :: rest)]
            inflight } task (first :: rest) [] holders rfl
      refine ⟨events, connection, .cons spawns run, ?_⟩
      rw [executing, Connection.executing]
      dsimp only
      rw [holders]
      have waiting : task.executing = 0 := by
        unfold RpcTask.executing
        rw [List.countP_eq_zero]
        intro item member
        obtain ⟨request, _, rfl⟩ := List.mem_map.mp member
        exact Bool.false_ne_true
      change ([task].map RpcTask.executing).sum + _ = _
      rw [List.map_cons, List.map_nil, List.sum_singleton, waiting,
        Nat.zero_add]
      rfl

end LargeBatches

section SingleRequests

variable {service : WsService}

/-- A single request that is served alone gets what `route_and_process`
returns. -/
theorem answers_single {text : String} {request : RpcRequest}
    {circumstances : Circumstances} {response : Json}
    (parsed : service.parse text = .ok (.single request))
    (noSubscription : isSubscriptionMethod request.method = false)
    (executed : service.execute circumstances request = .ok response) :
    ∃ connection,
      Runs.Run (Connection.Advances service) .opened
        [.receives (.text text), .polls 0 0, .returns 0 0 circumstances,
          .answers 0] connection ∧
      connection.Open ∧ connection.envelopes = [.single request] ∧
      connection.answersTo 0 = [response] := by
  let task (progress : Progress) : RpcTask :=
    ⟨0, .single request, 1, [⟨request, progress⟩], false⟩
  have fits : (task .waiting).permits ≤ Connection.opened.inflight.available :=
    Nat.le_of_ble_eq_true rfl
  obtain ⟨spawned, acquired, atSpawned⟩ := Pool.exists_tryAcquire fits
  let received : Connection :=
    { Connection.opened with
      envelopes := [.single request]
      inflight := spawned }
  have receives : Connection.Advances service .opened
      (.receives (.text text)) received := by
    have spawns : Connection.receiveEnvelope service .opened
        (.single request) =
          Connection.spawn
            { Connection.opened with envelopes := [.single request] }
            (task .waiting) request.id := by
      unfold Connection.receiveEnvelope
      simp only [noSubscription, Bool.false_eq_true, if_false]
      rfl
    unfold Connection.Advances Connection.perform Connection.receive
    dsimp only
    rw [Connection.receiveText, parsed]
    dsimp only
    rw [spawns, Connection.spawn, acquired]
    rfl
  have polls : (RpcTask.advance 0 Item.poll).apply (task .waiting) =
      some (task .executing) := by
    apply advance_apply rfl
    rw [Item.poll, noSubscription]
    rfl
  obtain ⟨polled, isPolled, atPolled⟩ :=
    @exists_modify_alone received _ _ _ atSpawned polls
  let started : Connection := { received with inflight := polled }
  have starts : received.Advances service (.polls 0 0) started :=
    advances_polls isPolled
  have returns : (RpcTask.advance 0 (Item.return service circumstances)).apply
      (task .executing) = some (task (.done response)) := by
    apply advance_apply rfl
    simp only [Item.return, executed]
  obtain ⟨returned, isReturned, atReturned⟩ :=
    @exists_modify_alone started _ _ _ atPolled returns
  let finished : Connection := { started with inflight := returned }
  have finishes : started.Advances service (.returns 0 0 circumstances)
      finished :=
    advances_returns isReturned
  obtain ⟨marked, isMarked, _⟩ :=
    @exists_modify_alone finished _ RpcTask.markAnswered _ atReturned rfl
  let answered : Connection :=
    { finished with
      inflight := marked
      sent := [.response (some 0) response] }
  have answers : finished.Advances service (.answers 0) answered := by
    have found : finished.inflight.holders[0]? =
        some (task (.done response)) := by
      change returned.holders[0]? = _
      rw [atReturned]
      rfl
    have responds : (task (.done response)).response? = some response := rfl
    unfold Connection.Advances Connection.perform Connection.answer
    simp only [found, responds, isMarked, Option.map_some]
    rfl
  exact ⟨answered, .cons receives (.cons starts (.cons finishes
    (.cons answers .start))), ⟨rfl, rfl⟩, rfl, rfl⟩

end SingleRequests

section Samples

def sampleCall (method : String) (id : Json) : RpcRequest where
  jsonrpc := "2.0"
  method := method
  params := .array []
  id := id

/-- The transaction is well formed, and the request has no id. -/
def sampleTransfer : RpcRequest :=
  { numberedRequest ("0x" ++ Hex.encode legacyTx) with id := .null }

/-- Short texts stand for the sample requests. -/
def sampleParse (text : String) : Except String RpcEnvelope :=
  if text = "single" then
    .ok (.single (sampleCall "eth_chainId" (.number (.unsigned 7))))
  else if text = "batch" then
    .ok (.batch [sampleCall "eth_blockNumber" (.number (.unsigned 8)),
      sampleCall "eth_subscribe" (.number (.unsigned 9))])
  else if text = "[]" then .ok (.batch [])
  else if text = "null" then
    .ok (.single sampleTransfer)
  else .error "expected value"

def sampleWsService : WsService where
  security := openConfig
  provider := legacyProvider
  floatText := fun _ => "0.0"
  u256Text := sampleText
  gasConfig := ⟨2000⟩
  parse := sampleParse

/-- A single request and a batch are served at once. -/
def sampleMessages : List WsEvent :=
  [.receives (.text "single"), .receives (.text "batch"), .polls 1 0,
    .polls 1 1, .receives (.text "?"), .polls 0 0, .returns 1 0 default,
    .answers 1, .returns 0 0 default, .ends 1, .answers 0, .ends 0]

theorem served_of_run_sampleMessages :
    ∃ connection,
      Runs.Run (Connection.Advances sampleWsService) .opened sampleMessages
        connection ∧
      connection.inflight.holders = [] ∧
      (connection.answersTo 0).length = 1 ∧
      (connection.answersTo 1).length = 1 ∧
      connection.Served sampleWsService := by
  have followed : (Runs.follow (fun _ _ => True)
      (Connection.perform sampleWsService) .opened sampleMessages).any
        fun connection => connection.inflight.holders.isEmpty &&
          (connection.answersTo 0).length == 1 &&
          (connection.answersTo 1).length == 1 := by
    decide +kernel
  obtain ⟨connection, reached, finished⟩ := (Option.any_eq_true _ _).mp followed
  simp only [Bool.and_eq_true, List.isEmpty_iff, beq_iff_eq] at finished
  obtain ⟨⟨nobody, first⟩, second⟩ := finished
  have run := (Runs.Run.of_follow (fun _ _ _ advances => advances)
    reached).unrestrict
  exact ⟨connection, run, nobody, first, second, served_of_run run⟩

private theorem sampleTransfer_executed :
    sampleWsService.execute default sampleTransfer =
      .ok (baseFetchFailedJson "unreachable"
        (.string "00000000-0000-4000-8000-000000000000")) := by
  have extracted : extractRawTransaction (firstParam sampleTransfer.params) =
      .ok ("0x" ++ Hex.encode legacyTx) :=
    extractRawTransaction_encode legacyTx
  have decoded := decodeHexTransaction_encode legacyTx
  have valid : validateComprehensiveTransaction
      sampleWsService.provider.decodeEnvelope none legacyTx = .ok () := by
    decide +kernel
  have validated : validateTransactionRequest sampleWsService.provider
      sampleWsService.floatText sampleTransfer none = .ok legacyTx := by
    rw [validateTransactionRequest, Outcome.mapErr_eq_ok.mpr extracted,
      Outcome.ok_bind, Outcome.mapErr_eq_ok.mpr decoded, Outcome.ok_bind,
      Outcome.mapErr_eq_ok.mpr valid]
    rfl
  rw [WsService.execute, routeAndProcess_of_writable rfl rfl,
    processTransaction, acceptRequest, validated]
  rfl

/-- The answer to an empty batch is no array and not that the server is busy,
and a raw transaction without an id gets one with its answer. -/
theorem emptyBatch_nullId_answers :
    (∃ connection value,
      Runs.Run (Connection.Advances sampleWsService) .opened
        [.receives (.text "[]")] connection ∧
      connection.Open ∧ connection.envelopes = [.batch []] ∧
      connection.answersTo 0 = [value] ∧
      ¬sampleWsService.AnswersInKind (.batch []) value) ∧
    ∃ connection value,
      Runs.Run (Connection.Advances sampleWsService) .opened
        [.receives (.text "null"), .polls 0 0, .returns 0 0 default,
          .answers 0] connection ∧
      connection.Open ∧ connection.envelopes = [.single sampleTransfer] ∧
      connection.answersTo 0 = [value] ∧
      ¬sampleWsService.AnswersInKind (.single sampleTransfer) value := by
  constructor
  · refine ⟨Connection.receive sampleWsService .opened (.text "[]"),
      emptyBatchJson, .cons rfl .start, ⟨rfl, rfl⟩, rfl, rfl, ?_⟩
    rintro (busy | ⟨responses, answered, _⟩)
    · simp [emptyBatchJson, serverBusyJson, jsonRpcError, codeJson] at busy
    · cases answered
  · obtain ⟨connection, run, isOpen, envelopes, answers⟩ :=
      @answers_single sampleWsService "null" _ _ _ rfl (by decide)
        sampleTransfer_executed
    refine ⟨connection, _, run, isOpen, envelopes, answers, ?_⟩
    intro kept
    cases kept

end Samples

end RpcProvider
