import Igra.Degov.Ledgers
import Igra.Degov.VotesToken

/-!
# Histories of the token

The calls of a transaction are executed in turn, and the logs of their events
are handled under the hash of the transaction.  A transfer is booked through
the mapping rows, and a change of votes through the change of delegates that
the database finds in its transaction.  What the contributors hold is the votes
of the token as long as the changes of votes that are booked are those that
come from a change of delegates.
-/

open Tables

namespace Degov

namespace TokenHandler

variable {standard : Option String} {choice : RowChoice DelegateRolling}
  {store next : Store}

section Effects

/-- What updates send to an account. -/
def sentTo (account : Address) (currents : List Delegate) : Int :=
  (currents.map fun current =>
    if account = current.toDelegate then current.power else 0).sum

private theorem powerOf_foldl (currents : List Delegate) (base : Store)
    (account : Address) :
    (currents.foldl storeDelegate base).powerOf account =
      base.powerOf account + sentTo account currents := by
  induction currents generalizing base with
  | nil => exact (add_zero _).symm
  | cons current rest ih =>
      rw [List.foldl_cons, ih, powerOf_storeDelegate, add_assoc]
      rfl

theorem find_storeMappingPower
    (mappings : Keyed DelegateMapping.fromAccount) (account : Address)
    (power : Int) (id : Address) :
    (storeMappingPower mappings account power).find id =
      (mappings.find id).map fun mapping =>
        if id = account then { mapping with power } else mapping := by
  unfold storeMappingPower
  cases found : mappings.find account with
  | none =>
      dsimp only
      by_cases same : id = account
      · rw [same, found]
        rfl
      · simp [same]
  | some mapping =>
      have sameId : mapping.fromAccount = account := Keyed.key_of_find _ found
      dsimp only
      rw [Keyed.find_save]
      by_cases same : id = account
      · have isKey : id = mapping.fromAccount := same.trans sameId.symm
        rw [if_pos isKey, same, found]
        simp
      · have notKey : id ≠ mapping.fromAccount := fun isKey =>
          same (isKey.trans sameId)
        rw [if_neg notKey]
        simp [same]

theorem mappedTo_storeDelegate (current : Delegate) (account : Address) :
    (storeDelegate store current).mappedTo account =
      store.mappedTo account := by
  rw [Store.mappedTo, delegateMappings_storeDelegate, find_storeMappingPower,
    Option.map_map]
  unfold Store.mappedTo
  congr 1
  funext mapping
  dsimp only [Function.comp]
  split
  · rfl
  · rfl

theorem mappedTo_foldl (currents : List Delegate) (base : Store) :
    (currents.foldl storeDelegate base).mappedTo = base.mappedTo := by
  induction currents generalizing base with
  | nil => rfl
  | cons current rest ih =>
      rw [List.foldl_cons, ih]
      funext account
      exact mappedTo_storeDelegate current account

theorem powerOf_handle {log : EvmLog TokenEvent}
    (handled : handle standard choice store log = .ok next)
    (account : Address) :
    next.powerOf account =
      store.powerOf account +
        sentTo account (updates standard choice store log) := by
  obtain ⟨base, prepared, rfl⟩ := handle_eq_ok handled
  rw [powerOf_foldl, prepared.powerOf]

theorem mappedTo_handle {log : EvmLog TokenEvent}
    (unchanged : ∀ delegator fromDelegate toDelegate,
      log.event ≠ .delegateChanged delegator fromDelegate toDelegate)
    (handled : handle standard choice store log = .ok next) :
    next.mappedTo = store.mappedTo := by
  obtain ⟨base, prepared, rfl⟩ := handle_eq_ok handled
  obtain ⟨_, _, mappings, _⟩ := prepared.otherwise unchanged
  rw [mappedTo_foldl]
  funext account
  rw [Store.mappedTo, mappings]
  rfl

theorem mappedTo_handle_delegateChanged {log : EvmLog TokenEvent}
    {delegator fromDelegate toDelegate : Address}
    (event : log.event = .delegateChanged delegator fromDelegate toDelegate)
    (handled : handle standard choice store log = .ok next)
    (account : Address) :
    next.mappedTo account =
      if account = delegator then some toDelegate
      else store.mappedTo account := by
  obtain ⟨base, prepared, rfl⟩ := handle_eq_ok handled
  obtain ⟨_, _, mappings, _⟩ := prepared.changed _ _ _ event
  rw [mappedTo_foldl, Store.mappedTo, mappings, Keyed.find_save]
  split
  · rfl
  · rename_i different
    have notDelegator : account ≠ delegator := different
    rw [Keyed.find_remove, if_neg notDelegator]
    rfl

end Effects

section Sent

variable {log : EvmLog TokenEvent} (account : Address)

theorem sentTo_updates_delegateChanged
    {delegator fromDelegate toDelegate : Address}
    (event : log.event = .delegateChanged delegator fromDelegate toDelegate) :
    sentTo account (updates standard choice store log) = 0 := by
  unfold updates
  rw [event]
  dsimp only
  split
  · simp [sentTo]
  · rfl

theorem sentTo_updates_transfer {fromAccount toAccount : Address} {value : Int}
    (event : log.event = .transfer fromAccount toAccount value) :
    sentTo account (updates standard choice store log) =
      (if store.mappedTo toAccount = some account then
        movedPower standard value else 0) -
        if store.mappedTo fromAccount = some account then
          movedPower standard value else 0 := by
  have side (holder : Address) (power : Int) :
      sentTo account ((store.delegateMappings.find holder).toList.map
        fun mapping => ⟨mapping.fromAccount, mapping.toAccount, power,
          log.stamp⟩) =
        if store.mappedTo holder = some account then power else 0 := by
    unfold sentTo Store.mappedTo
    cases store.delegateMappings.find holder with
    | none => simp
    | some mapping => simp [eq_comm]
  unfold updates
  rw [event]
  dsimp only
  have appended (front back : List Delegate) :
      sentTo account (front ++ back) =
        sentTo account front + sentTo account back := by
    simp [sentTo]
  rw [appended, side, side]
  split
  · omega
  · omega

theorem movedPower_of_erc20 (erc20 : isErc721 standard = false) (value : Int) :
    movedPower standard value = value := by
  rw [movedPower, erc20]
  rfl

/-- A change of votes finds a change of delegates of its transaction that names
the delegate. -/
def Attributed (choice : RowChoice DelegateRolling) (store : Store)
    (transactionHash : String) (delegate : Address) : Prop :=
  ∃ rolling ∈ findRolling choice store transactionHash,
    rolling.Names delegate

instance Attributed.decidable (choice : RowChoice DelegateRolling)
    (store : Store) (transactionHash : String) (delegate : Address) :
    Decidable (Attributed choice store transactionHash delegate) :=
  inferInstanceAs (Decidable (∃ rolling ∈ findRolling _ _ _, _))

/-- The votes of a delegate that is named are booked from the delegator to
it. -/
theorem votesPair_of_names {rolling : DelegateRolling} {delegate : Address}
    (names : rolling.Names delegate) (nonzero : delegate ≠ zeroAddress) :
    votesPair rolling delegate = (rolling.delegator, delegate) := by
  unfold votesPair
  split
  · rename_i isTo
    split
    · rename_i toSelf
      rw [toSelf, isTo]
    · rw [isTo]
  · rename_i notTo
    have isFrom : delegate = rolling.fromDelegate := names.resolve_right notTo
    dsimp only
    split
    · rw [isFrom]
    · rename_i toOther
      -- The delegator takes nothing back and had not delegated to another.
      rw [not_or, not_and_or, not_not, not_and_or, not_not, not_not] at toOther
      obtain ⟨keeps, toSelf⟩ := toOther
      rcases toSelf with ofSelf | toSelf
      · rw [isFrom, ofSelf]
      · rcases keeps with another | ofZero
        · exact absurd toSelf another
        · exact absurd (isFrom.trans ofZero) nonzero

/-- The updates of a change of votes that is booked. -/
theorem updates_of_attributed {delegate : Address}
    {previousVotes newVotes : Int}
    (event : log.event =
      .delegateVotesChanged delegate previousVotes newVotes)
    (nonzero : delegate ≠ zeroAddress) {rolling : DelegateRolling}
    (found : findRolling choice store log.transactionHash = some rolling)
    (names : rolling.Names delegate) :
    updates standard choice store log =
      [⟨rolling.delegator, delegate, newVotes - previousVotes,
        rolling.stamp⟩] := by
  unfold updates
  rw [event]
  dsimp only
  rw [found]
  dsimp only
  rw [if_pos names, votesPair_of_names names nonzero]

private theorem sentTo_updates_of_attributed {delegate : Address}
    {previousVotes newVotes : Int}
    (event : log.event =
      .delegateVotesChanged delegate previousVotes newVotes)
    (nonzero : delegate ≠ zeroAddress)
    (attributed : Attributed choice store log.transactionHash delegate) :
    sentTo account (updates standard choice store log) =
      VotesToken.votesGained account log.event := by
  obtain ⟨rolling, found, names⟩ := attributed
  rw [updates_of_attributed event nonzero found names, event]
  simp [sentTo, VotesToken.votesGained]

theorem updates_of_not_attributed {delegate : Address}
    {previousVotes newVotes : Int}
    (event : log.event =
      .delegateVotesChanged delegate previousVotes newVotes)
    (unattributed : ¬Attributed choice store log.transactionHash delegate) :
    updates standard choice store log = [] := by
  unfold updates
  rw [event]
  dsimp only
  cases found : findRolling choice store log.transactionHash with
  | none => rfl
  | some rolling =>
      dsimp only
      rw [if_neg]
      intro names
      exact unattributed ⟨rolling, Option.mem_def.mpr found, names⟩

end Sent

section Booking

/-- A change of votes is booked exactly when the call is one that changes a
delegate. -/
def VotesAttributed (call : Call) (store : Store) (delivery : Delivery) :
    Prop :=
  match delivery.log.event with
  | .delegateVotesChanged delegate _ _ =>
      Attributed delivery.choice store delivery.log.transactionHash
        delegate ↔ call.moved = none
  | _ => True

instance VotesAttributed.decidable (call : Call) (store : Store)
    (delivery : Delivery) : Decidable (VotesAttributed call store delivery) :=
  match event : delivery.log.event with
  | .delegateChanged _ _ _ =>
      isTrue (by simp [VotesAttributed, event])
  | .delegateVotesChanged delegate _ _ =>
      decidable_of_iff
        (Attributed delivery.choice store delivery.log.transactionHash
          delegate ↔ call.moved = none)
        (by simp [VotesAttributed, event])
  | .transfer _ _ _ =>
      isTrue (by simp [VotesAttributed, event])

theorem mappedTo_of_changesVotes {deliveries : List Delivery}
    (run : Runs.Run (Step standard) store deliveries next)
    (changes : ∀ delivery ∈ deliveries,
      VotesToken.ChangesVotes delivery.log.event) :
    next.mappedTo = store.mappedTo := by
  induction run with
  | start => rfl
  | @extend earlier state next delivery run taken ih =>
      have last := changes delivery (by simp)
      obtain ⟨_, _, _, _, event⟩ := last
      rw [mappedTo_handle (by simp [event]) taken]
      exact ih fun other member => changes other (by simp [member])

/-- The changes of votes of a call are all booked, or none is. -/
theorem powerOf_of_changesVotes {call : Call} {deliveries : List Delivery}
    (run : Runs.Run (Runs.restrict (VotesAttributed call) (Step standard))
      store deliveries next)
    (changes : ∀ delivery ∈ deliveries,
      VotesToken.ChangesVotes delivery.log.event)
    (account : Address) :
    next.powerOf account =
      store.powerOf account +
        if call.moved = none then
          ((deliveries.map fun delivery => delivery.log.event).map
            (VotesToken.votesGained account)).sum
        else 0 := by
  induction run with
  | start => simp
  | @extend earlier state next delivery run taken ih =>
      obtain ⟨attributes, handled⟩ := taken
      have last := changes delivery (by simp)
      obtain ⟨delegate, previousVotes, newVotes, nonzero, event⟩ := last
      unfold VotesAttributed at attributes
      rw [event] at attributes
      dsimp only at attributes
      have before := ih fun other member => changes other (by simp [member])
      rw [powerOf_handle handled, before]
      by_cases delegates : call.moved = none
      · rw [if_pos delegates, if_pos delegates,
          sentTo_updates_of_attributed account event nonzero
            (attributes.mpr delegates)]
        simp [add_assoc]
      · have unattributed := mt attributes.mp delegates
        rw [if_neg delegates, if_neg delegates,
          updates_of_not_attributed event unattributed]
        exact add_zero _

end Booking

end TokenHandler

/-- A call, and the logs of its events as they are handled. -/
structure Invocation where
  call : Call
  deliveries : List TokenHandler.Delivery

def Invocation.events (invocation : Invocation) : List TokenEvent :=
  invocation.deliveries.map fun delivery => delivery.log.event

structure Transaction where
  hash : String
  invocations : List Invocation
  nonempty : invocations ≠ []

/-- The token, the indexer's store, and the transactions there have been. -/
structure TokenSystem where
  token : VotesToken
  store : Store
  hashes : List String

namespace TokenSystem

def initial : TokenSystem := ⟨.empty, .empty, []⟩

section Steps

variable (standard : Option String)
  (allowed : Call → Store → TokenHandler.Delivery → Prop)

/-- The call is executed, and the logs of its events are handled in turn. -/
structure Invokes (hash : String) (system : TokenSystem)
    (invocation : Invocation) (next : TokenSystem) : Prop where
  executed : system.token.execute standard invocation.call =
    some (next.token, invocation.events)
  hashed : ∀ delivery ∈ invocation.deliveries,
    delivery.log.transactionHash = hash
  handled : Runs.Run
    (Runs.restrict (allowed invocation.call) (TokenHandler.Step standard))
    system.store invocation.deliveries next.store
  hashes : next.hashes = system.hashes

/-- The calls of a new transaction are made in turn. -/
structure Transacts (system : TokenSystem) (transaction : Transaction)
    (next : TokenSystem) : Prop where
  fresh : transaction.hash ∉ system.hashes
  invoked : Runs.Run (Invokes standard allowed transaction.hash)
    { system with hashes := transaction.hash :: system.hashes }
    transaction.invocations next

end Steps

section Execution

variable (standard : Option String)
  (allowed : Call → Store → TokenHandler.Delivery → Prop)
  [∀ call store delivery, Decidable (allowed call store delivery)]

def invoke (hash : String) (system : TokenSystem) (invocation : Invocation) :
    Option TokenSystem :=
  (system.token.execute standard invocation.call).bind fun (token, events) =>
    if events = invocation.events ∧
        ∀ delivery ∈ invocation.deliveries,
          delivery.log.transactionHash = hash then
      (Runs.follow (allowed invocation.call) (TokenHandler.perform standard)
        system.store invocation.deliveries).map fun store =>
          { system with token, store }
    else none

def transact (system : TokenSystem) (transaction : Transaction) :
    Option TokenSystem :=
  if transaction.hash ∈ system.hashes then none
  else Runs.follow (fun _ _ => True)
    (invoke standard allowed transaction.hash)
    { system with hashes := transaction.hash :: system.hashes }
    transaction.invocations

variable {standard} {allowed} {system next : TokenSystem}

private theorem invokes_of_invoke {hash : String} {invocation : Invocation}
    (invoked : invoke standard allowed hash system invocation = some next) :
    Invokes standard allowed hash system invocation next := by
  obtain ⟨⟨token, events⟩, executed, rest⟩ :=
    Option.bind_eq_some_iff.mp invoked
  dsimp only at rest
  split at rest
  · rename_i emitted
    obtain ⟨rfl, hashed⟩ := emitted
    obtain ⟨store, followed, rfl⟩ := Option.map_eq_some_iff.mp rest
    exact ⟨executed, hashed,
      .of_follow (fun _ _ _ => TokenHandler.step_of_perform) followed, rfl⟩
  · cases rest

theorem transacts_of_transact {transaction : Transaction}
    (transacted : transact standard allowed system transaction = some next) :
    Transacts standard allowed system transaction next := by
  unfold transact at transacted
  split at transacted
  · cases transacted
  · rename_i fresh
    have run := Runs.Run.of_follow (fun _ _ _ => invokes_of_invoke) transacted
    exact ⟨fresh, run.unrestrict⟩

end Execution

/-- The mapping rows follow the delegates of the token. -/
def Mapped (token : VotesToken) (store : Store) : Prop :=
  ∀ account,
    (store.mappedTo account).getD zeroAddress = token.delegateOf account

variable {standard : Option String} {system next : TokenSystem}

section Votes

theorem Mapped.mappedTo_iff {token : VotesToken} {store : Store}
    (mapped : Mapped token store) {delegate : Address}
    (nonzero : delegate ≠ zeroAddress) (holder : Address) :
    store.mappedTo holder = some delegate ↔
      delegate = token.delegateOf holder := by
  rw [← mapped holder]
  cases store.mappedTo holder with
  | none => simp [nonzero]
  | some receiver => simp [eq_comm]

/-- The first log of a call is handled, and then those of the votes it
changes. -/
theorem Invokes.split {hash : String} {invocation : Invocation}
    {allowed : Call → Store → TokenHandler.Delivery → Prop}
    (invokes : Invokes standard allowed hash system invocation next) :
    ∃ first rest booked,
      invocation.deliveries = first :: rest ∧
      TokenHandler.Step standard system.store first booked ∧
      Runs.Run
        (Runs.restrict (allowed invocation.call) (TokenHandler.Step standard))
        booked rest next.store ∧
      (∀ delivery ∈ rest, VotesToken.ChangesVotes delivery.log.event) ∧
      ((∃ fromAccount toAccount value,
          invocation.call.moved = some (fromAccount, toAccount, value) ∧
          system.token.update standard fromAccount toAccount value =
            some next.token ∧
          first.log.event = .transfer fromAccount toAccount value) ∨
        ∃ account delegatee,
          invocation.call = .delegate account delegatee ∧
          next.token = system.token.setDelegate account delegatee ∧
          first.log.event = .delegateChanged account
            (system.token.delegateOf account) delegatee ∧
          rest.map (fun delivery => delivery.log.event) =
            system.token.moveDelegateVotes (system.token.delegateOf account)
              delegatee (system.token.balanceOf account)) := by
  have changes {rest : List TokenHandler.Delivery}
      {fromDelegate toDelegate : Address} {amount : Nat}
      (events : rest.map (fun delivery => delivery.log.event) =
        system.token.moveDelegateVotes fromDelegate toDelegate amount) :
      ∀ delivery ∈ rest, VotesToken.ChangesVotes delivery.log.event := by
    intro delivery member
    apply VotesToken.changesVotes_moveDelegateVotes
    rw [← events]
    exact List.mem_map_of_mem member
  have handled := invokes.handled
  rcases VotesToken.execute_eq_some invokes.executed with
    ⟨fromAccount, toAccount, value, moved, updated, events⟩ |
      ⟨account, delegatee, isDelegate, isNext, events⟩
  · obtain ⟨first, rest, same, event, others⟩ := List.map_eq_cons_iff.mp events
    rw [same] at handled
    obtain ⟨booked, taken, run⟩ := handled.first
    exact ⟨first, rest, booked, same, taken.2, run, changes others,
      .inl ⟨_, _, _, moved, updated, event⟩⟩
  · obtain ⟨first, rest, same, event, others⟩ := List.map_eq_cons_iff.mp events
    rw [same] at handled
    obtain ⟨booked, taken, run⟩ := handled.first
    exact ⟨first, rest, booked, same, taken.2, run, changes others,
      .inr ⟨_, _, isDelegate, isNext, event, others⟩⟩

theorem Invokes.mapped {hash : String} {invocation : Invocation}
    {allowed : Call → Store → TokenHandler.Delivery → Prop}
    (invokes : Invokes standard allowed hash system invocation next)
    (mapped : Mapped system.token system.store) :
    Mapped next.token next.store := by
  obtain ⟨first, rest, booked, _, taken, run, changes, call⟩ := invokes.split
  intro account
  rw [TokenHandler.mappedTo_of_changesVotes run.unrestrict changes]
  rcases call with
    ⟨fromAccount, toAccount, value, _, updated, event⟩ |
      ⟨holder, delegatee, _, isNext, event, _⟩
  · rw [TokenHandler.mappedTo_handle (by simp [event]) taken,
      VotesToken.delegateOf_update updated]
    exact mapped account
  · rw [TokenHandler.mappedTo_handle_delegateChanged event taken, isNext,
      VotesToken.delegateOf_setDelegate]
    split
    · rfl
    · exact mapped account

/-- A call moves the power of an account as it moves its votes. -/
theorem powerOf_of_invokes {hash : String} {invocation : Invocation}
    (invokes : Invokes standard TokenHandler.VotesAttributed hash system
      invocation next)
    (mapped : Mapped system.token system.store)
    {account : Address} (nonzero : account ≠ zeroAddress) :
    next.store.powerOf account - system.store.powerOf account =
      next.token.votes account - system.token.votes account := by
  obtain ⟨first, rest, booked, deliveries, taken, run, changes, call⟩ :=
    invokes.split
  have votes := VotesToken.votes_execute invokes.executed nonzero
  have afterFirst := TokenHandler.powerOf_handle taken account
  have afterRest := TokenHandler.powerOf_of_changesVotes run changes account
  unfold Invocation.events at votes
  rw [deliveries, List.map_cons, List.map_cons, List.sum_cons] at votes
  rcases call with
    ⟨fromAccount, toAccount, value, moved, updated, event⟩ |
      ⟨holder, delegatee, isDelegate, isNext, event, _⟩
  · have byBalances := VotesToken.votes_update nonzero updated
    rw [TokenHandler.sentTo_updates_transfer account event,
      movedPower_eq_unitsOf] at afterFirst
    simp only [mapped.mappedTo_iff nonzero] at afterFirst
    unfold VotesToken.votesFrom at byBalances
    rw [moved, if_neg (by simp)] at afterRest
    omega
  · rw [TokenHandler.sentTo_updates_delegateChanged account event]
      at afterFirst
    have noMove : (Call.delegate holder delegatee).moved = none := rfl
    rw [isDelegate, if_pos noMove] at afterRest
    have noVotes : VotesToken.votesGained account first.log.event = 0 := by
      rw [event]
      rfl
    omega

end Votes

section Histories

/-- The contributors hold the votes of their accounts. -/
structure PowerIsVotes (system : TokenSystem) : Prop where
  mapped : Mapped system.token system.store
  power : ∀ account, account ≠ zeroAddress →
    system.store.powerOf account = system.token.votes account

theorem powerIsVotes_initial : PowerIsVotes initial where
  mapped _ := rfl
  power _ nonzero := (if_neg nonzero).symm

theorem PowerIsVotes.invokes {hash : String} {invocation : Invocation}
    (holds : PowerIsVotes system)
    (invokes : Invokes standard TokenHandler.VotesAttributed hash system
      invocation next) :
    PowerIsVotes next where
  mapped := invokes.mapped holds.mapped
  power := by
    intro account nonzero
    have moved := powerOf_of_invokes invokes holds.mapped nonzero
    have same := holds.power account nonzero
    omega

theorem PowerIsVotes.transacts {transaction : Transaction}
    (holds : PowerIsVotes system)
    (transacts : Transacts standard TokenHandler.VotesAttributed system
      transaction next) :
    PowerIsVotes next := by
  apply transacts.invoked.preserves
  · exact ⟨holds.mapped, holds.power⟩
  · intro before invocation after counted invokes
    exact counted.invokes invokes

/-- After every history in which the changes of votes that are booked are those
of changes of delegates, contributors hold the votes of their accounts. -/
theorem power_is_votes {transactions : List Transaction}
    (run : Runs.Run (Transacts standard TokenHandler.VotesAttributed) initial
      transactions system)
    {account : Address} (nonzero : account ≠ zeroAddress) :
    system.store.powerOf account = system.token.votes account := by
  have holds : PowerIsVotes system := by
    apply run.preserves powerIsVotes_initial
    intro before transaction after holds transacts
    exact holds.transacts transacts
  exact holds.power account nonzero

def sampleHolder (number : Nat) : Address := TokenHandler.sampleAccount number

def firstHolder : Account := ⟨sampleHolder 1, by decide⟩

def thirdHolder : Account := ⟨sampleHolder 3, by decide⟩

/-- Tokens are minted and burned, delegated while others are minted, and sent
on. -/
def sampleTransactions : List Transaction :=
  [⟨"a",
      [⟨.mint firstHolder 5,
          [TokenHandler.sampleDelivery "1" "a"
            (.transfer zeroAddress (sampleHolder 1) 5)]⟩,
        ⟨.burn firstHolder 1,
          [TokenHandler.sampleDelivery "2" "a"
            (.transfer (sampleHolder 1) zeroAddress 1)]⟩], by simp⟩,
    ⟨"b",
      [⟨.mint thirdHolder 7,
          [TokenHandler.sampleDelivery "3" "b"
            (.transfer zeroAddress (sampleHolder 3) 7)]⟩,
        ⟨.delegate firstHolder (sampleHolder 2),
          [TokenHandler.sampleDelivery "4" "b"
              (.delegateChanged (sampleHolder 1) zeroAddress (sampleHolder 2)),
            TokenHandler.sampleDelivery "5" "b"
              (.delegateVotesChanged (sampleHolder 2) 0 4)]⟩], by simp⟩,
    ⟨"c",
      [⟨.transfer firstHolder thirdHolder 2,
          [TokenHandler.sampleDelivery "6" "c"
              (.transfer (sampleHolder 1) (sampleHolder 3) 2),
            TokenHandler.sampleDelivery "7" "c"
              (.delegateVotesChanged (sampleHolder 2) 4 2)]⟩], by simp⟩]

theorem power_is_votes_sampleTransactions :
    ∃ system,
      Runs.Run (Transacts none TokenHandler.VotesAttributed) initial
        sampleTransactions system ∧
      system.token.votes (sampleHolder 2) = 2 ∧
      system.store.powerOf (sampleHolder 2) =
        system.token.votes (sampleHolder 2) := by
  have followed : (Runs.follow (fun _ _ => True)
      (transact none TokenHandler.VotesAttributed) initial
      sampleTransactions).any fun system =>
        system.token.votes (sampleHolder 2) = 2 := by
    decide +kernel
  obtain ⟨system, reached, two⟩ := (Option.any_eq_true _ _).mp followed
  have run := Runs.Run.of_follow (fun _ _ _ => transacts_of_transact) reached
  exact ⟨system, run.unrestrict, of_decide_eq_true two,
    power_is_votes run.unrestrict (by decide)⟩

/-- Tokens that are minted after a delegation in the same transaction are
counted twice. -/
theorem power_twice_votes :
    ∃ system transaction,
      Runs.Run (Transacts none fun _ _ _ => True) initial [transaction]
        system ∧
      system.token.votes (sampleHolder 2) = 5 ∧
      system.store.powerOf (sampleHolder 2) = 10 := by
  let transaction : Transaction :=
    ⟨"a",
      [⟨.delegate firstHolder (sampleHolder 2),
          [TokenHandler.sampleDelivery "1" "a"
            (.delegateChanged (sampleHolder 1) zeroAddress (sampleHolder 2))]⟩,
        ⟨.mint firstHolder 5,
          [TokenHandler.sampleDelivery "2" "a"
              (.transfer zeroAddress (sampleHolder 1) 5),
            TokenHandler.sampleDelivery "3" "a"
              (.delegateVotesChanged (sampleHolder 2) 0 5)]⟩], by simp⟩
  have followed : (Runs.follow (fun _ _ => True)
      (transact none fun _ _ _ => True) initial [transaction]).any
      fun system =>
        system.token.votes (sampleHolder 2) = 5 ∧
          system.store.powerOf (sampleHolder 2) = 10 := by
    decide +kernel
  obtain ⟨system, reached, both⟩ := (Option.any_eq_true _ _).mp followed
  obtain ⟨votes, power⟩ := of_decide_eq_true both
  have run := Runs.Run.of_follow (fun _ _ _ => transacts_of_transact) reached
  exact ⟨system, transaction, run.unrestrict, votes, power⟩

end Histories

end TokenSystem

end Degov
