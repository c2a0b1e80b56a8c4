import Igra.Degov.TokenHistory
import Mathlib.Algebra.BigOperators.Group.Finset.Piecewise
import Mathlib.Algebra.Order.BigOperators.Group.Finset

/-!
# One call per transaction

A change of delegates is the only one of its transaction, so each change of
votes that it brings about is booked from its delegator to the delegate that
the event names; the change of votes of a transfer finds no change of delegates
and is not booked.  Every record then holds what its account sends on.
-/

open Tables

namespace Degov

/-- A rolling row without its votes. -/
structure Announcement where
  delegator : Address
  fromDelegate : Address
  toDelegate : Address
  transactionHash : String

def DelegateRolling.announcement (rolling : DelegateRolling) : Announcement :=
  ⟨rolling.delegator, rolling.fromDelegate, rolling.toDelegate,
    rolling.stamp.transactionHash⟩

/-- What the rolling row under an id announces. -/
def Store.announced (store : Store) (id : String) : Option Announcement :=
  (store.delegateRollings.find id).map DelegateRolling.announcement

namespace TokenHandler

variable {standard : Option String} {choice : RowChoice DelegateRolling}
  {store next : Store}

section Announcements

theorem announced_foldl (currents : List Delegate) (base : Store) :
    (currents.foldl storeDelegate base).announced = base.announced := by
  induction currents generalizing base with
  | nil => rfl
  | cons current rest ih =>
      rw [List.foldl_cons, ih]
      funext id
      rw [Store.announced, delegateRollings_storeDelegate]
      rfl

private theorem withVotes_id (rolling : DelegateRolling)
    (options : DelegateVotesChanged) :
    (withVotes rolling options).id = rolling.id ∧
      (withVotes rolling options).announcement = rolling.announcement := by
  unfold withVotes
  split
  · split
    · exact ⟨rfl, rfl⟩
    · exact ⟨rfl, rfl⟩
  · split
    · exact ⟨rfl, rfl⟩
    · exact ⟨rfl, rfl⟩

theorem announced_handle {log : EvmLog TokenEvent}
    (unchanged : ∀ delegator fromDelegate toDelegate,
      log.event ≠ .delegateChanged delegator fromDelegate toDelegate)
    (handled : handle standard choice store log = .ok next) :
    next.announced = store.announced := by
  obtain ⟨base, prepared, rfl⟩ := handle_eq_ok handled
  obtain ⟨_, _, _, rollings⟩ := prepared.otherwise unchanged
  rw [announced_foldl]
  funext id
  unfold Store.announced
  rcases rollings with same | ⟨rolling, options, found, voted⟩
  · rw [same]
  · obtain ⟨sameId, sameAnnouncement⟩ := withVotes_id rolling options
    rw [voted, Keyed.find_save, sameId]
    split
    · rename_i isRolling
      rw [isRolling, found, Option.map_some, Option.map_some,
        sameAnnouncement]
    · rfl

theorem announced_handle_delegateChanged {log : EvmLog TokenEvent}
    {delegator fromDelegate toDelegate : Address}
    (event : log.event = .delegateChanged delegator fromDelegate toDelegate)
    (handled : handle standard choice store log = .ok next) (id : String) :
    next.announced id =
      if id = log.id then
        some ⟨delegator, fromDelegate, toDelegate, log.transactionHash⟩
      else store.announced id := by
  obtain ⟨base, prepared, rfl⟩ := handle_eq_ok handled
  obtain ⟨_, _, _, _, rollings⟩ := prepared.changed _ _ _ event
  rw [announced_foldl, Store.announced, rollings, Keyed.find_save]
  split
  · rfl
  · rfl

theorem announced_of_changesVotes {deliveries : List Delivery}
    (run : Runs.Run (Step standard) store deliveries next)
    (changes : ∀ delivery ∈ deliveries,
      VotesToken.ChangesVotes delivery.log.event) :
    next.announced = store.announced := by
  induction run with
  | start => rfl
  | @extend earlier state next delivery run taken ih =>
      obtain ⟨_, _, _, _, event⟩ := changes delivery (by simp)
      rw [announced_handle (by simp [event]) taken]
      exact ih fun other member => changes other (by simp [member])

/-- The database finds a row that announces something in the transaction, if
there is any. -/
theorem announced_of_findRolling {transactionHash : String}
    {rolling : DelegateRolling}
    (found : findRolling choice store transactionHash = some rolling) :
    store.announced rolling.id = some rolling.announcement ∧
      rolling.announcement.transactionHash = transactionHash := by
  refine ⟨?_, (mem_of_findRolling found).2⟩
  rw [Store.announced, find_of_findRolling found, Option.map_some]

private theorem findRolling_isSome {id : String} {announcement : Announcement}
    (announced : store.announced id = some announcement) :
    (findRolling choice store announcement.transactionHash).isSome := by
  obtain ⟨rolling, found, rfl⟩ := Option.map_eq_some_iff.mp announced
  have sameId := Keyed.key_of_find _ found
  rw [← sameId] at found
  rw [Option.isSome_iff_ne_none]
  intro missed
  have none_matches := choice.none_only _ missed
  rw [List.filter_eq_nil_iff] at none_matches
  exact none_matches rolling ((Keyed.mem_values _).mpr found)
    (decide_eq_true rfl)

/-- No row announces anything in the transaction. -/
def Unannounced (store : Store) (transactionHash : String) : Prop :=
  ∀ id announcement, store.announced id = some announcement →
    announcement.transactionHash ≠ transactionHash

/-- A change of delegates is the only one that is announced in its
transaction. -/
structure SoleAnnouncement (store : Store) (announcement : Announcement) :
    Prop where
  present : ∃ id, store.announced id = some announcement
  sole : ∀ id other, store.announced id = some other →
    other.transactionHash = announcement.transactionHash →
      other = announcement

theorem Unannounced.not_attributed {transactionHash : String}
    {delegate : Address} (unannounced : Unannounced store transactionHash) :
    ¬Attributed choice store transactionHash delegate := by
  rintro ⟨rolling, found, _⟩
  obtain ⟨announced, inTransaction⟩ :=
    announced_of_findRolling (Option.mem_def.mp found)
  exact unannounced _ _ announced inTransaction

theorem SoleAnnouncement.isFound {announcement : Announcement}
    (sole : SoleAnnouncement store announcement)
    (choice : RowChoice DelegateRolling) :
    ∃ rolling,
      findRolling choice store announcement.transactionHash = some rolling ∧
        rolling.announcement = announcement := by
  obtain ⟨id, announced⟩ := sole.present
  obtain ⟨rolling, found⟩ :=
    Option.isSome_iff_exists.mp (@findRolling_isSome choice _ _ _ announced)
  obtain ⟨isAnnounced, inTransaction⟩ := announced_of_findRolling found
  exact ⟨rolling, found, sole.sole _ _ isAnnounced inTransaction⟩

theorem SoleAnnouncement.of_delegateChanged {log : EvmLog TokenEvent}
    {delegator fromDelegate toDelegate : Address}
    (unannounced : Unannounced store log.transactionHash)
    (event : log.event = .delegateChanged delegator fromDelegate toDelegate)
    (handled : handle standard choice store log = .ok next) :
    SoleAnnouncement next
      ⟨delegator, fromDelegate, toDelegate, log.transactionHash⟩ where
  present := by
    refine ⟨log.id, ?_⟩
    rw [announced_handle_delegateChanged event handled, if_pos rfl]
  sole := by
    intro id other announced inTransaction
    rw [announced_handle_delegateChanged event handled] at announced
    split at announced
    · exact (Option.some.inj announced).symm
    · exact absurd inTransaction (unannounced id other announced)

theorem Unannounced.of_announced_eq {transactionHash : String}
    (unannounced : Unannounced store transactionHash)
    (same : next.announced = store.announced) :
    Unannounced next transactionHash := by
  rw [Unannounced, same]
  exact unannounced

theorem SoleAnnouncement.of_announced_eq {announcement : Announcement}
    (sole : SoleAnnouncement store announcement)
    (same : next.announced = store.announced) :
    SoleAnnouncement next announcement where
  present := by
    rw [same]
    exact sole.present
  sole := by
    rw [same]
    exact sole.sole

end Announcements

section Records

/-- What updates move from an account to a delegate. -/
def sentBetween (fromDelegate toDelegate : Address)
    (currents : List Delegate) : Int :=
  (currents.map fun current =>
    if (fromDelegate, toDelegate) = current.id then current.power else 0).sum

variable (fromDelegate toDelegate : Address)

private theorem delegatePower_foldl (currents : List Delegate) (base : Store) :
    (currents.foldl storeDelegate base).delegatePower fromDelegate
        toDelegate =
      base.delegatePower fromDelegate toDelegate +
        sentBetween fromDelegate toDelegate currents := by
  induction currents generalizing base with
  | nil => exact (add_zero _).symm
  | cons current rest ih =>
      rw [List.foldl_cons, ih, delegatePower_storeDelegate, add_assoc]
      rfl

theorem delegatePower_handle {log : EvmLog TokenEvent}
    (handled : handle standard choice store log = .ok next) :
    next.delegatePower fromDelegate toDelegate =
      store.delegatePower fromDelegate toDelegate +
        sentBetween fromDelegate toDelegate
          (updates standard choice store log) := by
  obtain ⟨base, prepared, rfl⟩ := handle_eq_ok handled
  rw [delegatePower_foldl, Store.delegatePower, prepared.delegates]
  rfl

theorem sentBetween_updates_delegateChanged {log : EvmLog TokenEvent}
    {delegator oldDelegate newDelegate : Address}
    (event : log.event =
      .delegateChanged delegator oldDelegate newDelegate) :
    sentBetween fromDelegate toDelegate
      (updates standard choice store log) = 0 := by
  unfold updates
  rw [event]
  dsimp only
  split
  · simp [sentBetween]
  · rfl

theorem sentBetween_updates_transfer {log : EvmLog TokenEvent}
    {fromAccount toAccount : Address} {value : Int}
    (event : log.event = .transfer fromAccount toAccount value) :
    sentBetween fromDelegate toDelegate (updates standard choice store log) =
      if store.mappedTo fromDelegate = some toDelegate then
        (if fromDelegate = toAccount then movedPower standard value else 0) -
          if fromDelegate = fromAccount then movedPower standard value else 0
      else 0 := by
  have side (holder : Address) (power : Int) :
      sentBetween fromDelegate toDelegate
        ((store.delegateMappings.find holder).toList.map fun mapping =>
          ⟨mapping.fromAccount, mapping.toAccount, power, log.stamp⟩) =
        if store.mappedTo fromDelegate = some toDelegate then
          if fromDelegate = holder then power else 0
        else 0 := by
    unfold sentBetween Store.mappedTo
    by_cases isHolder : fromDelegate = holder
    · rw [isHolder]
      cases found : store.delegateMappings.find holder with
      | none => simp
      | some mapping =>
          have sameId : mapping.fromAccount = holder :=
            Keyed.key_of_find _ found
          simp [Delegate.id, sameId, eq_comm]
    · rw [if_neg isHolder, ite_self]
      cases found : store.delegateMappings.find holder with
      | none => rfl
      | some mapping =>
          have sameId : mapping.fromAccount = holder :=
            Keyed.key_of_find _ found
          simp [Delegate.id, sameId, isHolder]
  have appended (front back : List Delegate) :
      sentBetween fromDelegate toDelegate (front ++ back) =
        sentBetween fromDelegate toDelegate front +
          sentBetween fromDelegate toDelegate back := by
    simp [sentBetween]
  unfold updates
  rw [event]
  dsimp only
  rw [appended, side, side]
  split
  · split
    · split
      · omega
      · omega
    · omega
  · rfl

end Records

section Mappings

/-- The mapping row of an account has the power of the record to the delegate,
unless that is the zero address. -/
def Synced (store : Store) (account : Address) : Prop :=
  ∀ mapping, store.delegateMappings.find account = some mapping →
    mapping.toAccount ≠ zeroAddress →
    mapping.power = store.delegatePower account mapping.toAccount

theorem find_storeDelegate (current : Delegate) (account : Address) :
    (storeDelegate store current).delegateMappings.find account =
      (store.delegateMappings.find account).map fun mapping =>
        if account = current.fromDelegate then
          { mapping with
            power := (storeDelegate store current).delegatePower
              current.fromDelegate current.toDelegate }
        else mapping := by
  have ownPair : (current.fromDelegate, current.toDelegate) = current.id := rfl
  rw [delegateMappings_storeDelegate, find_storeMappingPower,
    delegatePower_storeDelegate, storePair_power, if_pos ownPair]
  rfl

theorem synced_storeDelegate {current : Delegate}
    (follows : store.mappedTo current.fromDelegate =
      some current.toDelegate) :
    Synced (storeDelegate store current) current.fromDelegate := by
  intro mapping found _
  rw [find_storeDelegate] at found
  obtain ⟨previous, before, rfl⟩ := Option.map_eq_some_iff.mp found
  have receiver : previous.toAccount = current.toDelegate := by
    rw [Store.mappedTo, before] at follows
    exact Option.some.inj follows
  simp only [if_true]
  rw [receiver]

theorem Synced.storeDelegate_of_ne {account : Address} {current : Delegate}
    (synced : Synced store account) (other : account ≠ current.fromDelegate) :
    Synced (storeDelegate store current) account := by
  intro mapping found nonzero
  rw [find_storeDelegate] at found
  obtain ⟨previous, before, rfl⟩ := Option.map_eq_some_iff.mp found
  rw [if_neg other] at nonzero ⊢
  have otherPair : (account, previous.toAccount) ≠ current.id := fun same =>
    other (congrArg Prod.fst same)
  rw [delegatePower_storeDelegate, if_neg otherPair, add_zero]
  exact synced previous before nonzero

theorem Synced.foldl {account : Address} {currents : List Delegate}
    (synced : Synced store account)
    (follow : ∀ current ∈ currents,
      store.mappedTo current.fromDelegate = some current.toDelegate) :
    Synced (currents.foldl storeDelegate store) account := by
  induction currents generalizing store with
  | nil => exact synced
  | cons current rest ih =>
      apply ih
      · by_cases same : account = current.fromDelegate
        · rw [same]
          exact synced_storeDelegate (follow current List.mem_cons_self)
        · exact synced.storeDelegate_of_ne same
      · intro later member
        rw [mappedTo_storeDelegate]
        exact follow later (List.mem_cons_of_mem _ member)

theorem mappedTo_of_mem_updates_transfer {log : EvmLog TokenEvent}
    {fromAccount toAccount : Address} {value : Int} {current : Delegate}
    (event : log.event = .transfer fromAccount toAccount value)
    (member : current ∈ updates standard choice store log) :
    store.mappedTo current.fromDelegate = some current.toDelegate := by
  have side {holder : Address} {power : Int}
      (sideMember : current ∈
        (store.delegateMappings.find holder).toList.map fun mapping =>
          (⟨mapping.fromAccount, mapping.toAccount, power, log.stamp⟩ :
            Delegate)) :
      store.mappedTo current.fromDelegate = some current.toDelegate := by
    obtain ⟨mapping, isFound, rfl⟩ := List.mem_map.mp sideMember
    have found := Option.mem_toList.mp isFound
    have sameId : mapping.fromAccount = holder := Keyed.key_of_find _ found
    show (store.delegateMappings.find mapping.fromAccount).map _ = _
    rw [sameId, Option.mem_def.mp found]
    rfl
  unfold updates at member
  rw [event] at member
  rcases List.mem_append.mp member with sent | received
  · exact side sent
  · exact side received

theorem Synced.transfer {log : EvmLog TokenEvent}
    {fromAccount toAccount account : Address} {value : Int}
    (synced : Synced store account)
    (event : log.event = .transfer fromAccount toAccount value)
    (handled : handle standard choice store log = .ok next) :
    Synced next account := by
  obtain ⟨base, prepared, rfl⟩ := handle_eq_ok handled
  obtain ⟨_, _, mappings, _⟩ := prepared.otherwise (by simp [event])
  apply Synced.foldl
  · intro mapping found nonzero
    rw [mappings] at found
    rw [Store.delegatePower, prepared.delegates]
    exact synced mapping found nonzero
  · intro current member
    rw [Store.mappedTo, mappings]
    exact mappedTo_of_mem_updates_transfer event member

theorem Synced.delegateChanged_of_ne {log : EvmLog TokenEvent}
    {delegator fromDelegate toDelegate account : Address}
    (synced : Synced store account) (other : account ≠ delegator)
    (event : log.event = .delegateChanged delegator fromDelegate toDelegate)
    (handled : handle standard choice store log = .ok next) :
    Synced next account := by
  obtain ⟨base, prepared, rfl⟩ := handle_eq_ok handled
  obtain ⟨_, _, mappings, _⟩ := prepared.changed _ _ _ event
  have baseSynced : Synced base account := by
    intro mapping found nonzero
    rw [mappings, Keyed.find_save] at found
    have notNew : account ≠ DelegateMapping.fromAccount
        ⟨delegator, toDelegate, 0, log.stamp⟩ := other
    rw [if_neg notNew, Keyed.find_remove, if_neg other] at found
    rw [Store.delegatePower, prepared.delegates]
    exact synced mapping found nonzero
  unfold updates
  rw [event]
  dsimp only
  split
  · exact baseSynced.storeDelegate_of_ne other
  · exact baseSynced

theorem synced_delegateChanged {log : EvmLog TokenEvent}
    {delegator fromDelegate toDelegate : Address}
    (event : log.event = .delegateChanged delegator fromDelegate toDelegate)
    (empty : toDelegate ≠ zeroAddress →
      store.delegatePower delegator toDelegate = 0)
    (handled : handle standard choice store log = .ok next) :
    Synced next delegator := by
  obtain ⟨base, prepared, rfl⟩ := handle_eq_ok handled
  obtain ⟨_, _, mappings, _⟩ := prepared.changed _ _ _ event
  have row : base.delegateMappings.find delegator =
      some ⟨delegator, toDelegate, 0, log.stamp⟩ := by
    rw [mappings, Keyed.find_save]
    exact if_pos rfl
  unfold updates
  rw [event]
  dsimp only
  split
  · apply synced_storeDelegate
    rw [Store.mappedTo, row]
    rfl
  · intro mapping found nonzero
    rw [List.foldl_nil, row] at found
    cases found
    rw [List.foldl_nil, Store.delegatePower, prepared.delegates]
    exact (empty nonzero).symm

end Mappings

section Attribution

/-- The log is about the votes of a delegate that a change of delegates in its
transaction announces. -/
structure VotesOf (announcement : Announcement) (delivery : Delivery) :
    Prop where
  hashed : delivery.log.transactionHash = announcement.transactionHash
  changes : VotesToken.ChangesVotes delivery.log.event
  announced : ∀ delegate previousVotes newVotes,
    delivery.log.event =
      .delegateVotesChanged delegate previousVotes newVotes →
    delegate = announcement.fromDelegate ∨ delegate = announcement.toDelegate

variable {announcement : Announcement} {delivery : Delivery}
  {deliveries : List Delivery}

theorem SoleAnnouncement.finds (sole : SoleAnnouncement store announcement)
    (votes : VotesOf announcement delivery) {delegate : Address}
    {previousVotes newVotes : Int}
    (event : delivery.log.event =
      .delegateVotesChanged delegate previousVotes newVotes) :
    ∃ rolling,
      findRolling delivery.choice store delivery.log.transactionHash =
          some rolling ∧
        rolling.announcement = announcement ∧ rolling.Names delegate := by
  obtain ⟨rolling, found, same⟩ := sole.isFound delivery.choice
  rw [← votes.hashed] at found
  refine ⟨rolling, found, same, ?_⟩
  have named := votes.announced _ _ _ event
  rw [← same] at named
  exact named

theorem SoleAnnouncement.updates_eq (standard : Option String)
    (sole : SoleAnnouncement store announcement)
    (votes : VotesOf announcement delivery) :
    ∃ delegate previousVotes newVotes stamp,
      delegate ≠ zeroAddress ∧
      delivery.log.event =
        .delegateVotesChanged delegate previousVotes newVotes ∧
      updates standard delivery.choice store delivery.log =
        [⟨announcement.delegator, delegate, newVotes - previousVotes,
          stamp⟩] := by
  obtain ⟨delegate, previousVotes, newVotes, nonzero, event⟩ := votes.changes
  obtain ⟨rolling, found, same, names⟩ := sole.finds votes event
  refine ⟨delegate, previousVotes, newVotes, rolling.stamp, nonzero, event, ?_⟩
  rw [updates_of_attributed event nonzero found names, ← same]
  rfl

theorem delegatePower_of_sole (sole : SoleAnnouncement store announcement)
    (run : Runs.Run (Step standard) store deliveries next)
    (votes : ∀ delivery ∈ deliveries, VotesOf announcement delivery)
    (fromDelegate toDelegate : Address) :
    next.delegatePower fromDelegate toDelegate =
      store.delegatePower fromDelegate toDelegate +
        if fromDelegate = announcement.delegator then
          ((deliveries.map fun delivery => delivery.log.event).map
            (VotesToken.votesGained toDelegate)).sum
        else 0 := by
  induction run with
  | start => simp
  | @extend earlier state next delivery run taken ih =>
      have earlierVotes : ∀ other ∈ earlier, VotesOf announcement other :=
        fun other member => votes other (by simp [member])
      have same := announced_of_changesVotes run fun other member =>
        (earlierVotes other member).changes
      obtain ⟨delegate, previousVotes, newVotes, stamp, _, event, updated⟩ :=
        (sole.of_announced_eq same).updates_eq standard
          (votes delivery (by simp))
      rw [delegatePower_handle _ _ taken, updated, ih earlierVotes]
      rw [List.map_append, List.map_append, List.sum_append]
      simp only [sentBetween, Delegate.id, List.map_singleton,
        List.sum_singleton, event, VotesToken.votesGained, Prod.mk.injEq]
      by_cases isDelegator : fromDelegate = announcement.delegator
      · simp only [isDelegator, true_and, if_true]
        omega
      · simp only [isDelegator, false_and, if_false]
        omega

theorem attributed_of_sole {call : Call} (delegates : call.moved = none)
    (sole : SoleAnnouncement store announcement)
    (run : Runs.Run (Step standard) store deliveries next)
    (votes : ∀ delivery ∈ deliveries, VotesOf announcement delivery) :
    Runs.Run (Runs.restrict (VotesAttributed call) (Step standard)) store
      deliveries next := by
  induction run with
  | start => exact .start
  | @extend earlier state next delivery run taken ih =>
      have earlierVotes : ∀ other ∈ earlier, VotesOf announcement other :=
        fun other member => votes other (by simp [member])
      have same := announced_of_changesVotes run fun other member =>
        (earlierVotes other member).changes
      have lastVotes := votes delivery (by simp)
      obtain ⟨delegate, previousVotes, newVotes, _, event⟩ :=
        lastVotes.changes
      obtain ⟨rolling, found, _, names⟩ :=
        (sole.of_announced_eq same).finds lastVotes event
      refine .extend (ih earlierVotes) ⟨?_, taken⟩
      unfold VotesAttributed
      rw [event]
      exact ⟨fun _ => delegates, fun _ => ⟨rolling, found, names⟩⟩

theorem attributed_of_unannounced {call : Call} {hash : String}
    (moves : call.moved ≠ none) (unannounced : Unannounced store hash)
    (run : Runs.Run (Step standard) store deliveries next)
    (hashed : ∀ delivery ∈ deliveries, delivery.log.transactionHash = hash)
    (changes : ∀ delivery ∈ deliveries,
      VotesToken.ChangesVotes delivery.log.event) :
    Runs.Run (Runs.restrict (VotesAttributed call) (Step standard)) store
      deliveries next := by
  induction run with
  | start => exact .start
  | @extend earlier state next delivery run taken ih =>
      have earlierChanges : ∀ other ∈ earlier,
          VotesToken.ChangesVotes other.log.event :=
        fun other member => changes other (by simp [member])
      have same := announced_of_changesVotes run earlierChanges
      obtain ⟨_, _, _, _, event⟩ := changes delivery (by simp)
      refine .extend (ih (fun other member => hashed other (by simp [member]))
        earlierChanges) ⟨?_, taken⟩
      unfold VotesAttributed
      rw [event, hashed delivery (by simp)]
      have missed := unannounced.of_announced_eq same
      exact ⟨fun attributed => absurd attributed missed.not_attributed,
        fun delegates => absurd delegates moves⟩

theorem Synced.of_sole {account : Address} (synced : Synced store account)
    (other : account ≠ announcement.delegator)
    (sole : SoleAnnouncement store announcement)
    (run : Runs.Run (Step standard) store deliveries next)
    (votes : ∀ delivery ∈ deliveries, VotesOf announcement delivery) :
    Synced next account := by
  induction run with
  | start => exact synced
  | @extend earlier state next delivery run taken ih =>
      have earlierVotes : ∀ other ∈ earlier, VotesOf announcement other :=
        fun other member => votes other (by simp [member])
      have same := announced_of_changesVotes run fun other member =>
        (earlierVotes other member).changes
      obtain ⟨_, _, _, _, _, event, updated⟩ :=
        (sole.of_announced_eq same).updates_eq standard
          (votes delivery (by simp))
      obtain ⟨base, prepared, rfl⟩ := handle_eq_ok taken
      obtain ⟨_, _, mappings, _⟩ := prepared.otherwise (by simp [event])
      rw [updated]
      apply Synced.storeDelegate_of_ne
      · intro mapping found nonzero
        rw [mappings] at found
        rw [Store.delegatePower, prepared.delegates]
        exact ih earlierVotes mapping found nonzero
      · exact other

/-- The last change of votes is that of the new delegate, to which the
delegator is mapped. -/
theorem synced_of_sole (sole : SoleAnnouncement store announcement)
    (mapped : store.mappedTo announcement.delegator =
      some announcement.toDelegate)
    (run : Runs.Run (Step standard) store (deliveries ++ [delivery]) next)
    (votes : ∀ other ∈ deliveries ++ [delivery], VotesOf announcement other)
    {previousVotes newVotes : Int}
    (event : delivery.log.event =
      .delegateVotesChanged announcement.toDelegate previousVotes newVotes) :
    Synced next announcement.delegator := by
  obtain ⟨state, earlierRun, taken⟩ := run.last
  have earlierChanges : ∀ other ∈ deliveries,
      VotesToken.ChangesVotes other.log.event :=
    fun other member => (votes other (by simp [member])).changes
  have same := announced_of_changesVotes earlierRun earlierChanges
  obtain ⟨delegate, _, _, _, _, named, updated⟩ :=
    (sole.of_announced_eq same).updates_eq standard
      (votes delivery (by simp))
  rw [event] at named
  cases named
  obtain ⟨base, prepared, rfl⟩ := handle_eq_ok taken
  obtain ⟨_, _, mappings, _⟩ := prepared.otherwise (by simp [event])
  rw [updated]
  have baseMapped : base.mappedTo announcement.delegator =
      some announcement.toDelegate := by
    rw [← mapped, ← mappedTo_of_changesVotes earlierRun earlierChanges,
      Store.mappedTo, mappings]
    rfl
  exact synced_storeDelegate baseMapped

theorem ledgers_of_unannounced {hash : String}
    (unannounced : Unannounced store hash)
    (run : Runs.Run (Step standard) store deliveries next)
    (hashed : ∀ delivery ∈ deliveries, delivery.log.transactionHash = hash)
    (changes : ∀ delivery ∈ deliveries,
      VotesToken.ChangesVotes delivery.log.event) :
    next.delegates = store.delegates ∧
      next.contributors = store.contributors ∧
      next.delegateMappings = store.delegateMappings := by
  induction run with
  | start => exact ⟨rfl, rfl, rfl⟩
  | @extend earlier state next delivery run taken ih =>
      have earlierChanges : ∀ other ∈ earlier,
          VotesToken.ChangesVotes other.log.event :=
        fun other member => changes other (by simp [member])
      have same := announced_of_changesVotes run earlierChanges
      have before := ih (fun other member => hashed other (by simp [member]))
        earlierChanges
      obtain ⟨delegate, _, _, _, event⟩ := changes delivery (by simp)
      obtain ⟨base, prepared, rfl⟩ := handle_eq_ok taken
      have missed : ¬Attributed delivery.choice state
          delivery.log.transactionHash delegate := by
        rw [hashed delivery (by simp)]
        exact (unannounced.of_announced_eq same).not_attributed
      rw [updates_of_not_attributed event missed]
      obtain ⟨contributors, _, mappings, _⟩ :=
        prepared.otherwise (by simp [event])
      exact ⟨prepared.delegates.trans before.1, contributors.trans before.2.1,
        mappings.trans before.2.2⟩

end Attribution

end TokenHandler

namespace TokenSystem

variable {standard : Option String} {system next : TokenSystem}
  {hash : String} {invocation : Invocation}
  {allowed : Call → Store → TokenHandler.Delivery → Prop}

section NewCalls

/-- How the call of a new transaction is booked: the first log, and then the
changes of votes of a change of delegates. -/
inductive Booked (standard : Option String) (hash : String)
    (system : TokenSystem) (call : Call) (next : TokenSystem) : Prop where
  | moves {fromAccount toAccount : Address} {value : Nat}
      {first : TokenHandler.Delivery} {booked : Store}
      (moved : call.moved = some (fromAccount, toAccount, value))
      (updated : system.token.update standard fromAccount toAccount value =
        some next.token)
      (event : first.log.event = .transfer fromAccount toAccount value)
      (taken : TokenHandler.Step standard system.store first booked)
      (delegates : next.store.delegates = booked.delegates)
      (contributors : next.store.contributors = booked.contributors)
      (mappings : next.store.delegateMappings = booked.delegateMappings)
  | delegates {holder : Account} {delegatee : Address}
      {first : TokenHandler.Delivery} {rest : List TokenHandler.Delivery}
      {booked : Store}
      (isDelegate : call = .delegate holder delegatee)
      (isNext : next.token = system.token.setDelegate holder delegatee)
      (event : first.log.event = .delegateChanged holder
        (system.token.delegateOf holder) delegatee)
      (events : rest.map (fun delivery => delivery.log.event) =
        system.token.moveDelegateVotes (system.token.delegateOf holder)
          delegatee (system.token.balanceOf holder))
      (taken : TokenHandler.Step standard system.store first booked)
      (run : Runs.Run (TokenHandler.Step standard) booked rest next.store)
      (sole : TokenHandler.SoleAnnouncement booked
        ⟨holder, system.token.delegateOf holder, delegatee, hash⟩)
      (votes : ∀ delivery ∈ rest, TokenHandler.VotesOf
        ⟨holder, system.token.delegateOf holder, delegatee, hash⟩ delivery)

/-- A change of delegates in a new transaction is the only one there, and the
changes of votes after it are those of its two delegates. -/
theorem Invokes.announces
    (invokes : Invokes standard allowed hash system invocation next)
    (unannounced : TokenHandler.Unannounced system.store hash)
    {account : Account} {delegatee : Address}
    {first : TokenHandler.Delivery} {rest : List TokenHandler.Delivery}
    {booked : Store}
    (deliveries : invocation.deliveries = first :: rest)
    (taken : TokenHandler.Step standard system.store first booked)
    (event : first.log.event = .delegateChanged account
      (system.token.delegateOf account) delegatee)
    (events : rest.map (fun delivery => delivery.log.event) =
      system.token.moveDelegateVotes (system.token.delegateOf account)
        delegatee (system.token.balanceOf account)) :
    TokenHandler.SoleAnnouncement booked
        ⟨account, system.token.delegateOf account, delegatee, hash⟩ ∧
      ∀ delivery ∈ rest, TokenHandler.VotesOf
        ⟨account, system.token.delegateOf account, delegatee, hash⟩
        delivery := by
  have hashed := invokes.hashed
  rw [deliveries] at hashed
  have firstHash : first.log.transactionHash = hash := hashed first (by simp)
  constructor
  · rw [← firstHash] at unannounced ⊢
    exact .of_delegateChanged unannounced event taken
  · intro delivery member
    have emitted : delivery.log.event ∈
        system.token.moveDelegateVotes (system.token.delegateOf account)
          delegatee (system.token.balanceOf account) := by
      rw [← events]
      exact List.mem_map_of_mem member
    refine ⟨hashed delivery (by simp [member]),
      VotesToken.changesVotes_moveDelegateVotes _ _ _ _ emitted, ?_⟩
    intro delegate previousVotes newVotes changed
    rw [changed] at emitted
    exact VotesToken.delegate_of_mem_moveDelegateVotes emitted

theorem Invokes.booked
    (invokes : Invokes standard allowed hash system invocation next)
    (unannounced : TokenHandler.Unannounced system.store hash) :
    Booked standard hash system invocation.call next := by
  obtain ⟨first, rest, booked, deliveries, taken, run, changes, call⟩ :=
    invokes.split
  have hashed := invokes.hashed
  rw [deliveries] at hashed
  rcases call with
    ⟨fromAccount, toAccount, value, moved, updated, event⟩ |
      ⟨holder, delegatee, isDelegate, isNext, event, events⟩
  · have same := TokenHandler.announced_handle (by simp [event]) taken
    obtain ⟨delegates, contributors, mappings⟩ :=
      TokenHandler.ledgers_of_unannounced (unannounced.of_announced_eq same)
        run.unrestrict
        (fun delivery member => hashed delivery (by simp [member])) changes
    exact .moves moved updated event taken delegates contributors mappings
  · obtain ⟨sole, votes⟩ :=
      invokes.announces unannounced deliveries taken event events
    exact .delegates isDelegate isNext event events taken run.unrestrict sole
      votes

/-- The call of a new transaction has its changes of votes booked exactly when
it changes a delegate. -/
theorem Invokes.attributed
    (invokes : Invokes standard allowed hash system invocation next)
    (unannounced : TokenHandler.Unannounced system.store hash) :
    Invokes standard TokenHandler.VotesAttributed hash system invocation
      next := by
  obtain ⟨first, rest, booked, deliveries, taken, run, changes, call⟩ :=
    invokes.split
  have hashed := invokes.hashed
  rw [deliveries] at hashed
  have attributed : Runs.Run
      (Runs.restrict (TokenHandler.VotesAttributed invocation.call)
        (TokenHandler.Step standard)) booked rest next.store ∧
      TokenHandler.VotesAttributed invocation.call system.store first := by
    rcases call with
      ⟨fromAccount, toAccount, value, moved, _, event⟩ |
        ⟨account, delegatee, isDelegate, _, event, events⟩
    · have same := TokenHandler.announced_handle (by simp [event]) taken
      constructor
      · apply TokenHandler.attributed_of_unannounced _
          (unannounced.of_announced_eq same) run.unrestrict _ changes
        · simp [moved]
        · exact fun delivery member => hashed delivery (by simp [member])
      · simp [TokenHandler.VotesAttributed, event]
    · obtain ⟨sole, votes⟩ :=
        invokes.announces unannounced deliveries taken event events
      constructor
      · apply TokenHandler.attributed_of_sole _ sole run.unrestrict votes
        rw [isDelegate]
        rfl
      · simp [TokenHandler.VotesAttributed, event]
  refine ⟨invokes.executed, invokes.hashed, ?_, invokes.hashes⟩
  rw [deliveries]
  exact .cons ⟨attributed.2, taken⟩ attributed.1

/-- A call moves what a record holds as it moves what the account sends to the
delegate. -/
theorem delegatePower_of_invokes
    (invokes : Invokes standard allowed hash system invocation next)
    (mapped : Mapped system.token system.store)
    (unannounced : TokenHandler.Unannounced system.store hash)
    (account : Address) {delegate : Address}
    (nonzero : delegate ≠ zeroAddress) :
    next.store.delegatePower account delegate -
        system.store.delegatePower account delegate =
      next.token.sends account delegate -
        system.token.sends account delegate := by
  cases invokes.booked unannounced with
  | moves moved updated event taken delegates contributors mappings =>
      have afterFirst :=
        TokenHandler.delegatePower_handle account delegate taken
      rw [TokenHandler.sentBetween_updates_transfer _ _ event,
        movedPower_eq_unitsOf] at afterFirst
      simp only [mapped.mappedTo_iff nonzero] at afterFirst
      rw [VotesToken.sends_update nonzero updated, Store.delegatePower,
        delegates]
      unfold Store.delegatePower at afterFirst ⊢
      omega
  | delegates isDelegate isNext event events taken run sole votes =>
      have afterFirst :=
        TokenHandler.delegatePower_handle account delegate taken
      have afterRest := TokenHandler.delegatePower_of_sole sole run votes
        account delegate
      rw [TokenHandler.sentBetween_updates_delegateChanged _ _ event]
        at afterFirst
      rw [events, VotesToken.votesGained_moveDelegateVotes _ _ _ nonzero]
        at afterRest
      rw [isNext, VotesToken.sends_setDelegate, afterRest, afterFirst]
      dsimp only
      omega

end NewCalls

section ZeroAddress

/-- Tokens do not move to or from another account that is mapped to the zero
address. -/
def KeepsUndelegated (store : Store) (call : Call) : Prop :=
  ∀ move ∈ call.moved, 0 < move.2.2 → move.1 ≠ move.2.1 →
    store.mappedTo move.1 ≠ some zeroAddress ∧
      store.mappedTo move.2.1 ≠ some zeroAddress

instance KeepsUndelegated.decidable (store : Store) (call : Call) :
    Decidable (KeepsUndelegated store call) :=
  inferInstanceAs (Decidable (∀ move ∈ call.moved, _))

theorem KeepsUndelegated.books_nothing {store : Store} {call : Call}
    (keeps : KeepsUndelegated store call) {fromAccount toAccount : Address}
    {value : Nat} (moved : call.moved = some (fromAccount, toAccount, value))
    {account : Address}
    (undelegated : store.mappedTo account = some zeroAddress) :
    ((if account = toAccount then (value : Int) else 0) -
      if account = fromAccount then (value : Int) else 0) = 0 := by
  by_cases moves : 0 < value ∧ fromAccount ≠ toAccount
  · obtain ⟨notFrom, notTo⟩ := keeps _ moved moves.1 moves.2
    have otherThanTo : account ≠ toAccount := by
      rintro rfl
      exact notTo undelegated
    have otherThanFrom : account ≠ fromAccount := by
      rintro rfl
      exact notFrom undelegated
    rw [if_neg otherThanTo, if_neg otherThanFrom]
    rfl
  · rcases not_and_or.mp moves with nothing | toSelf
    · have isZero : value = 0 := by omega
      simp [isZero]
    · rw [not_not.mp toSelf, sub_self]

theorem delegatePower_zeroAddress_of_invokes
    (invokes : Invokes standard allowed hash system invocation next)
    (erc20 : TokenHandler.isErc721 standard = false)
    (unannounced : TokenHandler.Unannounced system.store hash)
    (keeps : KeepsUndelegated system.store invocation.call)
    (account : Address) :
    next.store.delegatePower account zeroAddress =
      system.store.delegatePower account zeroAddress := by
  cases invokes.booked unannounced with
  | moves moved updated event taken delegates contributors mappings =>
      rw [Store.delegatePower, delegates]
      refine (TokenHandler.delegatePower_handle account zeroAddress
        taken).trans ?_
      rw [TokenHandler.sentBetween_updates_transfer _ _ event,
        TokenHandler.movedPower_of_erc20 erc20]
      split
      · rename_i undelegated
        rw [keeps.books_nothing moved undelegated, add_zero]
      · exact add_zero _
  | delegates isDelegate isNext event events taken run sole votes =>
      rw [TokenHandler.delegatePower_of_sole sole run votes,
        TokenHandler.delegatePower_handle _ _ taken,
        TokenHandler.sentBetween_updates_delegateChanged _ _ event,
        VotesToken.sum_votesGained_zeroAddress fun delivery member =>
          (votes delivery member).changes, ite_self, add_zero, add_zero]

/-- Tokens move between accounts of which both are mapped to the zero address,
or neither is. -/
def BalancesUndelegated (store : Store) (call : Call) : Prop :=
  ∀ move ∈ call.moved, 0 < move.2.2 →
    (store.mappedTo move.1 = some zeroAddress ↔
      store.mappedTo move.2.1 = some zeroAddress)

instance BalancesUndelegated.decidable (store : Store) (call : Call) :
    Decidable (BalancesUndelegated store call) :=
  inferInstanceAs (Decidable (∀ move ∈ call.moved, _))

theorem powerOf_zeroAddress_of_invokes
    (invokes : Invokes standard allowed hash system invocation next)
    (erc20 : TokenHandler.isErc721 standard = false)
    (unannounced : TokenHandler.Unannounced system.store hash)
    (evenly : BalancesUndelegated system.store invocation.call) :
    next.store.powerOf zeroAddress = system.store.powerOf zeroAddress := by
  obtain ⟨first, rest, booked, _, taken, run, changes, call⟩ :=
    (invokes.attributed unannounced).split
  rw [TokenHandler.powerOf_of_changesVotes run changes zeroAddress,
    VotesToken.sum_votesGained_zeroAddress changes, ite_self, add_zero,
    TokenHandler.powerOf_handle taken]
  rcases call with
    ⟨fromAccount, toAccount, value, moved, _, event⟩ | ⟨_, _, _, _, event, _⟩
  · rw [TokenHandler.sentTo_updates_transfer _ event,
      TokenHandler.movedPower_of_erc20 erc20]
    by_cases moves : 0 < value
    · have both := evenly _ moved moves
      dsimp only at both
      simp only [both, sub_self, add_zero]
    · have isZero : value = 0 := by omega
      simp [isZero]
  · rw [TokenHandler.sentTo_updates_delegateChanged _ event, add_zero]

end ZeroAddress

section Rows

/-- An account that has tokens delegates them to another than before. -/
def MovesDelegation (token : VotesToken) : Call → Prop
  | .delegate account delegatee =>
      delegatee ≠ zeroAddress → delegatee = token.delegateOf account →
        token.balanceOf account = 0
  | _ => True

instance MovesDelegation.decidable (token : VotesToken) (call : Call) :
    Decidable (MovesDelegation token call) :=
  match call with
  | .mint _ _ => isTrue trivial
  | .burn _ _ => isTrue trivial
  | .transfer _ _ _ => isTrue trivial
  | .delegate _ _ => inferInstanceAs (Decidable (_ → _ → _))

/-- The row of an account that has changed its delegate.  Without changes of
votes it had nothing to move, or delegates as before; otherwise the last of
them is that of the new delegate. -/
theorem synced_of_delegates {holder : Account} {delegatee : Address}
    {first : TokenHandler.Delivery} {rest : List TokenHandler.Delivery}
    {booked : Store}
    (event : first.log.event = .delegateChanged holder
      (system.token.delegateOf holder) delegatee)
    (events : rest.map (fun delivery => delivery.log.event) =
      system.token.moveDelegateVotes (system.token.delegateOf holder)
        delegatee (system.token.balanceOf holder))
    (taken : TokenHandler.Step standard system.store first booked)
    (run : Runs.Run (TokenHandler.Step standard) booked rest next.store)
    (sole : TokenHandler.SoleAnnouncement booked
      ⟨holder, system.token.delegateOf holder, delegatee, hash⟩)
    (votes : ∀ delivery ∈ rest, TokenHandler.VotesOf
      ⟨holder, system.token.delegateOf holder, delegatee, hash⟩ delivery)
    (empty : delegatee ≠ zeroAddress →
      system.store.delegatePower holder delegatee = 0) :
    TokenHandler.Synced next.store holder := by
  have row := TokenHandler.mappedTo_handle_delegateChanged event taken holder
  rw [if_pos rfl] at row
  by_cases quiet : rest = []
  · rw [quiet] at run
    rw [run.eq_of_nil]
    exact TokenHandler.synced_delegateChanged event empty taken
  · intro mapping found nonzero
    have receiver : mapping.toAccount = delegatee := by
      rw [← TokenHandler.mappedTo_of_changesVotes run fun delivery member =>
        (votes delivery member).changes, Store.mappedTo, found] at row
      exact Option.some.inj row
    have changes : system.token.moveDelegateVotes
        (system.token.delegateOf holder) delegatee
          (system.token.balanceOf holder) ≠ [] := by
      rw [← events]
      exact mt List.map_eq_nil_iff.mp quiet
    obtain ⟨front, previousVotes, newVotes, ends⟩ :=
      VotesToken.moveDelegateVotes_last (receiver ▸ nonzero) changes
    rw [ends] at events
    obtain ⟨earlier, last, rfl, _, lastEvent⟩ :=
      List.map_eq_append_iff.mp events
    obtain ⟨delivery, rfl, lastVotes⟩ :=
      List.map_eq_singleton_iff.mp lastEvent
    exact TokenHandler.synced_of_sole sole row run votes lastVotes mapping
      found nonzero

theorem synced_of_invokes
    (invokes : Invokes standard allowed hash system invocation next)
    (records : ∀ account delegate, delegate ≠ zeroAddress →
      system.store.delegatePower account delegate =
        system.token.sends account delegate)
    (synced : ∀ account, TokenHandler.Synced system.store account)
    (unannounced : TokenHandler.Unannounced system.store hash)
    (moves : MovesDelegation system.token invocation.call)
    (account : Address) : TokenHandler.Synced next.store account := by
  cases invokes.booked unannounced with
  | moves moved updated event taken delegates contributors mappings =>
      intro mapping found nonzero
      rw [mappings] at found
      rw [Store.delegatePower, delegates]
      exact (synced account).transfer event taken mapping found nonzero
  | @delegates holder delegatee _ _ _ isDelegate isNext event events taken run
      sole votes =>
      by_cases isHolder : account = holder
      · rw [isHolder]
        apply synced_of_delegates event events taken run sole votes
        intro nonzero
        rw [records _ _ nonzero, VotesToken.sends, VotesToken.votesFrom]
        split
        · rename_i again
          rw [isDelegate] at moves
          rw [moves nonzero again]
          rfl
        · rfl
      · apply TokenHandler.Synced.of_sole _ isHolder sole run votes
        exact (synced account).delegateChanged_of_ne isHolder event taken

end Rows

section Histories

/-- The transaction makes one call, under a condition. -/
def MakesOne (condition : VotesToken → Store → Call → Prop)
    (system : TokenSystem) (transaction : Transaction) : Prop :=
  ∃ invocation, transaction.invocations = [invocation] ∧
    condition system.token system.store invocation.call

instance MakesOne.decidable
    (condition : VotesToken → Store → Call → Prop)
    [∀ token store call, Decidable (condition token store call)]
    (system : TokenSystem) (transaction : Transaction) :
    Decidable (MakesOne condition system transaction) :=
  match invocations : transaction.invocations with
  | [] => isFalse (by simp [MakesOne, invocations])
  | [invocation] =>
      decidable_of_iff
        (condition system.token system.store invocation.call)
        (by simp [MakesOne, invocations])
  | _ :: _ :: _ => isFalse (by simp [MakesOne, invocations])

theorem Transacts.single {transaction : Transaction}
    (transacts : Transacts standard allowed system transaction next)
    (single : transaction.invocations = [invocation]) :
    Invokes standard allowed transaction.hash
      { system with hashes := transaction.hash :: system.hashes } invocation
      next := by
  have run := transacts.invoked
  rw [single] at run
  obtain ⟨after, invokes, rest⟩ := run.first
  rw [rest.eq_of_nil]
  exact invokes

/-- Whatever the store announces is of a transaction there has been. -/
def Hashed (system : TokenSystem) : Prop :=
  ∀ id announcement, system.store.announced id = some announcement →
    announcement.transactionHash ∈ system.hashes

theorem Hashed.unannounced {hash : String} (hashed : Hashed system)
    (fresh : hash ∉ system.hashes) :
    TokenHandler.Unannounced system.store hash := by
  intro id announcement announced same
  rw [← same] at fresh
  exact fresh (hashed id announcement announced)

theorem Hashed.invokes
    (hashed : Hashed system)
    (invokes : Invokes standard allowed hash
      { system with hashes := hash :: system.hashes } invocation next) :
    Hashed next := by
  obtain ⟨first, rest, booked, deliveries, taken, run, changes, call⟩ :=
    invokes.split
  have firstHash := invokes.hashed first (by simp [deliveries])
  intro id announcement announced
  rw [invokes.hashes]
  have before {other : Announcement}
      (isBefore : system.store.announced id = some other) :
      other.transactionHash ∈ hash :: system.hashes :=
    List.mem_cons_of_mem _ (hashed id other isBefore)
  rw [TokenHandler.announced_of_changesVotes run.unrestrict changes]
    at announced
  rcases call with ⟨_, _, _, _, _, event⟩ | ⟨_, _, _, _, event, _⟩
  · rw [TokenHandler.announced_handle (by simp [event]) taken] at announced
    exact before announced
  · rw [TokenHandler.announced_handle_delegateChanged event taken]
      at announced
    split at announced
    · cases announced
      rw [firstHash]
      exact List.mem_cons_self
    · exact before announced

/-- The store follows the token. -/
structure Follows (system : TokenSystem) : Prop extends
    PowerIsVotes system where
  balanced : TokenHandler.Balanced system.store
  hashed : Hashed system
  records : ∀ account delegate, delegate ≠ zeroAddress →
    system.store.delegatePower account delegate =
      system.token.sends account delegate

theorem hashed_initial : Hashed initial := by
  intro id announcement found
  cases found

theorem follows_initial : Follows initial where
  toPowerIsVotes := powerIsVotes_initial
  balanced := TokenHandler.balanced_empty
  hashed := hashed_initial
  records := by
    intro account delegate _
    exact (ite_self _).symm

theorem balanced_of_invokes
    (invokes : Invokes standard allowed hash system invocation next)
    (balanced : TokenHandler.Balanced system.store) :
    TokenHandler.Balanced next.store :=
  invokes.handled.preserves balanced fun _ _ _ before taken =>
    before.handle taken.2

theorem Follows.transacts {transaction : Transaction}
    (follows : Follows system)
    (transacts : Transacts standard allowed system transaction next)
    (single : transaction.invocations = [invocation]) :
    Follows next := by
  have invokes := transacts.single single
  have unannounced := follows.hashed.unannounced transacts.fresh
  constructor
  · have before : PowerIsVotes
        { system with hashes := transaction.hash :: system.hashes } :=
      ⟨follows.mapped, follows.power⟩
    exact before.invokes (invokes.attributed unannounced)
  · exact balanced_of_invokes invokes follows.balanced
  · exact follows.hashed.invokes invokes
  · intro account delegate nonzero
    have moved := delegatePower_of_invokes invokes follows.mapped unannounced
      account nonzero
    have same := follows.records account delegate nonzero
    dsimp only at moved
    omega

end Histories

section Samples

/-- The transaction of one call. -/
def singleCall (hash : String) (call : Call)
    (events : List (String × TokenEvent)) : Transaction where
  hash := hash
  invocations :=
    [⟨call, events.map fun (id, event) =>
      TokenHandler.sampleDelivery id hash event⟩]
  nonempty := by simp

/-- An account receives tokens and delegates them to another. -/
def sampleDelegated : List Transaction :=
  [singleCall "a" (.mint firstHolder 5)
      [("1", .transfer zeroAddress (sampleHolder 1) 5)],
    singleCall "b" (.delegate firstHolder (sampleHolder 2))
      [("2", .delegateChanged (sampleHolder 1) zeroAddress (sampleHolder 2)),
        ("3", .delegateVotesChanged (sampleHolder 2) 0 5)]]

/-- Some of the tokens go to an account that then delegates to itself. -/
def sampleSentOn : List Transaction :=
  sampleDelegated ++
    [singleCall "c"
        (.transfer firstHolder thirdHolder 2)
        [("4", .transfer (sampleHolder 1) (sampleHolder 3) 2),
          ("5", .delegateVotesChanged (sampleHolder 2) 5 3)],
      singleCall "d" (.delegate thirdHolder (sampleHolder 3))
        [("6", .delegateChanged (sampleHolder 3) zeroAddress
            (sampleHolder 3)),
          ("7", .delegateVotesChanged (sampleHolder 3) 0 2)]]

/-- The delegation is taken back. -/
def sampleUndelegated : List Transaction :=
  sampleDelegated ++
    [singleCall "c" (.delegate firstHolder zeroAddress)
      [("4", .delegateChanged (sampleHolder 1) (sampleHolder 2) zeroAddress),
        ("5", .delegateVotesChanged (sampleHolder 2) 5 0)]]

end Samples

section TotalPower

theorem totalPower_eq_sum (store : Store) :
    store.totalPower = ∑ account : Address, store.powerTo account := by
  unfold Store.totalPower Store.powerTo Keyed.sum
  rw [← total_sum]
  simp only [Finset.sum_ite_eq, Finset.mem_univ, if_true]

/-- The store follows the token, and nothing is booked to the zero address. -/
structure NoneForZero (system : TokenSystem) : Prop extends
    Follows system where
  empty : ∀ account, system.store.delegatePower account zeroAddress = 0

theorem NoneForZero.record (holds : NoneForZero system) {delegate : Delegate}
    (found : system.store.delegates.find delegate.id = some delegate)
    (forZero : delegate.fromDelegate = zeroAddress ∨
      delegate.toDelegate = zeroAddress) :
    delegate.power = 0 := by
  have power : system.store.delegatePower delegate.fromDelegate
      delegate.toDelegate = delegate.power :=
    Keyed.worthAt_of_find _ found
  rw [← power]
  by_cases toZero : delegate.toDelegate = zeroAddress
  · rw [toZero]
    exact holds.empty delegate.fromDelegate
  · rw [holds.records _ _ toZero, forZero.resolve_right toZero]
    exact VotesToken.votesFrom_zeroAddress toZero

theorem NoneForZero.powerOf (holds : NoneForZero system) :
    system.store.powerOf zeroAddress = 0 := by
  rw [holds.balanced.contributors]
  apply Keyed.sum_eq_zero
  intro delegate found
  split
  · rename_i toZero
    exact holds.record found (.inr toZero)
  · rfl

/-- As long as no tokens move to or from another account that is mapped to the
zero address, the global sum is that of all votes, and nothing is booked to the
zero address. -/
theorem total_power_is_votes
    (erc20 : TokenHandler.isErc721 standard = false)
    {transactions : List Transaction}
    (run : Runs.Run
      (Runs.restrict (MakesOne fun _ store call => KeepsUndelegated store call)
        (Transacts standard fun _ _ _ => True)) initial transactions system) :
    system.store.powerSum =
        ∑ account ∈ Finset.univ.erase zeroAddress,
          system.token.votes account ∧
      (∀ delegate ∈ system.store.delegates.values,
        delegate.fromDelegate = zeroAddress ∨
          delegate.toDelegate = zeroAddress → delegate.power = 0) ∧
      ∀ contributor ∈ system.store.contributors.values,
        contributor.id = zeroAddress → contributor.power = 0 := by
  have holds : NoneForZero system := by
    apply run.preserves
    · exact ⟨follows_initial, fun _ => rfl⟩
    · rintro before transaction after holds
        ⟨⟨invocation, single, keeps⟩, transacts⟩
      refine ⟨holds.toFollows.transacts transacts single, ?_⟩
      intro account
      rw [delegatePower_zeroAddress_of_invokes (transacts.single single) erc20
        (holds.hashed.unannounced transacts.fresh) keeps]
      exact holds.empty account
  refine ⟨?_, ?_, ?_⟩
  · calc
      system.store.powerSum = system.store.totalPower := holds.balanced.global
      _ = ∑ account : Address, system.store.powerTo account :=
        totalPower_eq_sum system.store
      _ = ∑ account : Address, system.store.powerOf account :=
        Finset.sum_congr rfl fun account _ =>
          (holds.balanced.contributors account).symm
      _ = ∑ account ∈ Finset.univ.erase zeroAddress,
            system.store.powerOf account := by
        rw [← Finset.add_sum_erase _ _ (Finset.mem_univ zeroAddress),
          holds.powerOf, zero_add]
      _ = ∑ account ∈ Finset.univ.erase zeroAddress,
            system.token.votes account :=
        Finset.sum_congr rfl fun account member =>
          holds.power account (Finset.ne_of_mem_erase member)
  · intro delegate member forZero
    exact holds.record ((Keyed.mem_values _).mp member) forZero
  · intro contributor member isZero
    have found := (Keyed.mem_values _).mp member
    rw [isZero] at found
    have power := holds.powerOf
    rw [Store.powerOf, Keyed.worthAt_of_find _ found] at power
    exact power

theorem total_power_is_votes_sampleUndelegated :
    ∃ system,
      Runs.Run (Transacts none fun _ _ _ => True) initial sampleUndelegated
        system ∧
      system.store.mappedTo (sampleHolder 1) = some zeroAddress ∧
      system.store.powerSum =
        ∑ account ∈ Finset.univ.erase zeroAddress,
          system.token.votes account := by
  have followed : (Runs.follow
      (MakesOne fun _ store call => KeepsUndelegated store call)
      (transact none fun _ _ _ => True) initial sampleUndelegated).any
      fun system =>
        system.store.mappedTo (sampleHolder 1) = some zeroAddress := by
    decide +kernel
  obtain ⟨system, reached, mapped⟩ := (Option.any_eq_true _ _).mp followed
  have run := Runs.Run.of_follow (fun _ _ _ => transacts_of_transact) reached
  exact ⟨system, run.unrestrict, of_decide_eq_true mapped,
    (total_power_is_votes (by decide +kernel) run).1⟩

/-- Tokens that an account sends after it has taken its delegation back are
booked to the zero address. -/
theorem total_power_of_undelegated :
    ∃ transactions system delegate contributor,
      Runs.Run
        (Runs.restrict (MakesOne fun _ _ _ => True)
          (Transacts none fun _ _ _ => True)) initial transactions system ∧
      system.store.powerSum <
        ∑ account ∈ Finset.univ.erase zeroAddress,
          system.token.votes account ∧
      delegate ∈ system.store.delegates.values ∧
      delegate.toDelegate = zeroAddress ∧ delegate.power = -2 ∧
      contributor ∈ system.store.contributors.values ∧
      contributor.id = zeroAddress ∧ contributor.power = -2 := by
  let transactions :=
    sampleUndelegated ++
      [singleCall "d"
        (.transfer firstHolder thirdHolder 2)
        [("6", .transfer (sampleHolder 1) (sampleHolder 3) 2)]]
  have followed : (Runs.follow (MakesOne fun _ _ _ => True)
      (transact none fun _ _ _ => True) initial transactions).any
      fun system =>
        system.store.powerSum = -2 ∧
          system.store.delegates.find (sampleHolder 1, zeroAddress) =
            some ⟨sampleHolder 1, zeroAddress, -2, ⟨1, 1, "d"⟩⟩ ∧
          system.store.contributors.find zeroAddress =
            some ⟨zeroAddress, -2, 1, 1, ⟨1, 1, "d"⟩⟩ := by
    decide +kernel
  obtain ⟨system, reached, booked⟩ := (Option.any_eq_true _ _).mp followed
  obtain ⟨sum, record, contributor⟩ := of_decide_eq_true booked
  have run := Runs.Run.of_follow (fun _ _ _ => transacts_of_transact) reached
  have votes : 0 ≤ ∑ account ∈ Finset.univ.erase zeroAddress,
      system.token.votes account :=
    Finset.sum_nonneg fun account _ => VotesToken.votes_nonneg account
  rw [← Keyed.key_of_find _ record] at record
  rw [← Keyed.key_of_find _ contributor] at contributor
  refine ⟨transactions, system, _, _, run, ?_,
    (Keyed.mem_values _).mpr record, rfl, rfl,
    (Keyed.mem_values _).mpr contributor, rfl, rfl⟩
  rw [sum]
  omega

end TotalPower

section MappingRows

/-- As long as no account that has tokens delegates them to the same delegate
again, each mapping row names the delegate of its account and has the power of
its tokens. -/
theorem mapping_follows {transactions : List Transaction}
    (run : Runs.Run
      (Runs.restrict (MakesOne fun token _ call => MovesDelegation token call)
        (Transacts standard fun _ _ _ => True)) initial transactions system) :
    (∀ left ∈ system.store.delegateMappings.values,
      ∀ right ∈ system.store.delegateMappings.values,
        left.fromAccount = right.fromAccount → left = right) ∧
      ∀ mapping ∈ system.store.delegateMappings.values,
        mapping.toAccount = system.token.delegateOf mapping.fromAccount ∧
          (mapping.toAccount ≠ zeroAddress →
            mapping.power = system.token.balanceOf mapping.fromAccount ∧
              mapping.power = system.store.delegatePower mapping.fromAccount
                mapping.toAccount) := by
  have holds : Follows system ∧
      ∀ account, TokenHandler.Synced system.store account := by
    apply run.preserves
    · refine ⟨follows_initial, ?_⟩
      intro account mapping found
      cases found
    · rintro before transaction after ⟨follows, synced⟩
        ⟨⟨invocation, single, moves⟩, transacts⟩
      refine ⟨follows.transacts transacts single, ?_⟩
      exact synced_of_invokes (transacts.single single) follows.records synced
        (follows.hashed.unannounced transacts.fresh) moves
  obtain ⟨follows, synced⟩ := holds
  constructor
  · intro left leftMember right rightMember same
    have leftFound := (Keyed.mem_values _).mp leftMember
    have rightFound := (Keyed.mem_values _).mp rightMember
    rw [same, rightFound] at leftFound
    exact (Option.some.inj leftFound).symm
  · intro mapping member
    have found := (Keyed.mem_values _).mp member
    have receiver := follows.mapped mapping.fromAccount
    rw [Store.mappedTo, found] at receiver
    have isDelegate : mapping.toAccount =
        system.token.delegateOf mapping.fromAccount := receiver
    refine ⟨isDelegate, ?_⟩
    intro nonzero
    have power := synced mapping.fromAccount mapping found nonzero
    refine ⟨?_, power⟩
    rw [power, follows.records _ _ nonzero, VotesToken.sends,
      VotesToken.votesFrom, if_pos isDelegate]

theorem mapping_follows_sampleSentOn :
    ∃ system mapping,
      Runs.Run (Transacts none fun _ _ _ => True) initial sampleSentOn
        system ∧
      mapping ∈ system.store.delegateMappings.values ∧
      mapping.toAccount = sampleHolder 2 ∧
      mapping.power = system.token.balanceOf (sampleHolder 1) ∧
      mapping.power = 3 := by
  have followed : (Runs.follow
      (MakesOne fun token _ call => MovesDelegation token call)
      (transact none fun _ _ _ => True) initial sampleSentOn).any
      fun system =>
        system.store.delegateMappings.find (sampleHolder 1) =
          some ⟨sampleHolder 1, sampleHolder 2, 3, ⟨1, 1, "b"⟩⟩ := by
    decide +kernel
  obtain ⟨system, reached, row⟩ := (Option.any_eq_true _ _).mp followed
  have found := of_decide_eq_true row
  have run := Runs.Run.of_follow (fun _ _ _ => transacts_of_transact) reached
  rw [← Keyed.key_of_find _ found] at found
  have member := (Keyed.mem_values _).mpr found
  have follows := (mapping_follows run).2 _ member
  exact ⟨system, _, run.unrestrict, member, rfl, (follows.2 (by decide)).1,
    rfl⟩

/-- An account that delegates to its delegate again has a mapping row without
power. -/
theorem mapping_of_delegatedAgain :
    ∃ transactions system mapping,
      Runs.Run
        (Runs.restrict (MakesOne fun _ _ _ => True)
          (Transacts none fun _ _ _ => True)) initial transactions system ∧
      mapping ∈ system.store.delegateMappings.values ∧
      mapping.toAccount ≠ zeroAddress ∧ mapping.power = 0 ∧
      system.token.balanceOf mapping.fromAccount = 5 ∧
      system.store.delegatePower mapping.fromAccount mapping.toAccount =
        5 := by
  let transactions :=
    sampleDelegated ++
      [singleCall "c"
        (.delegate firstHolder (sampleHolder 2))
        [("4", .delegateChanged (sampleHolder 1) (sampleHolder 2)
          (sampleHolder 2))]]
  have followed : (Runs.follow (MakesOne fun _ _ _ => True)
      (transact none fun _ _ _ => True) initial transactions).any
      fun system =>
        system.store.delegateMappings.find (sampleHolder 1) =
            some ⟨sampleHolder 1, sampleHolder 2, 0, ⟨1, 1, "c"⟩⟩ ∧
          system.token.balanceOf (sampleHolder 1) = 5 ∧
          system.store.delegatePower (sampleHolder 1) (sampleHolder 2) =
            5 := by
    decide +kernel
  obtain ⟨system, reached, booked⟩ := (Option.any_eq_true _ _).mp followed
  obtain ⟨row, balance, power⟩ := of_decide_eq_true booked
  have run := Runs.Run.of_follow (fun _ _ _ => transacts_of_transact) reached
  rw [← Keyed.key_of_find _ row] at row
  exact ⟨transactions, system, _, run, (Keyed.mem_values _).mpr row,
    by decide, rfl, balance, power⟩

end MappingRows

end TokenSystem

end Degov
