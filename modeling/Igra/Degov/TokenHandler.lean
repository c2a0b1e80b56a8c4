import Igra.Degov.Store

/-!
# The token handler

Power reaches the ledgers through one function, `storeDelegate`, which adds an
amount to the record of a pair of accounts, to the contributor that receives
it and to the global sum.  It is called for each side of a transfer whose
account has a mapping, and for a change of votes in a transaction with a change
of delegates that names the account.
-/

open Tables

namespace Degov

inductive TokenEvent where
  | delegateChanged (delegator fromDelegate toDelegate : Address)
  | delegateVotesChanged (delegate : Address) (previousVotes newVotes : Int)
  /-- the value is the id of the token for the standard erc721 -/
  | transfer (fromAccount toAccount : Address) (value : Int)
deriving DecidableEq

/-- The row that `findOne` returns among those that match.  The database says
no more than that there is one if any matches. -/
structure RowChoice (Row : Type) where
  pick : List Row → Option Row
  member : ∀ rows row, pick rows = some row → row ∈ rows
  none_only : ∀ rows, pick rows = none → rows = []

def RowChoice.first (Row : Type) : RowChoice Row where
  pick := List.head?
  member _ _ := List.mem_of_head?
  none_only _ := List.head?_eq_none_iff.mp

/-- The account is the old or the new delegate. -/
def DelegateRolling.Names (rolling : DelegateRolling) (account : Address) :
    Prop :=
  account = rolling.fromDelegate ∨ account = rolling.toDelegate

instance DelegateRolling.decidableNames (rolling : DelegateRolling)
    (account : Address) : Decidable (rolling.Names account) :=
  inferInstanceAs (Decidable (_ ∨ _))

namespace TokenHandler

/-- `contractStandard()`, from the standard of the configuration. -/
def contractStandard (standard : Option String) : String :=
  (standard.getD "erc20").toLower

def isErc721 (standard : Option String) : Bool :=
  contractStandard standard == "erc721"

def increaseMetricsContributorCount (store : Store) : Store :=
  let metric := store.dataMetric.getD .global
  { store with
    dataMetric := some
      { metric with memberCount := some (metric.memberCount.getD 0 + 1) } }

def increaseMetricsPowerSum (store : Store) (power : Int) : Store :=
  let metric := store.dataMetric.getD .global
  { store with
    dataMetric := some
      { metric with powerSum := some (metric.powerSum.getD 0 + power) } }

def storeContributor (store : Store) (contributor : Contributor) : Store :=
  match store.contributors.find contributor.id with
  | some stored =>
      { store with
        contributors := store.contributors.save
          { stored with
            stamp := contributor.stamp
            power := stored.power + contributor.power
            delegatesCountEffective := stored.delegatesCountEffective +
              contributor.delegatesCountEffective } }
  | none =>
      increaseMetricsContributorCount
        { store with contributors := store.contributors.save contributor }

/-- The first part of `storeDelegate`: the records, what the pair's record is
worth now, and the change of the count of effective delegates. -/
def storePair (delegates : Keyed Delegate.id) (current : Delegate) :
    Keyed Delegate.id × Int × Int :=
  match delegates.find current.id with
  | none => (delegates.save current, current.power, 1)
  | some stored =>
      let power := stored.power + current.power
      if power = 0 then
        (delegates.remove current.id, power,
          if stored.power ≠ 0 then -1 else 0)
      else
        (delegates.save { stored with power, stamp := current.stamp },
          power, 0)

/-- The mapping of the account that delegates takes over the power of the
pair, whichever pair it is. -/
def storeMappingPower (mappings : Keyed DelegateMapping.fromAccount)
    (account : Address) (power : Int) : Keyed DelegateMapping.fromAccount :=
  match mappings.find account with
  | some mapping => mappings.save { mapping with power }
  | none => mappings

def storeDelegate (store : Store) (current : Delegate) : Store :=
  let (delegates, newPower, delegatesCountEffective) :=
    storePair store.delegates current
  let contributed := storeContributor
    { store with
      delegates
      delegateMappings := storeMappingPower store.delegateMappings
        current.fromDelegate newPower }
    { id := current.toDelegate
      power := current.power
      delegatesCountAll := 0
      delegatesCountEffective
      stamp := current.stamp }
  increaseMetricsPowerSum contributed current.power

/-- One delegator less for the account that the mapping names. -/
def decreaseDelegatesCountAll (store : Store) (delegator : Address) :
    Store :=
  match store.delegateMappings.find delegator with
  | none => store
  | some previous =>
      match store.contributors.find previous.toAccount with
      | none => store
      | some old =>
          if old.delegatesCountAll > 0 then
            { store with
              contributors := store.contributors.save
                { old with
                  delegatesCountAll := old.delegatesCountAll - 1 } }
          else store

/-- One delegator more for the new delegate. -/
def increaseDelegatesCountAll (store : Store) (toDelegate : Address)
    (stamp : Stamp) : Store :=
  match store.contributors.find toDelegate with
  | some new =>
      { store with
        contributors := store.contributors.save
          { new with delegatesCountAll := new.delegatesCountAll + 1 } }
  | none =>
      increaseMetricsContributorCount
        { store with
          contributors := store.contributors.save
            ⟨toDelegate, 0, 1, 0, stamp⟩ }

def countDelegator (store : Store) (delegator toDelegate : Address)
    (stamp : Stamp) : Store :=
  increaseDelegatesCountAll (decreaseDelegatesCountAll store delegator)
    toDelegate stamp

def storeDelegateChanged (store : Store) (id : String) (stamp : Stamp)
    (delegator fromDelegate toDelegate : Address) :
    Except StoreError Store := do
  let delegateChangeds ← insertRow store.delegateChangeds
    ⟨id, delegator, fromDelegate, toDelegate, stamp⟩
  let counted := countDelegator store delegator toDelegate stamp
  let delegateRollings ← insertRow store.delegateRollings
    ⟨id, delegator, fromDelegate, toDelegate, stamp, none, none, none, none⟩
  let mapped : Store :=
    { counted with
      delegateChangeds
      delegateMappings := (counted.delegateMappings.remove delegator).save
        ⟨delegator, toDelegate, 0, stamp⟩
      delegateRollings }
  if fromDelegate = zeroAddress ∧ delegator = toDelegate then
    pure (storeDelegate mapped ⟨delegator, toDelegate, 0, stamp⟩)
  else pure mapped

/-- The pair whose power changes with the votes of one of the delegates that
the row names. -/
def votesPair (rolling : DelegateRolling) (delegate : Address) :
    Address × Address :=
  if delegate = rolling.toDelegate then
    (rolling.delegator,
      if rolling.delegator = rolling.toDelegate then rolling.delegator
      else rolling.toDelegate)
  else
    let isDelegateChangeToAnother :=
      rolling.delegator ≠ rolling.fromDelegate ∧
        rolling.delegator ≠ rolling.toDelegate
    if (rolling.delegator = rolling.toDelegate ∧
        rolling.fromDelegate ≠ zeroAddress) ∨ isDelegateChangeToAnother then
      (rolling.delegator, rolling.fromDelegate)
    else (rolling.fromDelegate, rolling.delegator)

/-- The row with the votes of the delegate on either side. -/
def withVotes (rolling : DelegateRolling) (options : DelegateVotesChanged) :
    DelegateRolling :=
  let fromVotes : DelegateRolling :=
    if options.delegate = rolling.fromDelegate then
      { rolling with
        fromNewVotes := some options.newVotes
        fromPreviousVotes := some options.previousVotes }
    else rolling
  if options.delegate = rolling.toDelegate then
    { fromVotes with
      toNewVotes := some options.newVotes
      toPreviousVotes := some options.previousVotes }
  else fromVotes

/-- `findOne(DelegateRolling, { where: { transactionHash } })`. -/
def findRolling (choice : RowChoice DelegateRolling) (store : Store)
    (transactionHash : String) : Option DelegateRolling :=
  choice.pick (store.delegateRollings.values.filter fun rolling =>
    decide (rolling.stamp.transactionHash = transactionHash))

def updateDelegateRolling (choice : RowChoice DelegateRolling) (store : Store)
    (options : DelegateVotesChanged) : Store :=
  match findRolling choice store options.stamp.transactionHash with
  | none => store
  | some rolling =>
      if rolling.Names options.delegate then
        let (fromDelegate, toDelegate) := votesPair rolling options.delegate
        storeDelegate
          { store with
            delegateRollings :=
              store.delegateRollings.save (withVotes rolling options) }
          ⟨fromDelegate, toDelegate, options.newVotes - options.previousVotes,
            rolling.stamp⟩
      else store

def storeDelegateVotesChanged (choice : RowChoice DelegateRolling)
    (store : Store) (entity : DelegateVotesChanged) :
    Except StoreError Store := do
  let delegateVotesChangeds ← insertRow store.delegateVotesChangeds entity
  pure (updateDelegateRolling choice { store with delegateVotesChangeds }
    entity)

/-- What a transfer moves. -/
def movedPower (standard : Option String) (value : Int) : Int :=
  if isErc721 standard then 1 else value

/-- One side of a transfer, when the account has a mapping. -/
def storeMapped (store : Store) (mapping : Option DelegateMapping)
    (power : Int) (stamp : Stamp) : Store :=
  match mapping with
  | some mapping =>
      storeDelegate store ⟨mapping.fromAccount, mapping.toAccount, power, stamp⟩
  | none => store

def storeTokenTransfer (standard : Option String) (store : Store)
    (id : String) (stamp : Stamp) (fromAccount toAccount : Address)
    (value : Int) : Except StoreError Store := do
  let tokenTransfers ← insertRow store.tokenTransfers
    ⟨id, fromAccount, toAccount, value, contractStandard standard, stamp⟩
  let storedFromDelegate := store.delegateMappings.find fromAccount
  let storedToDelegate := store.delegateMappings.find toAccount
  let sent := storeMapped { store with tokenTransfers } storedFromDelegate
    (-movedPower standard value) stamp
  pure (storeMapped sent storedToDelegate (movedPower standard value) stamp)

def handle (standard : Option String) (choice : RowChoice DelegateRolling)
    (store : Store) (log : EvmLog TokenEvent) : Except StoreError Store :=
  match log.event with
  | .delegateChanged delegator fromDelegate toDelegate =>
      storeDelegateChanged store log.id log.stamp delegator fromDelegate
        toDelegate
  | .delegateVotesChanged delegate previousVotes newVotes =>
      storeDelegateVotesChanged choice store
        ⟨log.id, delegate, previousVotes, newVotes, log.stamp⟩
  | .transfer fromAccount toAccount value =>
      storeTokenTransfer standard store log.id log.stamp fromAccount toAccount
        value

end TokenHandler

end Degov
