import Igra.Degov.TokenHandler
import Igra.Runs

/-!
# The ledgers of power

Each update of a pair of accounts moves the record of the pair, the contributor
that receives the power and the global sum by the same amount, and nothing else
moves any of them.
-/

open Tables

namespace Degov.TokenHandler

variable {standard : Option String} {choice : RowChoice DelegateRolling}
  {store next : Store}

section Pairs

variable (delegates : Keyed Delegate.id) (current : Delegate)

/-- What the pair's record is worth before the update. -/
def oldPower : Int := delegates.worthAt Delegate.power current.id

theorem storePair_power :
    (storePair delegates current).2.1 =
      oldPower delegates current + current.power := by
  unfold storePair oldPower
  cases found : delegates.find current.id with
  | none =>
      rw [Keyed.worthAt_of_none _ found, zero_add]
  | some stored =>
      rw [Keyed.worthAt_of_find _ found]
      dsimp only
      split
      · rfl
      · rfl

/-- A sum that weighs each record by its pair and its power, and zero power by
nothing. -/
theorem sum_storePair {weigh : Address × Address → Int → Int}
    (nothing : ∀ id, weigh id 0 = 0) :
    (storePair delegates current).1.sum
        (fun delegate => weigh delegate.id delegate.power) =
      delegates.sum (fun delegate => weigh delegate.id delegate.power) -
        weigh current.id (oldPower delegates current) +
        weigh current.id (oldPower delegates current + current.power) := by
  unfold storePair oldPower
  cases found : delegates.find current.id with
  | none =>
      rw [Keyed.worthAt_of_none _ found, zero_add, nothing]
      dsimp only
      rw [Keyed.sum_save, Keyed.worthAt_of_none _ found]
  | some stored =>
      have sameId : stored.id = current.id := Keyed.key_of_find _ found
      rw [Keyed.worthAt_of_find _ found]
      dsimp only
      split
      · rename_i zero
        rw [Keyed.sum_remove, Keyed.worthAt_of_find _ found, zero, nothing,
          sameId, add_zero]
      · rw [Keyed.sum_save]
        have updatedId : Delegate.id
            { stored with
              power := stored.power + current.power
              stamp := current.stamp } = current.id := sameId
        rw [updatedId, Keyed.worthAt_of_find _ found, sameId]

theorem worthAt_storePair (id : Address × Address) :
    (storePair delegates current).1.worthAt Delegate.power id =
      delegates.worthAt Delegate.power id +
        if id = current.id then current.power else 0 := by
  unfold storePair
  cases found : delegates.find current.id with
  | none =>
      dsimp only
      rw [Keyed.worthAt_save]
      split
      · rename_i same
        rw [same, Keyed.worthAt_of_none _ found, zero_add]
      · rw [add_zero]
  | some stored =>
      have sameId : stored.id = current.id := Keyed.key_of_find _ found
      dsimp only
      split
      · rename_i zero
        rw [Keyed.worthAt_remove]
        split
        · rename_i same
          rw [same, Keyed.worthAt_of_find _ found, zero]
        · rw [add_zero]
      · rw [Keyed.worthAt_save]
        have updatedId : Delegate.id
            { stored with
              power := stored.power + current.power
              stamp := current.stamp } = current.id := sameId
        rw [updatedId]
        split
        · rename_i same
          rw [same, Keyed.worthAt_of_find _ found]
        · rw [add_zero]

end Pairs

section Contributors

theorem worthAt_storeContributor {worth : Contributor → Int}
    (contributor : Contributor)
    (adds : ∀ stored : Contributor,
      worth
          { stored with
            stamp := contributor.stamp
            power := stored.power + contributor.power
            delegatesCountEffective := stored.delegatesCountEffective +
              contributor.delegatesCountEffective } =
        worth stored + worth contributor)
    (account : Address) :
    (storeContributor store contributor).contributors.worthAt worth account =
      store.contributors.worthAt worth account +
        if account = contributor.id then worth contributor else 0 := by
  unfold storeContributor
  cases found : store.contributors.find contributor.id with
  | none =>
      show (store.contributors.save contributor).worthAt _ account = _
      rw [Keyed.worthAt_save]
      split
      · rename_i same
        rw [same, Keyed.worthAt_of_none _ found, zero_add]
      · rw [add_zero]
  | some stored =>
      have sameId : stored.id = contributor.id := Keyed.key_of_find _ found
      dsimp only
      rw [Keyed.worthAt_save]
      by_cases same : account = contributor.id
      · have isStored : account = stored.id := same.trans sameId.symm
        rw [if_pos isStored, if_pos same, same, Keyed.worthAt_of_find _ found]
        exact adds stored
      · have notStored : account ≠ stored.id := fun isStored =>
          same (isStored.trans sameId)
        rw [if_neg notStored, if_neg same, add_zero]

@[simp] theorem delegates_storeContributor (contributor : Contributor) :
    (storeContributor store contributor).delegates = store.delegates := by
  unfold storeContributor
  split
  · rfl
  · rfl

@[simp] theorem delegateMappings_storeContributor
    (contributor : Contributor) :
    (storeContributor store contributor).delegateMappings =
      store.delegateMappings := by
  unfold storeContributor
  split
  · rfl
  · rfl

@[simp] theorem delegateRollings_storeContributor
    (contributor : Contributor) :
    (storeContributor store contributor).delegateRollings =
      store.delegateRollings := by
  unfold storeContributor
  split
  · rfl
  · rfl

theorem powerSum_storeContributor (contributor : Contributor) :
    (storeContributor store contributor).powerSum = store.powerSum := by
  unfold storeContributor
  split
  · rfl
  · unfold Store.powerSum increaseMetricsContributorCount
    cases store.dataMetric with
    | none => rfl
    | some metric => rfl

end Contributors

section Updates

variable (store) (current : Delegate)

@[simp] theorem delegates_storeDelegate :
    (storeDelegate store current).delegates =
      (storePair store.delegates current).1 :=
  delegates_storeContributor _

@[simp] theorem delegateMappings_storeDelegate :
    (storeDelegate store current).delegateMappings =
      storeMappingPower store.delegateMappings current.fromDelegate
        (storePair store.delegates current).2.1 :=
  delegateMappings_storeContributor _

@[simp] theorem delegateRollings_storeDelegate :
    (storeDelegate store current).delegateRollings =
      store.delegateRollings :=
  delegateRollings_storeContributor _

/-- What an update contributes to the account that receives it. -/
theorem worthAt_storeDelegate {worth : Contributor → Int}
    (adds : ∀ (contributor stored : Contributor),
      contributor.delegatesCountAll = 0 →
      worth
          { stored with
            stamp := contributor.stamp
            power := stored.power + contributor.power
            delegatesCountEffective := stored.delegatesCountEffective +
              contributor.delegatesCountEffective } =
        worth stored + worth contributor)
    (account : Address) :
    (storeDelegate store current).contributors.worthAt worth account =
      store.contributors.worthAt worth account +
        if account = current.toDelegate then
          worth ⟨current.toDelegate, current.power, 0,
            (storePair store.delegates current).2.2, current.stamp⟩
        else 0 :=
  worthAt_storeContributor _ (fun stored => adds _ stored rfl) account

theorem powerOf_storeDelegate (account : Address) :
    (storeDelegate store current).powerOf account =
      store.powerOf account +
        if account = current.toDelegate then current.power else 0 :=
  worthAt_storeDelegate store current (fun _ _ _ => rfl) account

theorem delegatePower_storeDelegate (fromDelegate toDelegate : Address) :
    (storeDelegate store current).delegatePower fromDelegate toDelegate =
      store.delegatePower fromDelegate toDelegate +
        if (fromDelegate, toDelegate) = current.id then current.power
        else 0 := by
  rw [Store.delegatePower, delegates_storeDelegate, worthAt_storePair]
  rfl

theorem powerTo_storeDelegate (account : Address) :
    (storeDelegate store current).powerTo account =
      store.powerTo account +
        if account = current.toDelegate then current.power else 0 := by
  have moved := @sum_storePair store.delegates current
    (fun id power => if id.2 = account then power else 0) (by simp)
  rw [Store.powerTo, delegates_storeDelegate]
  refine moved.trans ?_
  have receiver : current.id.2 = current.toDelegate := rfl
  have same : (store.delegates.sum fun delegate =>
      if delegate.id.2 = account then delegate.power else 0) =
        store.powerTo account := rfl
  rw [same, receiver]
  by_cases receives : current.toDelegate = account
  · rw [if_pos receives, if_pos receives, if_pos receives.symm]
    omega
  · rw [if_neg receives, if_neg receives, if_neg (Ne.symm receives)]
    omega

theorem totalPower_storeDelegate :
    (storeDelegate store current).totalPower =
      store.totalPower + current.power := by
  have moved := @sum_storePair store.delegates current
    (fun _ power => power) (fun _ => rfl)
  rw [Store.totalPower, delegates_storeDelegate]
  have same : (store.delegates.sum fun delegate => delegate.power) =
      store.totalPower := rfl
  refine moved.trans ?_
  rw [same]
  omega

private theorem powerSum_increaseMetricsPowerSum (power : Int) :
    (increaseMetricsPowerSum store power).powerSum =
      store.powerSum + power := by
  unfold increaseMetricsPowerSum Store.powerSum
  cases store.dataMetric with
  | none => rfl
  | some metric => rfl

private theorem powerSum_storeDelegate :
    (storeDelegate store current).powerSum =
      store.powerSum + current.power := by
  refine (powerSum_increaseMetricsPowerSum _ _).trans ?_
  rw [powerSum_storeContributor]
  rfl

end Updates

section Handling

/-- The updates that a log brings about. -/
def updates (standard : Option String) (choice : RowChoice DelegateRolling)
    (store : Store) (log : EvmLog TokenEvent) : List Delegate :=
  match log.event with
  | .delegateChanged delegator fromDelegate toDelegate =>
      if fromDelegate = zeroAddress ∧ delegator = toDelegate then
        [⟨delegator, toDelegate, 0, log.stamp⟩]
      else []
  | .delegateVotesChanged delegate previousVotes newVotes =>
      match findRolling choice store log.transactionHash with
      | none => []
      | some rolling =>
          if rolling.Names delegate then
            [⟨(votesPair rolling delegate).1, (votesPair rolling delegate).2,
              newVotes - previousVotes, rolling.stamp⟩]
          else []
  | .transfer fromAccount toAccount value =>
      let side (account : Address) (power : Int) : List Delegate :=
        (store.delegateMappings.find account).toList.map fun mapping =>
          ⟨mapping.fromAccount, mapping.toAccount, power, log.stamp⟩
      side fromAccount (-movedPower standard value) ++
        side toAccount (movedPower standard value)

/-- The store before the updates of a log. -/
structure Prepared (store : Store) (log : EvmLog TokenEvent) (base : Store) :
    Prop where
  delegates : base.delegates = store.delegates
  changed : ∀ delegator fromDelegate toDelegate,
    log.event = .delegateChanged delegator fromDelegate toDelegate →
    base.contributors =
        (countDelegator store delegator toDelegate log.stamp).contributors ∧
      base.dataMetric =
        (countDelegator store delegator toDelegate log.stamp).dataMetric ∧
      base.delegateMappings = (store.delegateMappings.remove delegator).save
        ⟨delegator, toDelegate, 0, log.stamp⟩ ∧
      store.delegateRollings.find log.id = none ∧
      base.delegateRollings = store.delegateRollings.save
        ⟨log.id, delegator, fromDelegate, toDelegate, log.stamp,
          none, none, none, none⟩
  otherwise : (∀ delegator fromDelegate toDelegate,
      log.event ≠ .delegateChanged delegator fromDelegate toDelegate) →
    base.contributors = store.contributors ∧
      base.dataMetric = store.dataMetric ∧
      base.delegateMappings = store.delegateMappings ∧
      (base.delegateRollings = store.delegateRollings ∨
        ∃ rolling options,
          store.delegateRollings.find rolling.id = some rolling ∧
          base.delegateRollings =
            store.delegateRollings.save (withVotes rolling options))

theorem decreaseDelegatesCountAll_frame (delegator : Address) :
    decreaseDelegatesCountAll store delegator =
      { store with
        contributors :=
          (decreaseDelegatesCountAll store delegator).contributors } := by
  unfold decreaseDelegatesCountAll
  cases store.delegateMappings.find delegator with
  | none => rfl
  | some previous =>
      dsimp only
      cases store.contributors.find previous.toAccount with
      | none => rfl
      | some old =>
          dsimp only
          split
          · rfl
          · rfl

private theorem increaseDelegatesCountAll_frame (toDelegate : Address)
    (stamp : Stamp) :
    increaseDelegatesCountAll store toDelegate stamp =
      { store with
        contributors :=
          (increaseDelegatesCountAll store toDelegate stamp).contributors
        dataMetric :=
          (increaseDelegatesCountAll store toDelegate stamp).dataMetric } := by
  unfold increaseDelegatesCountAll
  cases store.contributors.find toDelegate with
  | none => rfl
  | some new => rfl

private theorem countDelegator_frame (delegator toDelegate : Address)
    (stamp : Stamp) :
    countDelegator store delegator toDelegate stamp =
      { store with
        contributors :=
          (countDelegator store delegator toDelegate stamp).contributors
        dataMetric :=
          (countDelegator store delegator toDelegate stamp).dataMetric } := by
  unfold countDelegator
  rw [increaseDelegatesCountAll_frame, decreaseDelegatesCountAll_frame]

theorem mem_of_findRolling {transactionHash : String}
    {rolling : DelegateRolling}
    (found : findRolling choice store transactionHash = some rolling) :
    rolling ∈ store.delegateRollings.values ∧
      rolling.stamp.transactionHash = transactionHash := by
  have among := choice.member _ _ found
  simpa using among

theorem find_of_findRolling {transactionHash : String}
    {rolling : DelegateRolling}
    (found : findRolling choice store transactionHash = some rolling) :
    store.delegateRollings.find rolling.id = some rolling :=
  (Keyed.mem_values _).mp (mem_of_findRolling found).1

theorem storeDelegateChanged_eq_ok {id : String} {stamp : Stamp}
    {delegator fromDelegate toDelegate : Address}
    (stored : storeDelegateChanged store id stamp delegator fromDelegate
      toDelegate = .ok next) :
    store.delegateRollings.find id = none ∧
      ∃ (delegateChangeds : Keyed DelegateChanged.id) (base : Store),
        base =
          { countDelegator store delegator toDelegate stamp with
            delegateChangeds
            delegateMappings :=
              ((countDelegator store delegator toDelegate
                stamp).delegateMappings.remove delegator).save
                  ⟨delegator, toDelegate, 0, stamp⟩
            delegateRollings := store.delegateRollings.save
              ⟨id, delegator, fromDelegate, toDelegate, stamp,
                none, none, none, none⟩ } ∧
        next = if fromDelegate = zeroAddress ∧ delegator = toDelegate then
            storeDelegate base ⟨delegator, toDelegate, 0, stamp⟩
          else base := by
  unfold storeDelegateChanged at stored
  obtain ⟨delegateChangeds, _, afterEvent⟩ := bind_eq_ok.mp stored
  obtain ⟨delegateRollings, inserted, rest⟩ := bind_eq_ok.mp afterEvent
  obtain ⟨fresh, rfl⟩ := insertRow_eq_ok.mp inserted
  refine ⟨fresh, delegateChangeds, _, rfl, ?_⟩
  dsimp only at rest
  split at rest
  · rename_i toSelf
    rw [if_pos toSelf]
    exact (Except.ok.inj rest).symm
  · rename_i toOther
    rw [if_neg toOther]
    exact (Except.ok.inj rest).symm

/-- Other events than a change of delegates leave the counts alone. -/
theorem Prepared.of_other {log : EvmLog TokenEvent} {base : Store}
    (other : ∀ delegator fromDelegate toDelegate,
      log.event ≠ .delegateChanged delegator fromDelegate toDelegate)
    (delegates : base.delegates = store.delegates)
    (contributors : base.contributors = store.contributors)
    (dataMetric : base.dataMetric = store.dataMetric)
    (mappings : base.delegateMappings = store.delegateMappings)
    (rollings : base.delegateRollings = store.delegateRollings ∨
      ∃ rolling options,
        store.delegateRollings.find rolling.id = some rolling ∧
        base.delegateRollings =
          store.delegateRollings.save (withVotes rolling options)) :
    Prepared store log base where
  delegates := delegates
  changed _ _ _ event := absurd event (other _ _ _)
  otherwise _ := ⟨contributors, dataMetric, mappings, rollings⟩

section Events

variable {log : EvmLog TokenEvent}

theorem prepared_of_delegateChanged
    {delegator fromDelegate toDelegate : Address}
    (event : log.event = .delegateChanged delegator fromDelegate toDelegate)
    (handled : handle standard choice store log = .ok next) :
    ∃ base, Prepared store log base ∧
      next = (updates standard choice store log).foldl storeDelegate base := by
  unfold handle at handled
  unfold updates
  rw [event] at handled ⊢
  obtain ⟨fresh, delegateChangeds, base, isBase, rfl⟩ :=
    storeDelegateChanged_eq_ok handled
  rw [countDelegator_frame] at isBase
  refine ⟨base, ⟨?_, ?_, ?_⟩, ?_⟩
  · rw [isBase]
  · intro _ _ _ same
    cases event.symm.trans same
    rw [isBase]
    exact ⟨rfl, rfl, rfl, fresh, rfl⟩
  · intro other
    exact absurd event (other _ _ _)
  · dsimp only
    split
    · rfl
    · rfl

theorem prepared_of_delegateVotesChanged {delegate : Address}
    {previousVotes newVotes : Int}
    (event : log.event =
      .delegateVotesChanged delegate previousVotes newVotes)
    (handled : handle standard choice store log = .ok next) :
    ∃ base, Prepared store log base ∧
      next = (updates standard choice store log).foldl storeDelegate base := by
  unfold handle at handled
  unfold updates
  rw [event] at handled ⊢
  obtain ⟨delegateVotesChangeds, _, rest⟩ := bind_eq_ok.mp handled
  obtain rfl := Except.ok.inj rest
  have other : ∀ delegator fromDelegate toDelegate,
      log.event ≠ .delegateChanged delegator fromDelegate toDelegate := by
    simp [event]
  have unrolled : Prepared store log { store with delegateVotesChangeds } :=
    .of_other other rfl rfl rfl rfl (.inl rfl)
  have sameRolling : findRolling choice
      { store with delegateVotesChangeds } log.stamp.transactionHash =
        findRolling choice store log.transactionHash := rfl
  unfold updateDelegateRolling
  rw [sameRolling]
  cases found : findRolling choice store log.transactionHash with
  | none => exact ⟨_, unrolled, rfl⟩
  | some rolling =>
      dsimp only
      split
      · let base : Store :=
          { store with
            delegateVotesChangeds
            delegateRollings := store.delegateRollings.save
              (withVotes rolling
                ⟨log.id, delegate, previousVotes, newVotes, log.stamp⟩) }
        have rolled : Prepared store log base :=
          .of_other other rfl rfl rfl rfl
            (.inr ⟨rolling, _, find_of_findRolling found, rfl⟩)
        exact ⟨base, rolled, rfl⟩
      · exact ⟨_, unrolled, rfl⟩

theorem prepared_of_transfer {fromAccount toAccount : Address} {value : Int}
    (event : log.event = .transfer fromAccount toAccount value)
    (handled : handle standard choice store log = .ok next) :
    ∃ base, Prepared store log base ∧
      next = (updates standard choice store log).foldl storeDelegate base := by
  unfold handle at handled
  unfold updates
  rw [event] at handled ⊢
  obtain ⟨tokenTransfers, _, rest⟩ := bind_eq_ok.mp handled
  obtain rfl := Except.ok.inj rest
  refine ⟨{ store with tokenTransfers },
    .of_other (by simp [event]) rfl rfl rfl rfl (.inl rfl), ?_⟩
  dsimp only
  cases store.delegateMappings.find fromAccount with
  | none =>
      cases store.delegateMappings.find toAccount with
      | none => rfl
      | some mapping => rfl
  | some sender =>
      cases store.delegateMappings.find toAccount with
      | none => rfl
      | some mapping => rfl

/-- A log that is handled prepares the store and makes its updates. -/
theorem handle_eq_ok
    (handled : handle standard choice store log = .ok next) :
    ∃ base, Prepared store log base ∧
      next = (updates standard choice store log).foldl storeDelegate base := by
  cases event : log.event with
  | delegateChanged delegator fromDelegate toDelegate =>
      exact prepared_of_delegateChanged event handled
  | delegateVotesChanged delegate previousVotes newVotes =>
      exact prepared_of_delegateVotesChanged event handled
  | transfer fromAccount toAccount value =>
      exact prepared_of_transfer event handled

end Events

end Handling

section Agreement

theorem worthAt_decreaseDelegatesCountAll {worth : Contributor → Int}
    (ignores : ∀ (contributor : Contributor) (delegatesCountAll : Int),
      worth { contributor with delegatesCountAll } = worth contributor)
    (delegator account : Address) :
    (decreaseDelegatesCountAll store delegator).contributors.worthAt worth
        account =
      store.contributors.worthAt worth account := by
  unfold decreaseDelegatesCountAll
  cases store.delegateMappings.find delegator with
  | none => rfl
  | some previous =>
      dsimp only
      cases found : store.contributors.find previous.toAccount with
      | none => rfl
      | some old =>
          dsimp only
          split
          · have sameId := Keyed.key_of_find _ found
            rw [← sameId] at found
            apply Keyed.worthAt_save_of_find
            · exact found
            · exact ignores old _
          · rfl

theorem worthAt_increaseDelegatesCountAll {worth : Contributor → Int}
    (ignores : ∀ (contributor : Contributor) (delegatesCountAll : Int),
      worth { contributor with delegatesCountAll } = worth contributor)
    {toDelegate : Address} {stamp : Stamp}
    (nothing : worth ⟨toDelegate, 0, 1, 0, stamp⟩ = 0)
    (account : Address) :
    (increaseDelegatesCountAll store toDelegate
        stamp).contributors.worthAt worth account =
      store.contributors.worthAt worth account := by
  unfold increaseDelegatesCountAll
  cases found : store.contributors.find toDelegate with
  | none =>
      show (store.contributors.save _).worthAt _ account = _
      rw [Keyed.worthAt_save]
      split
      · rename_i same
        have isNew : account = toDelegate := same
        rw [isNew, Keyed.worthAt_of_none _ found, nothing]
      · rfl
  | some new =>
      have sameId := Keyed.key_of_find _ found
      rw [← sameId] at found
      apply Keyed.worthAt_save_of_find
      · exact found
      · exact ignores new _

private theorem worthAt_countDelegator {worth : Contributor → Int}
    (ignores : ∀ (contributor : Contributor) (delegatesCountAll : Int),
      worth { contributor with delegatesCountAll } = worth contributor)
    {toDelegate : Address} {stamp : Stamp}
    (nothing : worth ⟨toDelegate, 0, 1, 0, stamp⟩ = 0)
    (delegator account : Address) :
    (countDelegator store delegator toDelegate stamp).contributors.worthAt
        worth account =
      store.contributors.worthAt worth account := by
  rw [countDelegator, worthAt_increaseDelegatesCountAll ignores nothing,
    worthAt_decreaseDelegatesCountAll ignores]

private theorem powerSum_increaseMetricsContributorCount :
    (increaseMetricsContributorCount store).powerSum = store.powerSum := by
  unfold increaseMetricsContributorCount Store.powerSum
  cases store.dataMetric with
  | none => rfl
  | some metric => rfl

theorem powerSum_countDelegator (delegator toDelegate : Address)
    (stamp : Stamp) :
    (countDelegator store delegator toDelegate stamp).powerSum =
      store.powerSum := by
  have decreased : (decreaseDelegatesCountAll store delegator).powerSum =
      store.powerSum := by
    rw [decreaseDelegatesCountAll_frame]
    rfl
  rw [← decreased]
  unfold countDelegator increaseDelegatesCountAll
  cases (decreaseDelegatesCountAll store delegator).contributors.find
      toDelegate with
  | none => exact powerSum_increaseMetricsContributorCount
  | some new => rfl

/-- The counts leave every other field of a contributor as it is. -/
theorem Prepared.worthAt {log : EvmLog TokenEvent} {base : Store}
    (prepared : Prepared store log base) {worth : Contributor → Int}
    (ignores : ∀ (contributor : Contributor) (delegatesCountAll : Int),
      worth { contributor with delegatesCountAll } = worth contributor)
    (nothing : ∀ toDelegate, worth ⟨toDelegate, 0, 1, 0, log.stamp⟩ = 0)
    (account : Address) :
    base.contributors.worthAt worth account =
      store.contributors.worthAt worth account := by
  by_cases changes : ∃ delegator fromDelegate toDelegate,
      log.event = .delegateChanged delegator fromDelegate toDelegate
  · obtain ⟨delegator, fromDelegate, toDelegate, event⟩ := changes
    have contributors := (prepared.changed _ _ _ event).1
    rw [contributors]
    exact worthAt_countDelegator ignores (nothing toDelegate) delegator account
  · have unchanged := prepared.otherwise
      fun delegator fromDelegate toDelegate event =>
        changes ⟨delegator, fromDelegate, toDelegate, event⟩
    rw [unchanged.1]

theorem Prepared.powerOf {log : EvmLog TokenEvent} {base : Store}
    (prepared : Prepared store log base) (account : Address) :
    base.powerOf account = store.powerOf account :=
  prepared.worthAt (fun _ _ => rfl) (fun _ => rfl) account

theorem Prepared.powerSum {log : EvmLog TokenEvent} {base : Store}
    (prepared : Prepared store log base) :
    base.powerSum = store.powerSum := by
  by_cases changes : ∃ delegator fromDelegate toDelegate,
      log.event = .delegateChanged delegator fromDelegate toDelegate
  · obtain ⟨delegator, fromDelegate, toDelegate, event⟩ := changes
    have metric := (prepared.changed _ _ _ event).2.1
    rw [Store.powerSum, metric]
    exact powerSum_countDelegator delegator toDelegate log.stamp
  · have unchanged := prepared.otherwise
      fun delegator fromDelegate toDelegate event =>
        changes ⟨delegator, fromDelegate, toDelegate, event⟩
    rw [Store.powerSum, unchanged.2.1]
    rfl

/-- Contributors hold what the records send them, and the global sum is that of
all records. -/
structure Balanced (store : Store) : Prop where
  contributors : ∀ account, store.powerOf account = store.powerTo account
  global : store.powerSum = store.totalPower

theorem Balanced.storeDelegate (balanced : Balanced store)
    (current : Delegate) : Balanced (storeDelegate store current) where
  contributors := by
    intro account
    rw [powerOf_storeDelegate, powerTo_storeDelegate,
      balanced.contributors account]
  global := by
    rw [powerSum_storeDelegate, totalPower_storeDelegate, balanced.global]

theorem Balanced.handle {log : EvmLog TokenEvent}
    (balanced : Balanced store)
    (handled : handle standard choice store log = .ok next) :
    Balanced next := by
  obtain ⟨base, prepared, rfl⟩ := handle_eq_ok handled
  apply List.foldlRecOn
  · constructor
    · intro account
      rw [prepared.powerOf, balanced.contributors account, Store.powerTo,
        Store.powerTo, prepared.delegates]
    · rw [prepared.powerSum, balanced.global, Store.totalPower,
        Store.totalPower, prepared.delegates]
  · intro updated updatedBalanced current _
    exact updatedBalanced.storeDelegate current

theorem balanced_empty : Balanced Store.empty where
  contributors _ := rfl
  global := rfl

/-- A log, and the row that the database picks while it is handled. -/
structure Delivery where
  log : EvmLog TokenEvent
  choice : RowChoice DelegateRolling

/-- A log is handled without an error. -/
def Step (standard : Option String) (store : Store) (delivery : Delivery)
    (next : Store) : Prop :=
  TokenHandler.handle standard delivery.choice store delivery.log = .ok next

def perform (standard : Option String) (store : Store) (delivery : Delivery) :
    Option Store :=
  (TokenHandler.handle standard delivery.choice store delivery.log).toOption

theorem step_of_perform {delivery : Delivery}
    (performed : perform standard store delivery = some next) :
    Step standard store delivery next := by
  unfold perform at performed
  unfold Step
  cases handled : TokenHandler.handle standard delivery.choice store
      delivery.log with
  | error error =>
      rw [handled] at performed
      cases performed
  | ok reached =>
      rw [handled] at performed
      cases performed
      rfl

/-- Whatever events are processed, the power of each contributor is the sum of
the records to it, and the global sum that of all records. -/
theorem ledgers_agree {deliveries : List Delivery}
    (run : Runs.Run (Step standard) Store.empty deliveries store) :
    (∀ contributor ∈ store.contributors.values,
        contributor.power = store.powerTo contributor.id) ∧
      store.powerSum = store.totalPower := by
  have balanced : Balanced store :=
    run.preserves balanced_empty fun _ _ _ balanced taken =>
      balanced.handle taken
  refine ⟨?_, balanced.global⟩
  intro contributor member
  have found := (Keyed.mem_values _).mp member
  rw [← balanced.contributors contributor.id, Store.powerOf,
    Keyed.worthAt_of_find _ found]

def sampleAccount (number : Nat) : Address :=
  ⟨number % 2 ^ 160, Nat.mod_lt number (Nat.two_pow_pos 160)⟩

/-- The log of a sample transaction. -/
def sampleDelivery (id transactionHash : String) (event : TokenEvent) :
    Delivery :=
  ⟨⟨id, 1, 1, transactionHash, event⟩, .first _⟩

/-- An account delegates to itself, receives votes and sends some on. -/
def sampleDeliveries : List Delivery :=
  [sampleDelivery "1" "a"
      (.delegateChanged (sampleAccount 1) zeroAddress (sampleAccount 1)),
    sampleDelivery "2" "a" (.delegateVotesChanged (sampleAccount 1) 0 5),
    sampleDelivery "3" "b" (.transfer (sampleAccount 1) (sampleAccount 2) 2)]

theorem ledgers_agree_sampleDeliveries :
    ∃ store, Runs.Run (Step none) Store.empty sampleDeliveries store ∧
      store.powerSum = 3 ∧ store.powerSum = store.totalPower := by
  have followed : (Runs.follow (fun _ _ => True) (perform none) Store.empty
      sampleDeliveries).any fun store => store.powerSum = 3 := by
    decide +kernel
  obtain ⟨store, reached, three⟩ := (Option.any_eq_true _ _).mp followed
  have run : Runs.Run (Step none) Store.empty sampleDeliveries store :=
    (Runs.Run.of_follow (fun _ _ _ => step_of_perform) reached).unrestrict
  exact ⟨store, run, of_decide_eq_true three, (ledgers_agree run).2⟩

end Agreement

end Degov.TokenHandler
