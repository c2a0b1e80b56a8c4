import Igra.Degov.Ledgers

/-!
# Counts of delegators

The count of all delegators of a contributor follows the mapping rows, and the
global count of members follows the contributors.  The count of the effective
delegators follows the records of non-zero power as long as no record of zero
power is made: such a record is counted when it is inserted, and is not when it
is removed again.
-/

open Tables

namespace Degov

namespace Store

variable (store : Store)

/-- How many accounts are mapped to an account. -/
def delegatorsOf (account : Address) : Int :=
  store.delegateMappings.count fun mapping => mapping.toAccount = account

/-- How many records send power to an account. -/
def effectiveDelegatorsOf (account : Address) : Int :=
  store.delegates.count fun delegate =>
    delegate.toDelegate = account ∧ delegate.power ≠ 0

end Store

namespace TokenHandler

variable {standard : Option String} {choice : RowChoice DelegateRolling}
  {store next : Store}

section Members

/-- Every contributor has been counted as a member. -/
def MembersCounted (store : Store) : Prop :=
  store.memberCount = store.contributors.size

private theorem memberCount_increaseMetricsContributorCount :
    (increaseMetricsContributorCount store).memberCount =
      store.memberCount + 1 := by
  unfold increaseMetricsContributorCount Store.memberCount
  cases store.dataMetric with
  | none => rfl
  | some metric => rfl

private theorem memberCount_increaseMetricsPowerSum (power : Int) :
    (increaseMetricsPowerSum store power).memberCount =
      store.memberCount := by
  unfold increaseMetricsPowerSum Store.memberCount
  cases store.dataMetric with
  | none => rfl
  | some metric => rfl

theorem size_save_of_find {contributors : Keyed Contributor.id}
    {old new : Contributor} (found : contributors.find new.id = some old) :
    ((contributors.save new).size : Int) = contributors.size := by
  rw [Keyed.size_save, found]
  exact add_zero _

theorem MembersCounted.insert (counted : MembersCounted store)
    {contributor : Contributor}
    (absent : store.contributors.find contributor.id = none) :
    MembersCounted
      (increaseMetricsContributorCount
        { store with
          contributors := store.contributors.save contributor }) := by
  unfold MembersCounted
  rw [memberCount_increaseMetricsContributorCount]
  show store.memberCount + 1 =
    ((store.contributors.save contributor).size : Int)
  rw [Keyed.size_save, absent, counted]
  rfl

theorem MembersCounted.storeContributor (counted : MembersCounted store)
    (contributor : Contributor) :
    MembersCounted (storeContributor store contributor) := by
  unfold TokenHandler.storeContributor
  cases found : store.contributors.find contributor.id with
  | none => exact counted.insert found
  | some stored =>
      have sameId := Keyed.key_of_find _ found
      rw [← sameId] at found
      refine Eq.trans counted (Eq.symm ?_)
      apply size_save_of_find
      exact found

theorem MembersCounted.storeDelegate (counted : MembersCounted store)
    (current : Delegate) : MembersCounted (storeDelegate store current) := by
  let recorded : Store :=
    { store with
      delegates := (storePair store.delegates current).1
      delegateMappings := storeMappingPower store.delegateMappings
        current.fromDelegate (storePair store.delegates current).2.1 }
  have recordedCounted : MembersCounted recorded := counted
  have contributed := recordedCounted.storeContributor
    { id := current.toDelegate
      power := current.power
      delegatesCountAll := 0
      delegatesCountEffective := (storePair store.delegates current).2.2
      stamp := current.stamp }
  refine Eq.trans ?_ contributed
  exact memberCount_increaseMetricsPowerSum _

theorem MembersCounted.decreaseDelegatesCountAll
    (counted : MembersCounted store) (delegator : Address) :
    MembersCounted (decreaseDelegatesCountAll store delegator) := by
  unfold TokenHandler.decreaseDelegatesCountAll
  cases store.delegateMappings.find delegator with
  | none => exact counted
  | some previous =>
      dsimp only
      cases found : store.contributors.find previous.toAccount with
      | none => exact counted
      | some old =>
          dsimp only
          split
          · have sameId := Keyed.key_of_find _ found
            rw [← sameId] at found
            refine Eq.trans counted (Eq.symm ?_)
            apply size_save_of_find
            exact found
          · exact counted

theorem MembersCounted.increaseDelegatesCountAll
    (counted : MembersCounted store) (toDelegate : Address) (stamp : Stamp) :
    MembersCounted (increaseDelegatesCountAll store toDelegate stamp) := by
  unfold TokenHandler.increaseDelegatesCountAll
  cases found : store.contributors.find toDelegate with
  | none => exact counted.insert found
  | some new =>
      have sameId := Keyed.key_of_find _ found
      rw [← sameId] at found
      refine Eq.trans counted (Eq.symm ?_)
      apply size_save_of_find
      exact found

end Members

section AllDelegators

/-- Each contributor counts the accounts that are mapped to it. -/
def DelegatorsCounted (store : Store) : Prop :=
  ∀ account,
    store.contributors.worthAt Contributor.delegatesCountAll account =
      store.delegatorsOf account

theorem count_storeMappingPower (mappings : Keyed DelegateMapping.fromAccount)
    (account receiver : Address) (power : Int) :
    ((storeMappingPower mappings account power).count fun mapping =>
        mapping.toAccount = receiver) =
      mappings.count fun mapping => mapping.toAccount = receiver := by
  unfold storeMappingPower
  cases found : mappings.find account with
  | none => rfl
  | some mapping =>
      have sameId := Keyed.key_of_find _ found
      rw [← sameId] at found
      dsimp only
      rw [Keyed.count_eq_sum, Keyed.sum_save, Keyed.count_eq_sum]
      have same : DelegateMapping.fromAccount { mapping with power } =
          mapping.fromAccount := rfl
      rw [same, Keyed.worthAt_of_find _ found]
      exact sub_add_cancel _ _

theorem DelegatorsCounted.storeDelegate (counted : DelegatorsCounted store)
    (current : Delegate) :
    DelegatorsCounted (storeDelegate store current) := by
  intro account
  rw [Store.delegatorsOf, delegateMappings_storeDelegate,
    count_storeMappingPower]
  rw [worthAt_storeDelegate, ite_self, add_zero]
  · exact counted account
  · intro contributor stored uncounted
    rw [uncounted, add_zero]

theorem delegatesCountAll_decreaseDelegatesCountAll
    (counted : DelegatorsCounted store) (delegator account : Address) :
    (decreaseDelegatesCountAll store delegator).contributors.worthAt
        Contributor.delegatesCountAll account =
      store.delegatorsOf account -
        if store.mappedTo delegator = some account then 1 else 0 := by
  unfold decreaseDelegatesCountAll Store.mappedTo
  cases mapped : store.delegateMappings.find delegator with
  | none =>
      rw [Option.map_none, if_neg (by simp), sub_zero]
      exact counted account
  | some previous =>
      have oneMapped : 1 ≤ store.delegatorsOf previous.toAccount :=
        Keyed.one_le_count _ mapped rfl
      rw [← counted] at oneMapped
      rw [Option.map_some]
      dsimp only
      cases found : store.contributors.find previous.toAccount with
      | none =>
          rw [Keyed.worthAt_of_none _ found] at oneMapped
          omega
      | some old =>
          have sameId : old.id = previous.toAccount :=
            Keyed.key_of_find _ found
          have counts := counted previous.toAccount
          rw [Keyed.worthAt_of_find _ found] at oneMapped counts
          have positive : old.delegatesCountAll > 0 := by omega
          dsimp only
          rw [if_pos positive]
          dsimp only
          rw [Keyed.worthAt_save]
          by_cases same : account = previous.toAccount
          · rw [if_pos (same.trans sameId.symm), if_pos (by rw [same]), same,
              ← counts]
          · have notOld : account ≠ old.id := fun isOld =>
              same (isOld.trans sameId)
            have notMapped : some previous.toAccount ≠ some account :=
              fun equal => same (Option.some.inj equal).symm
            rw [if_neg notOld, if_neg notMapped, sub_zero]
            exact counted account

theorem delegatesCountAll_increaseDelegatesCountAll (toDelegate : Address)
    (stamp : Stamp) (account : Address) :
    (increaseDelegatesCountAll store toDelegate
        stamp).contributors.worthAt Contributor.delegatesCountAll account =
      store.contributors.worthAt Contributor.delegatesCountAll account +
        if account = toDelegate then 1 else 0 := by
  unfold increaseDelegatesCountAll
  cases found : store.contributors.find toDelegate with
  | none =>
      show (store.contributors.save _).worthAt _ account = _
      rw [Keyed.worthAt_save]
      by_cases same : account = toDelegate
      · rw [if_pos same, if_pos same, same, Keyed.worthAt_of_none _ found]
        rfl
      · rw [if_neg same, if_neg same, add_zero]
  | some new =>
      have sameId : new.id = toDelegate := Keyed.key_of_find _ found
      dsimp only
      rw [Keyed.worthAt_save]
      by_cases same : account = toDelegate
      · rw [if_pos (same.trans sameId.symm), if_pos same, same,
          Keyed.worthAt_of_find _ found]
      · have notNew : account ≠ new.id := fun isNew =>
          same (isNew.trans sameId)
        rw [if_neg notNew, if_neg same, add_zero]

theorem count_remove_save (mappings : Keyed DelegateMapping.fromAccount)
    (mapping : DelegateMapping) (receiver : Address) :
    (((mappings.remove mapping.fromAccount).save mapping).count fun mapping =>
        mapping.toAccount = receiver) =
      (mappings.count fun mapping => mapping.toAccount = receiver) -
        (if (mappings.find mapping.fromAccount).map
            DelegateMapping.toAccount = some receiver then 1 else 0) +
        if receiver = mapping.toAccount then 1 else 0 := by
  have removed : (mappings.remove mapping.fromAccount).find
      mapping.fromAccount = none := by
    rw [Keyed.find_remove, if_pos rfl]
  rw [Keyed.count_eq_sum, Keyed.sum_save, Keyed.sum_remove,
    Keyed.worthAt_of_none _ removed, sub_zero, Keyed.count_eq_sum]
  have receives : (if mapping.toAccount = receiver then (1 : Int) else 0) =
      if receiver = mapping.toAccount then 1 else 0 := by
    simp only [eq_comm]
  rw [receives]
  congr 2
  cases found : mappings.find mapping.fromAccount with
  | none =>
      rw [Keyed.worthAt_of_none _ found]
      simp
  | some previous =>
      rw [Keyed.worthAt_of_find _ found]
      simp

theorem delegatesCountAll_countDelegator
    (counted : DelegatorsCounted store) (delegator toDelegate : Address)
    (stamp : Stamp) (account : Address) :
    (countDelegator store delegator toDelegate stamp).contributors.worthAt
        Contributor.delegatesCountAll account =
      ((store.delegateMappings.remove delegator).save
          ⟨delegator, toDelegate, 0, stamp⟩).count
        fun mapping => mapping.toAccount = account := by
  rw [countDelegator, delegatesCountAll_increaseDelegatesCountAll,
    delegatesCountAll_decreaseDelegatesCountAll counted]
  exact (count_remove_save store.delegateMappings
    ⟨delegator, toDelegate, 0, stamp⟩ account).symm

end AllDelegators

section EffectiveDelegators

/-- Each contributor counts the records to it, and all records have power. -/
structure EffectiveCounted (store : Store) : Prop where
  nonzero : ∀ id delegate,
    store.delegates.find id = some delegate → delegate.power ≠ 0
  counted : ∀ account,
    store.contributors.worthAt Contributor.delegatesCountEffective account =
      store.effectiveDelegatorsOf account

/-- An update that moves no power finds the record of its pair. -/
def Backed (store : Store) (current : Delegate) : Prop :=
  current.power = 0 → (store.delegates.find current.id).isSome

instance Backed.decidable (store : Store) (current : Delegate) :
    Decidable (Backed store current) :=
  inferInstanceAs (Decidable (_ → _))

theorem storePair_count
    (counted : EffectiveCounted store) {current : Delegate}
    (backed : Backed store current) :
    (storePair store.delegates current).2.2 =
      (if oldPower store.delegates current + current.power ≠ 0
        then 1 else 0) -
        if oldPower store.delegates current ≠ 0 then 1 else 0 := by
  unfold storePair oldPower
  cases found : store.delegates.find current.id with
  | none =>
      have moves : current.power ≠ 0 := by
        intro idle
        simpa [found] using backed idle
      rw [Keyed.worthAt_of_none _ found, zero_add, if_pos moves]
      rfl
  | some stored =>
      have held := counted.nonzero _ _ found
      rw [Keyed.worthAt_of_find _ found, if_pos held]
      dsimp only
      by_cases zero : stored.power + current.power = 0
      · have nothing : ¬stored.power + current.power ≠ 0 := not_not.mpr zero
        rw [if_pos zero, if_neg nothing]
        exact if_pos held
      · rw [if_neg zero, if_pos zero]
        rfl

theorem find_storePair_nonzero
    (counted : EffectiveCounted store) {current : Delegate}
    (backed : Backed store current) {id : Address × Address}
    {delegate : Delegate}
    (present : (storePair store.delegates current).1.find id =
      some delegate) : delegate.power ≠ 0 := by
  unfold storePair at present
  cases found : store.delegates.find current.id with
  | none =>
      rw [found] at present
      dsimp only at present
      rw [Keyed.find_save] at present
      split at present
      · cases present
        intro idle
        simpa [found] using backed idle
      · exact counted.nonzero _ _ present
  | some stored =>
      rw [found] at present
      dsimp only at present
      split at present
      · dsimp only at present
        rw [Keyed.find_remove] at present
        split at present
        · cases present
        · exact counted.nonzero _ _ present
      · rename_i left
        dsimp only at present
        rw [Keyed.find_save] at present
        split at present
        · cases present
          exact left
        · exact counted.nonzero _ _ present

theorem EffectiveCounted.storeDelegate
    (counted : EffectiveCounted store) {current : Delegate}
    (backed : Backed store current) :
    EffectiveCounted (storeDelegate store current) where
  nonzero := by
    intro id delegate found
    rw [delegates_storeDelegate] at found
    exact find_storePair_nonzero counted backed found
  counted := by
    intro account
    have moved := @sum_storePair store.delegates current
      (fun id power => if id.2 = account ∧ power ≠ 0 then 1 else 0)
      (by simp)
    rw [worthAt_storeDelegate store current fun _ _ _ => rfl,
      Store.effectiveDelegatorsOf, delegates_storeDelegate]
    refine Eq.trans ?_ moved.symm
    have before : (store.delegates.sum fun delegate =>
        if delegate.id.2 = account ∧ delegate.power ≠ 0 then (1 : Int)
        else 0) = store.effectiveDelegatorsOf account := rfl
    rw [before, ← counted.counted account]
    dsimp only
    rw [storePair_count counted backed]
    have receiver : current.id.2 = current.toDelegate := rfl
    rw [receiver]
    by_cases same : account = current.toDelegate
    · rw [if_pos same]
      simp only [same.symm, true_and]
      omega
    · have notSame : current.toDelegate ≠ account := Ne.symm same
      rw [if_neg same, if_neg (fun both => notSame both.1),
        if_neg (fun both => notSame both.1)]
      omega

theorem find_storeDelegate_of_idle
    (counted : EffectiveCounted store) {current : Delegate}
    (idle : current.power = 0)
    (present : (store.delegates.find current.id).isSome)
    (id : Address × Address) :
    ((storeDelegate store current).delegates.find id).isSome =
      (store.delegates.find id).isSome := by
  rw [delegates_storeDelegate]
  unfold storePair
  cases found : store.delegates.find current.id with
  | none => simp [found] at present
  | some stored =>
      have sameId : stored.id = current.id := Keyed.key_of_find _ found
      have held := counted.nonzero _ _ found
      have remains : ¬stored.power + current.power = 0 := by
        rw [idle, add_zero]
        exact held
      dsimp only
      rw [if_neg remains]
      dsimp only
      rw [Keyed.find_save]
      split
      · rename_i same
        have isStored : id = current.id := same.trans sameId
        rw [isStored, found]
        rfl
      · rfl

/-- The updates all move power, or none does. -/
def Uniform (currents : List Delegate) : Prop :=
  (∀ current ∈ currents, current.power = 0) ∨
    ∀ current ∈ currents, current.power ≠ 0

private theorem uniform_nil : Uniform [] := by
  left
  intro current member
  cases member

private theorem uniform_singleton (current : Delegate) : Uniform [current] := by
  by_cases idle : current.power = 0
  · left
    intro other member
    rw [List.mem_singleton.mp member]
    exact idle
  · right
    intro other member
    rw [List.mem_singleton.mp member]
    exact idle

theorem updates_uniform (log : EvmLog TokenEvent) :
    Uniform (updates standard choice store log) := by
  unfold updates
  cases log.event with
  | delegateChanged delegator fromDelegate toDelegate =>
      dsimp only
      split
      · exact uniform_singleton _
      · exact uniform_nil
  | delegateVotesChanged delegate previousVotes newVotes =>
      dsimp only
      cases findRolling choice store log.transactionHash with
      | none => exact uniform_nil
      | some rolling =>
          dsimp only
          split
          · exact uniform_singleton _
          · exact uniform_nil
  | transfer fromAccount toAccount value =>
      have powers : ∀ current ∈ updates standard choice store
          { log with event := .transfer fromAccount toAccount value },
          current.power = -movedPower standard value ∨
            current.power = movedPower standard value := by
        intro current member
        rcases List.mem_append.mp member with sent | received
        · obtain ⟨_, _, rfl⟩ := List.mem_map.mp sent
          exact .inl rfl
        · obtain ⟨_, _, rfl⟩ := List.mem_map.mp received
          exact .inr rfl
      by_cases idle : movedPower standard value = 0
      · left
        intro current member
        have power := powers current member
        omega
      · right
        intro current member
        have power := powers current member
        omega

theorem EffectiveCounted.foldl_of_idle {currents : List Delegate}
    (counted : EffectiveCounted store)
    (idle : ∀ current ∈ currents, current.power = 0)
    (present : ∀ current ∈ currents,
      (store.delegates.find current.id).isSome) :
    EffectiveCounted (currents.foldl TokenHandler.storeDelegate store) := by
  induction currents generalizing store with
  | nil => exact counted
  | cons current rest ih =>
      have first : (store.delegates.find current.id).isSome :=
        present current List.mem_cons_self
      have firstIdle : current.power = 0 := idle current List.mem_cons_self
      apply ih
      · exact counted.storeDelegate fun _ => first
      · exact fun later member => idle later (List.mem_cons_of_mem _ member)
      · intro later member
        rw [find_storeDelegate_of_idle counted firstIdle first]
        exact present later (List.mem_cons_of_mem _ member)

theorem EffectiveCounted.foldl_of_moves {currents : List Delegate}
    (counted : EffectiveCounted store)
    (moves : ∀ current ∈ currents, current.power ≠ 0) :
    EffectiveCounted (currents.foldl TokenHandler.storeDelegate store) := by
  induction currents generalizing store with
  | nil => exact counted
  | cons current rest ih =>
      apply ih
      · apply counted.storeDelegate
        intro idle
        exact absurd idle (moves current List.mem_cons_self)
      · exact fun later member => moves later (List.mem_cons_of_mem _ member)

end EffectiveDelegators

section Counting

theorem DelegatorsCounted.handle {log : EvmLog TokenEvent}
    (counted : DelegatorsCounted store)
    (handled : handle standard choice store log = .ok next) :
    DelegatorsCounted next := by
  obtain ⟨base, prepared, rfl⟩ := handle_eq_ok handled
  apply List.foldlRecOn
  · intro account
    by_cases changes : ∃ delegator fromDelegate toDelegate,
        log.event = .delegateChanged delegator fromDelegate toDelegate
    · obtain ⟨delegator, fromDelegate, toDelegate, event⟩ := changes
      obtain ⟨contributors, _, mappings, _⟩ := prepared.changed _ _ _ event
      rw [contributors, Store.delegatorsOf, mappings]
      exact delegatesCountAll_countDelegator counted delegator toDelegate
        log.stamp account
    · obtain ⟨contributors, _, mappings, _⟩ := prepared.otherwise
        fun delegator fromDelegate toDelegate event =>
          changes ⟨delegator, fromDelegate, toDelegate, event⟩
      rw [contributors, Store.delegatorsOf, mappings]
      exact counted account
  · intro updated updatedCounted current _
    exact updatedCounted.storeDelegate current

theorem MembersCounted.handle {log : EvmLog TokenEvent}
    (counted : MembersCounted store)
    (handled : handle standard choice store log = .ok next) :
    MembersCounted next := by
  obtain ⟨base, prepared, rfl⟩ := handle_eq_ok handled
  apply List.foldlRecOn
  · by_cases changes : ∃ delegator fromDelegate toDelegate,
        log.event = .delegateChanged delegator fromDelegate toDelegate
    · obtain ⟨delegator, fromDelegate, toDelegate, event⟩ := changes
      obtain ⟨contributors, metric, _⟩ := prepared.changed _ _ _ event
      have countedOut := counted.decreaseDelegatesCountAll delegator
      have countedIn :=
        countedOut.increaseDelegatesCountAll toDelegate log.stamp
      rw [MembersCounted, Store.memberCount, contributors, metric]
      exact countedIn
    · obtain ⟨contributors, metric, _⟩ := prepared.otherwise
        fun delegator fromDelegate toDelegate event =>
          changes ⟨delegator, fromDelegate, toDelegate, event⟩
      rw [MembersCounted, Store.memberCount, contributors, metric]
      exact counted
  · intro updated updatedCounted current _
    exact updatedCounted.storeDelegate current

theorem EffectiveCounted.handle {log : EvmLog TokenEvent}
    (counted : EffectiveCounted store)
    (backed : ∀ current ∈ updates standard choice store log,
      Backed store current)
    (handled : handle standard choice store log = .ok next) :
    EffectiveCounted next := by
  obtain ⟨base, prepared, rfl⟩ := handle_eq_ok handled
  have baseCounted : EffectiveCounted base := by
    constructor
    · rw [prepared.delegates]
      exact counted.nonzero
    · intro account
      rw [Store.effectiveDelegatorsOf, prepared.delegates]
      have unmoved :
          base.contributors.worthAt Contributor.delegatesCountEffective
              account =
            store.contributors.worthAt Contributor.delegatesCountEffective
              account :=
        prepared.worthAt (fun _ _ => rfl) (fun _ => rfl) account
      rw [unmoved]
      exact counted.counted account
  rcases @updates_uniform standard choice store log with idle | moves
  · apply baseCounted.foldl_of_idle idle
    intro current member
    rw [prepared.delegates]
    exact backed current member (idle current member)
  · exact baseCounted.foldl_of_moves moves

/-- Every update that a log brings about moves power or finds the record of its
pair. -/
def KeepsRecords (standard : Option String) (store : Store)
    (delivery : Delivery) : Prop :=
  ∀ current ∈ updates standard delivery.choice store delivery.log,
    Backed store current

/-- Along every run the counts of all delegators and of members are right.
Those of effective delegators are as long as no record of zero power is
made. -/
theorem delegators_counted {deliveries : List Delivery}
    (run : Runs.Run (Step standard) Store.empty deliveries store) :
    (∀ contributor ∈ store.contributors.values,
      contributor.delegatesCountAll = store.delegatorsOf contributor.id) ∧
      store.memberCount = store.contributors.size ∧
      (Runs.Run (Runs.restrict (KeepsRecords standard) (Step standard))
          Store.empty deliveries store →
        ∀ contributor ∈ store.contributors.values,
          contributor.delegatesCountEffective =
              store.effectiveDelegatorsOf contributor.id ∧
            0 ≤ contributor.delegatesCountEffective) := by
  have delegators : DelegatorsCounted store :=
    run.preserves (fun _ => rfl) fun _ _ _ counted taken =>
      counted.handle taken
  have members : MembersCounted store :=
    run.preserves rfl fun _ _ _ counted taken => counted.handle taken
  refine ⟨?_, members, ?_⟩
  · intro contributor member
    have found := (Keyed.mem_values _).mp member
    have all := delegators contributor.id
    rw [Keyed.worthAt_of_find _ found] at all
    exact all
  · intro keeping contributor member
    have effective : EffectiveCounted store := by
      apply keeping.preserves
      · constructor
        · intro id delegate found
          cases found
        · intro account
          rfl
      · intro _ _ _ counted taken
        exact counted.handle taken.1 taken.2
    have found := (Keyed.mem_values _).mp member
    have withPower := effective.counted contributor.id
    rw [Keyed.worthAt_of_find _ found] at withPower
    refine ⟨withPower, ?_⟩
    rw [withPower]
    exact Keyed.count_nonneg _ _

instance KeepsRecords.decidable (standard : Option String) (store : Store)
    (delivery : Delivery) :
    Decidable (KeepsRecords standard store delivery) :=
  inferInstanceAs (Decidable (∀ current ∈ _, _))

/-- An account takes its votes back from another, and then gives them to the
other again. -/
def sampleDelegations : List Delivery :=
  [sampleDelivery "1" "a"
      (.delegateChanged (sampleAccount 1) (sampleAccount 2)
        (sampleAccount 1)),
    sampleDelivery "2" "a" (.delegateVotesChanged (sampleAccount 1) 0 5),
    sampleDelivery "3" "b"
      (.delegateChanged (sampleAccount 1) (sampleAccount 1)
        (sampleAccount 2)),
    sampleDelivery "4" "b" (.delegateVotesChanged (sampleAccount 1) 5 0),
    sampleDelivery "5" "b" (.delegateVotesChanged (sampleAccount 2) 0 5)]

theorem delegators_counted_sampleDelegations :
    ∃ store contributor,
      Runs.Run (Step none) Store.empty sampleDelegations store ∧
      contributor ∈ store.contributors.values ∧
      contributor.id = sampleAccount 2 ∧
      contributor.delegatesCountAll = store.delegatorsOf contributor.id ∧
      contributor.delegatesCountEffective = 1 ∧
      store.effectiveDelegatorsOf contributor.id = 1 := by
  have followed : (Runs.follow (KeepsRecords none) (perform none) Store.empty
      sampleDelegations).any fun store =>
        store.contributors.find (sampleAccount 2) =
          some ⟨sampleAccount 2, 5, 1, 1, ⟨1, 1, "b"⟩⟩ := by
    decide +kernel
  obtain ⟨store, reached, isFound⟩ := (Option.any_eq_true _ _).mp followed
  have run := Runs.Run.of_follow (fun _ _ _ => step_of_perform) reached
  have found := of_decide_eq_true isFound
  rw [← Keyed.key_of_find _ found] at found
  have member := (Keyed.mem_values _).mpr found
  obtain ⟨all, -, effective⟩ := delegators_counted run.unrestrict
  exact ⟨store, _, run.unrestrict, member, rfl, all _ member, rfl,
    (effective run _ member).1.symm⟩

/-- An account without tokens delegates to itself, and is counted as its own
effective delegator. -/
theorem effective_of_selfDelegation :
    ∃ store contributor,
      Runs.Run (Step none) Store.empty
        [sampleDelivery "1" "a"
          (.delegateChanged (sampleAccount 1) zeroAddress (sampleAccount 1))]
        store ∧
      contributor ∈ store.contributors.values ∧
      contributor.delegatesCountEffective = 1 ∧
      store.effectiveDelegatorsOf contributor.id = 0 := by
  have followed : (Runs.follow (fun _ _ => True) (perform none) Store.empty
      [sampleDelivery "1" "a"
        (.delegateChanged (sampleAccount 1) zeroAddress
          (sampleAccount 1))]).any fun store =>
        store.contributors.find (sampleAccount 1) =
            some ⟨sampleAccount 1, 0, 1, 1, ⟨1, 1, "a"⟩⟩ ∧
          store.effectiveDelegatorsOf (sampleAccount 1) = 0 := by
    decide +kernel
  obtain ⟨store, reached, both⟩ := (Option.any_eq_true _ _).mp followed
  obtain ⟨found, noneEffective⟩ := of_decide_eq_true both
  have run := Runs.Run.of_follow (fun _ _ _ => step_of_perform) reached
  rw [← Keyed.key_of_find _ found] at found
  have member := (Keyed.mem_values _).mpr found
  exact ⟨store, _, run.unrestrict, member, rfl, noneEffective⟩

end Counting

end TokenHandler

end Degov
