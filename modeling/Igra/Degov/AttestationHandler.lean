import Igra.Degov.Ledgers

/-!
# The attestation handler

Stakes are booked as power that an attester delegates to itself.  The
contributor and the global sum take any amount; a record of the attester that
is missing is made for a positive amount only.
-/

open Tables

namespace Degov

inductive AttestationEvent where
  | attesterRegistered (attester : Address)
      (stakeAmount activationBlock : Nat)
  | attesterUnregistered (attester receiver : Address)
      (effectiveStakeAmount : Nat)
  | stakeIncreased (attester : Address) (additionalStakeAmount : Nat)
  | stakeDecreased (attester : Address) (decreasedStakeAmount : Nat)
  | penalized (attester challenger : Address)
      (penaltyAmount challengerReward reason : Nat)
  | slashed (attester challenger : Address)
      (slashAmount challengerReward reason : Nat)
  | forceExitInitiated (attester : Address)
      (effectiveBalance exitBlock : Nat)
deriving DecidableEq

def AttestationEvent.attester : AttestationEvent → Address
  | .attesterRegistered attester _ _ => attester
  | .attesterUnregistered attester _ _ => attester
  | .stakeIncreased attester _ => attester
  | .stakeDecreased attester _ => attester
  | .penalized attester _ _ _ _ => attester
  | .slashed attester _ _ _ _ => attester
  | .forceExitInitiated attester _ _ => attester

namespace AttestationHandler

/-- The contributor of `applyPowerDelta`. -/
def upsertContributor (contributors : Keyed Contributor.id)
    (attester : Address) (delta : Int) (stamp : Stamp) :
    Keyed Contributor.id :=
  match contributors.find attester with
  | some stored =>
      contributors.save { stored with power := stored.power + delta, stamp }
  | none => contributors.save ⟨attester, delta, 0, 0, stamp⟩

/-- The record of the attester's delegation to itself. -/
def upsertSelfDelegate (delegates : Keyed Delegate.id) (attester : Address)
    (delta : Int) (stamp : Stamp) : Keyed Delegate.id :=
  match delegates.find (attester, attester) with
  | some stored =>
      let power := stored.power + delta
      if power = 0 then delegates.remove (attester, attester)
      else delegates.save { stored with power, stamp }
  | none =>
      if delta > 0 then
        delegates.save ⟨attester, attester, delta, stamp⟩
      else delegates

def updateDataMetric (dataMetric : Option DataMetric) (delta : Int)
    (newMember : Bool) : Option DataMetric :=
  let metric := dataMetric.getD .global
  some
    { metric with
      powerSum := some (metric.powerSum.getD 0 + delta)
      memberCount :=
        if newMember then some (metric.memberCount.getD 0 + 1)
        else metric.memberCount }

def applyPowerDelta (store : Store) (attester : Address) (delta : Int)
    (stamp : Stamp) (isNewRegistration : Bool) : Store :=
  let isActuallyNew := (store.contributors.find attester).isNone
  { store with
    contributors :=
      upsertContributor store.contributors attester delta stamp
    delegates := upsertSelfDelegate store.delegates attester delta stamp
    dataMetric := updateDataMetric store.dataMetric delta
      (isNewRegistration && isActuallyNew) }

def zeroOutAttester (store : Store) (attester : Address) (stamp : Stamp) :
    Store :=
  match store.contributors.find attester with
  | none => store
  | some stored =>
      if stored.power = 0 then store
      else applyPowerDelta store attester (-stored.power) stamp false

def handle (store : Store) (log : EvmLog AttestationEvent) : Store :=
  match log.event with
  | .attesterRegistered attester stakeAmount _ =>
      applyPowerDelta store attester stakeAmount log.stamp true
  | .attesterUnregistered attester _ _ =>
      zeroOutAttester store attester log.stamp
  | .stakeIncreased attester additionalStakeAmount =>
      applyPowerDelta store attester additionalStakeAmount log.stamp false
  | .stakeDecreased attester decreasedStakeAmount =>
      applyPowerDelta store attester (-decreasedStakeAmount) log.stamp false
  | .penalized attester _ penaltyAmount _ _ =>
      applyPowerDelta store attester (-penaltyAmount) log.stamp false
  | .slashed attester _ slashAmount _ _ =>
      applyPowerDelta store attester (-slashAmount) log.stamp false
  | .forceExitInitiated _ _ _ => store

variable {store : Store} {attester : Address} {delta : Int} {stamp : Stamp}
  {isNewRegistration : Bool}

section Deltas

theorem powerOf_applyPowerDelta (account : Address) :
    (applyPowerDelta store attester delta stamp
        isNewRegistration).powerOf account =
      store.powerOf account + if account = attester then delta else 0 := by
  unfold applyPowerDelta upsertContributor Store.powerOf
  dsimp only
  cases found : store.contributors.find attester with
  | none =>
      dsimp only
      rw [Keyed.worthAt_save]
      by_cases same : account = attester
      · rw [if_pos same, if_pos same, same, Keyed.worthAt_of_none _ found,
          zero_add]
      · rw [if_neg same, if_neg same, add_zero]
  | some stored =>
      have sameId : stored.id = attester := Keyed.key_of_find _ found
      dsimp only
      rw [Keyed.worthAt_save]
      by_cases same : account = attester
      · rw [if_pos (same.trans sameId.symm), if_pos same, same,
          Keyed.worthAt_of_find _ found]
      · have notStored : account ≠ stored.id := fun isStored =>
          same (isStored.trans sameId)
        rw [if_neg notStored, if_neg same, add_zero]

private theorem powerSum_applyPowerDelta :
    (applyPowerDelta store attester delta stamp isNewRegistration).powerSum =
      store.powerSum + delta := by
  unfold applyPowerDelta updateDataMetric Store.powerSum
  cases store.dataMetric with
  | none => rfl
  | some metric => rfl

/-- A negative amount finds the record of the attester. -/
def Backed (store : Store) (attester : Address) (delta : Int) : Prop :=
  delta < 0 → (store.delegates.find (attester, attester)).isSome

/-- The record is updated as the token handler updates a pair, unless there is
nothing to update. -/
theorem upsertSelfDelegate_eq (backed : Backed store attester delta) :
    (delta = 0 ∧
        upsertSelfDelegate store.delegates attester delta stamp =
          store.delegates) ∨
      upsertSelfDelegate store.delegates attester delta stamp =
        (TokenHandler.storePair store.delegates
          ⟨attester, attester, delta, stamp⟩).1 := by
  have ownPair : Delegate.id ⟨attester, attester, delta, stamp⟩ =
      (attester, attester) := rfl
  unfold upsertSelfDelegate TokenHandler.storePair
  rw [ownPair]
  cases found : store.delegates.find (attester, attester) with
  | none =>
      dsimp only
      split
      · exact .inr rfl
      · rename_i notPositive
        left
        have notNegative : ¬delta < 0 := by
          intro negative
          simpa [found] using backed negative
        exact ⟨by omega, rfl⟩
  | some stored =>
      right
      dsimp only
      split
      · rfl
      · rfl

theorem delegatePower_applyPowerDelta (backed : Backed store attester delta)
    (fromDelegate toDelegate : Address) :
    (applyPowerDelta store attester delta stamp
        isNewRegistration).delegatePower fromDelegate toDelegate =
      store.delegatePower fromDelegate toDelegate +
        if (fromDelegate, toDelegate) = (attester, attester) then delta
        else 0 := by
  unfold Store.delegatePower applyPowerDelta
  dsimp only
  rcases @upsertSelfDelegate_eq store attester delta stamp backed with
    ⟨nothing, same⟩ | updated
  · rw [same, nothing, ite_self, add_zero]
  · rw [updated, TokenHandler.worthAt_storePair]
    rfl

theorem Balanced.applyPowerDelta (balanced : TokenHandler.Balanced store)
    (backed : Backed store attester delta) :
    TokenHandler.Balanced
      (applyPowerDelta store attester delta stamp isNewRegistration) := by
  have powers := @powerOf_applyPowerDelta store attester delta stamp
    isNewRegistration
  have sum := @powerSum_applyPowerDelta store attester delta stamp
    isNewRegistration
  rcases @upsertSelfDelegate_eq store attester delta stamp backed with
    ⟨nothing, same⟩ | updated
  · constructor
    · intro account
      rw [powers, nothing, ite_self, add_zero, balanced.contributors account]
      unfold Store.powerTo AttestationHandler.applyPowerDelta
      rw [nothing] at same
      rw [same]
    · rw [sum, nothing, add_zero, balanced.global]
      unfold Store.totalPower AttestationHandler.applyPowerDelta
      rw [nothing] at same
      rw [same]
  · let current : Delegate := ⟨attester, attester, delta, stamp⟩
    constructor
    · intro account
      have moved := TokenHandler.powerTo_storeDelegate store current account
      rw [Store.powerTo, TokenHandler.delegates_storeDelegate, ← updated]
        at moved
      rw [powers, balanced.contributors account]
      exact moved.symm
    · have moved := TokenHandler.totalPower_storeDelegate store current
      rw [Store.totalPower, TokenHandler.delegates_storeDelegate, ← updated]
        at moved
      rw [sum, balanced.global]
      exact moved.symm

end Deltas

section Events

/-- The amount that an event books. -/
def powerDelta (store : Store) : AttestationEvent → Int
  | .attesterRegistered _ stakeAmount _ => stakeAmount
  | .attesterUnregistered attester _ _ => -store.powerOf attester
  | .stakeIncreased _ additionalStakeAmount => additionalStakeAmount
  | .stakeDecreased _ decreasedStakeAmount => -decreasedStakeAmount
  | .penalized _ _ penaltyAmount _ _ => -penaltyAmount
  | .slashed _ _ slashAmount _ _ => -slashAmount
  | .forceExitInitiated _ _ _ => 0

/-- An event books its amount once, or has none to book. -/
theorem handle_eq (log : EvmLog AttestationEvent) :
    (∃ isNewRegistration,
      handle store log = applyPowerDelta store log.event.attester
        (powerDelta store log.event) log.stamp isNewRegistration) ∨
      powerDelta store log.event = 0 ∧ handle store log = store := by
  unfold handle
  cases log.event with
  | attesterRegistered attester stakeAmount activationBlock =>
      exact .inl ⟨true, rfl⟩
  | attesterUnregistered attester receiver effectiveStakeAmount =>
      dsimp only [powerDelta, AttestationEvent.attester]
      unfold zeroOutAttester Store.powerOf
      cases found : store.contributors.find attester with
      | none =>
          right
          rw [Keyed.worthAt_of_none _ found]
          exact ⟨rfl, rfl⟩
      | some stored =>
          rw [Keyed.worthAt_of_find _ found]
          dsimp only
          split
          · rename_i zero
            right
            rw [zero]
            exact ⟨rfl, rfl⟩
          · exact .inl ⟨false, rfl⟩
  | stakeIncreased attester additionalStakeAmount =>
      exact .inl ⟨false, rfl⟩
  | stakeDecreased attester decreasedStakeAmount =>
      exact .inl ⟨false, rfl⟩
  | penalized attester challenger penaltyAmount challengerReward reason =>
      exact .inl ⟨false, rfl⟩
  | slashed attester challenger slashAmount challengerReward reason =>
      exact .inl ⟨false, rfl⟩
  | forceExitInitiated attester effectiveBalance exitBlock =>
      exact .inr ⟨rfl, rfl⟩

variable {log : EvmLog AttestationEvent}

theorem powerOf_handle (account : Address) :
    (handle store log).powerOf account =
      store.powerOf account +
        if account = log.event.attester then powerDelta store log.event
        else 0 := by
  rcases @handle_eq store log with ⟨isNew, booked⟩ | ⟨nothing, same⟩
  · rw [booked, powerOf_applyPowerDelta]
  · rw [same, nothing, ite_self, add_zero]

theorem delegatePower_handle
    (backed : Backed store log.event.attester (powerDelta store log.event))
    (fromDelegate toDelegate : Address) :
    (handle store log).delegatePower fromDelegate toDelegate =
      store.delegatePower fromDelegate toDelegate +
        if (fromDelegate, toDelegate) =
            (log.event.attester, log.event.attester) then
          powerDelta store log.event
        else 0 := by
  rcases @handle_eq store log with ⟨isNew, booked⟩ | ⟨nothing, same⟩
  · rw [booked, delegatePower_applyPowerDelta backed]
  · rw [same, nothing, ite_self, add_zero]

theorem Balanced.handle (balanced : TokenHandler.Balanced store)
    (backed : Backed store log.event.attester (powerDelta store log.event)) :
    TokenHandler.Balanced (handle store log) := by
  rcases @handle_eq store log with ⟨isNew, booked⟩ | ⟨_, same⟩
  · rw [booked]
    exact Balanced.applyPowerDelta balanced backed
  · rw [same]
    exact balanced

/-- Stakes leave the rows of delegations alone. -/
theorem frame_handle :
    (handle store log).delegateMappings = store.delegateMappings ∧
      (handle store log).delegateRollings = store.delegateRollings := by
  rcases @handle_eq store log with ⟨isNew, booked⟩ | ⟨_, same⟩
  · rw [booked]
    exact ⟨rfl, rfl⟩
  · rw [same]
    exact ⟨rfl, rfl⟩

end Events

end AttestationHandler

end Degov
