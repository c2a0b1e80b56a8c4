import Igra.Degov.AttestationHandler
import Igra.Degov.TwoTokens

/-!
# The governor handler

A vote is recorded four times: in a row of its own kind, in the counters of its
proposal, in a row of the group of all votes and in the counters of the global
row.  The global row and the contributors are those of the token and of the
attestation handler, which leave the columns of votes alone.
-/

open Tables

namespace Degov

inductive VoteType where
  /-- vote-cast-with-params -/
  | withParams
  /-- vote-cast-without-params -/
  | withoutParams
deriving DecidableEq

inductive ClockMode where
  | timestamp
  | blockNumber
deriving DecidableEq

section Events

structure ProposalCreatedEvent where
  proposalId : Nat
  proposer : Address
  targets : List Address
  values : List Nat
  signatures : List String
  calldatas : List String
  voteStart : Nat
  voteEnd : Nat
  description : String
deriving DecidableEq

structure VoteCastEvent where
  voter : Address
  proposalId : Nat
  support : Nat
  weight : Nat
  reason : String
deriving DecidableEq

inductive GovernorEvent where
  | proposalCreated (event : ProposalCreatedEvent)
  | proposalQueued (proposalId etaSeconds : Nat)
  | proposalExecuted (proposalId : Nat)
  | proposalCanceled (proposalId : Nat)
  | voteCast (event : VoteCastEvent)
  | voteCastWithParams (event : VoteCastEvent) (params : String)
deriving DecidableEq

end Events

section Rows

structure ProposalCreated where
  id : String
  proposalId : String
  proposer : Address
  targets : List Address
  values : List String
  signatures : List String
  calldatas : List String
  voteStart : Nat
  voteEnd : Nat
  description : String
  stamp : Stamp
deriving DecidableEq

/-- What is found out about a proposal when it is created, from the chain and
from its description. -/
structure ProposalDetails where
  voteStartTimestamp : Int
  voteEndTimestamp : Int
  clockMode : ClockMode
  quorum : Nat
  decimals : Nat
  title : String
  blockInterval : String
deriving DecidableEq

structure Proposal extends ProposalCreated where
  details : ProposalDetails
  metricsVotesCount : Option Int
  metricsVotesWithParamsCount : Option Int
  metricsVotesWithoutParamsCount : Option Int
  metricsVotesWeightForSum : Option Int
  metricsVotesWeightAgainstSum : Option Int
  metricsVotesWeightAbstainSum : Option Int
deriving DecidableEq

structure ProposalQueued where
  id : String
  proposalId : String
  etaSeconds : Nat
  stamp : Stamp
deriving DecidableEq

structure ProposalExecuted where
  id : String
  proposalId : String
  stamp : Stamp
deriving DecidableEq

structure ProposalCanceled where
  id : String
  proposalId : String
  stamp : Stamp
deriving DecidableEq

structure VoteCast where
  id : String
  voter : Address
  proposalId : String
  support : Nat
  weight : Nat
  reason : String
  stamp : Stamp
deriving DecidableEq

structure VoteCastWithParams where
  id : String
  voter : Address
  proposalId : String
  support : Nat
  weight : Nat
  reason : String
  params : String
  stamp : Stamp
deriving DecidableEq

structure VoteCastGroup where
  id : String
  /-- the id of a row, null until the proposal has been found -/
  proposal : Option String
  type : VoteType
  voter : Address
  refProposalId : String
  support : Nat
  weight : Nat
  reason : String
  params : Option String
  stamp : Stamp
deriving DecidableEq

/-- The columns of a contributor that say when it last voted. -/
structure LastVote where
  contributor : Address
  lastVoteBlockNumber : Nat
  lastVoteTimestamp : Nat
deriving DecidableEq

end Rows

/-- The columns that say when a contributor last voted stand beside its row,
which no handler removes: they are null until it votes. -/
structure IndexerStore where
  ledgers : Store
  proposalCreateds : Keyed ProposalCreated.id
  proposals : Keyed fun proposal : Proposal => proposal.id
  proposalQueueds : Keyed ProposalQueued.id
  proposalExecuteds : Keyed ProposalExecuted.id
  proposalCanceleds : Keyed ProposalCanceled.id
  voteCasts : Keyed VoteCast.id
  voteCastsWithParams : Keyed VoteCastWithParams.id
  voteCastGroups : Keyed VoteCastGroup.id
  lastVotes : Keyed LastVote.contributor

def IndexerStore.empty : IndexerStore where
  ledgers := .empty
  proposalCreateds := .empty _
  proposals := .empty _
  proposalQueueds := .empty _
  proposalExecuteds := .empty _
  proposalCanceleds := .empty _
  voteCasts := .empty _
  voteCastsWithParams := .empty _
  voteCastGroups := .empty _
  lastVotes := .empty _

structure IndexerWork where
  daoCode : String
  contracts : List IndexerContract

inductive IndexerError where
  | store (error : StoreError)
  | governorTokenNotFound (daoCode : String) (governor : Address)
  /-- the chain or the reader of descriptions has failed -/
  | lookUp (reason : String)
deriving DecidableEq

/-- The services that are asked about a proposal are given what the code hands
to them: the governor, its token and the log. -/
structure GovernorHandlerOptions where
  work : IndexerWork
  indexContract : IndexerContract
  lookUp : IndexerContract → IndexerContract → EvmLog ProposalCreatedEvent →
    Except String ProposalDetails

/-- `store.insert(row)`, which throws in a handler. -/
def insert {Key Row : Type} [DecidableEq Key] {key : Row → Key}
    (table : Keyed key) (row : Row) : Except IndexerError (Keyed key) :=
  (insertRow table row).mapError .store

theorem mapError_eq_ok {ε δ α : Type} {wrap : ε → δ} {result : Except ε α}
    {value : α} : result.mapError wrap = .ok value ↔ result = .ok value := by
  cases result with
  | error error => simp [Except.mapError]
  | ok value => simp [Except.mapError]

theorem insert_eq_ok {Key Row : Type} [DecidableEq Key] {key : Row → Key}
    {table inserted : Keyed key} {row : Row} :
    insert table row = .ok inserted ↔
      table.find (key row) = none ∧ table.save row = inserted := by
  rw [insert, mapError_eq_ok, insertRow_eq_ok]

namespace GovernorHandler

/-- The text in base 16 after `0x`. -/
def stdProposalId (proposalId : Nat) : String :=
  "0x" ++ String.ofList (Nat.toDigits 16 proposalId)

private theorem digitChar_inj {first second : Nat} (firstFits : first < 16)
    (secondFits : second < 16)
    (same : first.digitChar = second.digitChar) : first = second := by
  have all : ∀ first second : Fin 16,
      first.val.digitChar = second.val.digitChar → first = second := by decide
  exact congrArg Fin.val (all ⟨first, firstFits⟩ ⟨second, secondFits⟩ same)

theorem toDigits_injective : Function.Injective (Nat.toDigits 16) := by
  intro first
  induction first using Nat.strongRecOn with
  | ind first ih =>
      intro second same
      rw [@Nat.toDigits_eq_if 16 first (by decide),
        @Nat.toDigits_eq_if 16 second (by decide)] at same
      split at same
      · rename_i firstFits
        split at same
        · rename_i secondFits
          exact digitChar_inj firstFits secondFits
            (List.head_eq_of_cons_eq same)
        · simp [List.singleton_eq_append_iff] at same
      · rename_i firstLarge
        split at same
        · simp [List.append_eq_singleton_iff] at same
        · obtain ⟨front, last⟩ := List.append_inj' same rfl
          have quotients := ih (first / 16) (by omega) front
          have remainders := digitChar_inj (Nat.mod_lt _ (by decide))
            (Nat.mod_lt _ (by decide)) (List.head_eq_of_cons_eq last)
          omega

theorem stdProposalId_injective : Function.Injective stdProposalId := by
  intro first second same
  apply toDigits_injective
  apply String.ofList_injective
  exact (String.append_right_inj _).mp same

structure DataMetricOptions where
  proposalsCount : Option Int := none
  votesCount : Option Int := none
  votesWithParamsCount : Option Int := none
  votesWithoutParamsCount : Option Int := none
  votesWeightForSum : Option Int := none
  votesWeightAgainstSum : Option Int := none
  votesWeightAbstainSum : Option Int := none

def addMetric (dm : DataMetric) (options : DataMetricOptions) : DataMetric :=
  { dm with
    proposalsCount :=
      some (dm.proposalsCount.getD 0 + options.proposalsCount.getD 0)
    votesCount := some (dm.votesCount.getD 0 + options.votesCount.getD 0)
    votesWithParamsCount :=
      some (dm.votesWithParamsCount.getD 0 +
        options.votesWithParamsCount.getD 0)
    votesWithoutParamsCount :=
      some (dm.votesWithoutParamsCount.getD 0 +
        options.votesWithoutParamsCount.getD 0)
    votesWeightForSum :=
      some (dm.votesWeightForSum.getD 0 + options.votesWeightForSum.getD 0)
    votesWeightAgainstSum :=
      some (dm.votesWeightAgainstSum.getD 0 +
        options.votesWeightAgainstSum.getD 0)
    votesWeightAbstainSum :=
      some (dm.votesWeightAbstainSum.getD 0 +
        options.votesWeightAbstainSum.getD 0) }

/-- A missing row is made first. -/
def storeGlobalDataMetric (store : IndexerStore)
    (options : DataMetricOptions) : IndexerStore :=
  { store with
    ledgers :=
      { store.ledgers with
        dataMetric :=
          some (addMetric (store.ledgers.dataMetric.getD .global) options) } }

/-- The row of the event, which both tables of proposals begin with. -/
def createdRow (log : EvmLog ProposalCreatedEvent) : ProposalCreated where
  id := log.id
  proposalId := stdProposalId log.event.proposalId
  proposer := log.event.proposer
  targets := log.event.targets
  values := log.event.values.map toString
  signatures := log.event.signatures
  calldatas := log.event.calldatas
  voteStart := log.event.voteStart
  voteEnd := log.event.voteEnd
  description := log.event.description
  stamp := log.stamp

def governorTokenContract (options : GovernorHandlerOptions) :
    Except IndexerError IndexerContract :=
  match options.work.contracts.find? fun item =>
      decide (item.name = .governorToken) with
  | some contract => .ok contract
  | none =>
      .error (.governorTokenNotFound options.work.daoCode
        options.indexContract.address)

def storeProposalCreated (options : GovernorHandlerOptions)
    (store : IndexerStore) (log : EvmLog ProposalCreatedEvent) :
    Except IndexerError IndexerStore := do
  let entity := createdRow log
  let proposalCreateds ← insert store.proposalCreateds entity
  let governorToken ← governorTokenContract options
  let details ←
    (options.lookUp options.indexContract governorToken log).mapError .lookUp
  let proposals ← insert store.proposals
    { entity with
      details
      metricsVotesCount := none
      metricsVotesWithParamsCount := none
      metricsVotesWithoutParamsCount := none
      metricsVotesWeightForSum := none
      metricsVotesWeightAgainstSum := none
      metricsVotesWeightAbstainSum := none }
  pure (storeGlobalDataMetric { store with proposalCreateds, proposals }
    { proposalsCount := some 1 })

def storeProposalQueued (store : IndexerStore) (id : String) (stamp : Stamp)
    (proposalId etaSeconds : Nat) : Except IndexerError IndexerStore := do
  let proposalQueueds ← insert store.proposalQueueds
    ⟨id, stdProposalId proposalId, etaSeconds, stamp⟩
  pure { store with proposalQueueds }

def storeProposalExecuted (store : IndexerStore) (id : String) (stamp : Stamp)
    (proposalId : Nat) : Except IndexerError IndexerStore := do
  let proposalExecuteds ← insert store.proposalExecuteds
    ⟨id, stdProposalId proposalId, stamp⟩
  pure { store with proposalExecuteds }

def storeProposalCanceled (store : IndexerStore) (id : String) (stamp : Stamp)
    (proposalId : Nat) : Except IndexerError IndexerStore := do
  let proposalCanceleds ← insert store.proposalCanceleds
    ⟨id, stdProposalId proposalId, stamp⟩
  pure { store with proposalCanceleds }

/-- `+(vcg.type === type)`. -/
def oneIf (vcg : VoteCastGroup) (type : VoteType) : Int :=
  if vcg.type = type then 1 else 0

def votesWeightAgainstSum (vcg : VoteCastGroup) : Int :=
  if vcg.support = 0 then vcg.weight else 0

def votesWeightForSum (vcg : VoteCastGroup) : Int :=
  if vcg.support = 1 then vcg.weight else 0

def votesWeightAbstainSum (vcg : VoteCastGroup) : Int :=
  if vcg.support = 2 then vcg.weight else 0

/-- The proposal with the counters of one more vote. -/
def countVote (proposal : Proposal) (vcg : VoteCastGroup) : Proposal :=
  { proposal with
    metricsVotesCount := some (proposal.metricsVotesCount.getD 0 + 1)
    metricsVotesWithParamsCount :=
      some (proposal.metricsVotesWithParamsCount.getD 0 +
        oneIf vcg .withParams)
    metricsVotesWithoutParamsCount :=
      some (proposal.metricsVotesWithoutParamsCount.getD 0 +
        oneIf vcg .withoutParams)
    metricsVotesWeightForSum :=
      some (proposal.metricsVotesWeightForSum.getD 0 + votesWeightForSum vcg)
    metricsVotesWeightAgainstSum :=
      some (proposal.metricsVotesWeightAgainstSum.getD 0 +
        votesWeightAgainstSum vcg)
    metricsVotesWeightAbstainSum :=
      some (proposal.metricsVotesWeightAbstainSum.getD 0 +
        votesWeightAbstainSum vcg) }

/-- `findOne(Proposal, { where: { proposalId } })`. -/
def findProposal (choice : RowChoice Proposal) (store : IndexerStore)
    (proposalId : String) : Option Proposal :=
  choice.pick (store.proposals.values.filter fun proposal =>
    decide (proposal.proposalId = proposalId))

/-- A contributor that is stored has voted last now. -/
def storeLastVote (store : IndexerStore) (vcg : VoteCastGroup) :
    Keyed LastVote.contributor :=
  match store.ledgers.contributors.find vcg.voter with
  | some contributor =>
      store.lastVotes.save
        ⟨contributor.id, vcg.stamp.blockNumber, vcg.stamp.blockTimestamp⟩
  | none => store.lastVotes

def storeVoteCastGroup (choice : RowChoice Proposal) (store : IndexerStore)
    (vcg : VoteCastGroup) : Except IndexerError IndexerStore := do
  let (proposals, linked) :=
    match findProposal choice store vcg.refProposalId with
    | some proposal =>
        (store.proposals.save (countVote proposal vcg),
          { vcg with proposal := some proposal.id })
    | none => (store.proposals, vcg)
  let voteCastGroups ← insert store.voteCastGroups linked
  pure (storeGlobalDataMetric
    { store with
      proposals
      voteCastGroups
      lastVotes := storeLastVote store vcg }
    { votesCount := some 1
      votesWithParamsCount := some (oneIf vcg .withParams)
      votesWithoutParamsCount := some (oneIf vcg .withoutParams)
      votesWeightForSum := some (votesWeightForSum vcg)
      votesWeightAgainstSum := some (votesWeightAgainstSum vcg)
      votesWeightAbstainSum := some (votesWeightAbstainSum vcg) })

/-- The row of the group for a vote. -/
def voteRow (id : String) (stamp : Stamp) (event : VoteCastEvent)
    (type : VoteType) (params : Option String) : VoteCastGroup where
  id
  proposal := none
  type
  voter := event.voter
  refProposalId := stdProposalId event.proposalId
  support := event.support
  weight := event.weight
  reason := event.reason
  params
  stamp

def storeVoteCast (choice : RowChoice Proposal) (store : IndexerStore)
    (id : String) (stamp : Stamp) (event : VoteCastEvent) :
    Except IndexerError IndexerStore := do
  let voteCasts ← insert store.voteCasts
    ⟨id, event.voter, stdProposalId event.proposalId, event.support,
      event.weight, event.reason, stamp⟩
  storeVoteCastGroup choice { store with voteCasts }
    (voteRow id stamp event .withoutParams none)

def storeVoteCastWithParams (choice : RowChoice Proposal)
    (store : IndexerStore) (id : String) (stamp : Stamp)
    (event : VoteCastEvent) (params : String) :
    Except IndexerError IndexerStore := do
  let voteCastsWithParams ← insert store.voteCastsWithParams
    ⟨id, event.voter, stdProposalId event.proposalId, event.support,
      event.weight, event.reason, params, stamp⟩
  storeVoteCastGroup choice { store with voteCastsWithParams }
    (voteRow id stamp event .withParams (some params))

def handle (options : GovernorHandlerOptions) (choice : RowChoice Proposal)
    (store : IndexerStore) (log : EvmLog GovernorEvent) :
    Except IndexerError IndexerStore :=
  match log.event with
  | .proposalCreated event =>
      storeProposalCreated options store
        ⟨log.id, log.height, log.timestamp, log.transactionHash, event⟩
  | .proposalQueued proposalId etaSeconds =>
      storeProposalQueued store log.id log.stamp proposalId etaSeconds
  | .proposalExecuted proposalId =>
      storeProposalExecuted store log.id log.stamp proposalId
  | .proposalCanceled proposalId =>
      storeProposalCanceled store log.id log.stamp proposalId
  | .voteCast event => storeVoteCast choice store log.id log.stamp event
  | .voteCastWithParams event params =>
      storeVoteCastWithParams choice store log.id log.stamp event params

end GovernorHandler

end Degov
