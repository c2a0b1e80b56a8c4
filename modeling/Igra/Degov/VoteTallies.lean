import Igra.Degov.GovernorHandler
import Igra.Runs

/-!
# Tallies of votes

Events of the governor, of the tokens and of the attestations are indexed in
any order.  As long as proposals have distinct ids and votes are for proposals
that have been created, the counters of a proposal are the votes that refer to
it, and those of the global row are the sums over all proposals.
-/

open Tables

namespace Degov

inductive IndexerEvent where
  | governor (log : EvmLog GovernorEvent)
  | token (contract : IndexerContract) (log : EvmLog TokenEvent)
  | attestation (log : EvmLog AttestationEvent)

/-- What the handlers are made with, and which rows the database returns. -/
structure Indexer where
  options : GovernorHandlerOptions
  proposalChoice : RowChoice Proposal
  rollingChoice : RowChoice DelegateRolling

def Indexer.handle (indexer : Indexer) (store : IndexerStore) :
    IndexerEvent → Except IndexerError IndexerStore
  | .governor log =>
      GovernorHandler.handle indexer.options indexer.proposalChoice store log
  | .token contract log => do
      let ledgers ← (TokenHandler.handle contract.standard
        indexer.rollingChoice store.ledgers log).mapError .store
      pure { store with ledgers }
  | .attestation log =>
      pure { store with ledgers := AttestationHandler.handle store.ledgers log }

def Indexer.Indexes (indexer : Indexer) (store : IndexerStore)
    (event : IndexerEvent) (next : IndexerStore) : Prop :=
  indexer.handle store event = .ok next

section Tallies

/-- The counters that proposals and the global row have in common. -/
inductive VoteMetric where
  | votesCount
  | votesWithParamsCount
  | votesWithoutParamsCount
  | votesWeightForSum
  | votesWeightAgainstSum
  | votesWeightAbstainSum

/-- A counter that is null counts nothing. -/
def Proposal.metric (proposal : Proposal) : VoteMetric → Int
  | .votesCount => proposal.metricsVotesCount.getD 0
  | .votesWithParamsCount => proposal.metricsVotesWithParamsCount.getD 0
  | .votesWithoutParamsCount => proposal.metricsVotesWithoutParamsCount.getD 0
  | .votesWeightForSum => proposal.metricsVotesWeightForSum.getD 0
  | .votesWeightAgainstSum => proposal.metricsVotesWeightAgainstSum.getD 0
  | .votesWeightAbstainSum => proposal.metricsVotesWeightAbstainSum.getD 0

def DataMetric.metric (dm : DataMetric) : VoteMetric → Int
  | .votesCount => dm.votesCount.getD 0
  | .votesWithParamsCount => dm.votesWithParamsCount.getD 0
  | .votesWithoutParamsCount => dm.votesWithoutParamsCount.getD 0
  | .votesWeightForSum => dm.votesWeightForSum.getD 0
  | .votesWeightAgainstSum => dm.votesWeightAgainstSum.getD 0
  | .votesWeightAbstainSum => dm.votesWeightAbstainSum.getD 0

/-- A global counter, as the code reads it. -/
def Store.metric (store : Store) : VoteMetric → Int :=
  (store.dataMetric.getD .global).metric

/-- The global `proposalsCount`, as the code reads it. -/
def Store.proposalsCount (store : Store) : Int :=
  (store.dataMetric.getD .global).proposalsCount.getD 0

/-- What a vote is worth in each of the counters. -/
def VoteCastGroup.worth (vote : VoteCastGroup) : VoteMetric → Int
  | .votesCount => 1
  | .votesWithParamsCount => if vote.type = .withParams then 1 else 0
  | .votesWithoutParamsCount => if vote.type = .withoutParams then 1 else 0
  | .votesWeightForSum => if vote.support = 1 then vote.weight else 0
  | .votesWeightAgainstSum => if vote.support = 0 then vote.weight else 0
  | .votesWeightAbstainSum => if vote.support = 2 then vote.weight else 0

def VoteCastGroup.worthFor (vote : VoteCastGroup) (proposalId : String)
    (metric : VoteMetric) : Int :=
  if vote.refProposalId = proposalId then vote.worth metric else 0

structure Tallied (store : IndexerStore) : Prop where
  proposals : ∀ proposal ∈ store.proposals.values, ∀ metric,
    proposal.metric metric =
      store.voteCastGroups.sum fun vote =>
        vote.worthFor proposal.proposalId metric
  referred : ∀ vote ∈ store.voteCastGroups.values,
    ∃ proposal ∈ store.proposals.values,
      vote.proposal = some proposal.id ∧
        vote.refProposalId = proposal.proposalId
  global : ∀ metric,
    store.ledgers.metric metric =
      store.proposals.sum fun proposal => proposal.metric metric
  proposalsCount : store.ledgers.proposalsCount = store.proposals.size

end Tallies

section Histories

def GovernorEvent.created : GovernorEvent → Option Nat
  | .proposalCreated event => some event.proposalId
  | .proposalQueued _ _ => none
  | .proposalExecuted _ => none
  | .proposalCanceled _ => none
  | .voteCast _ => none
  | .voteCastWithParams _ _ => none

def GovernorEvent.votedOn : GovernorEvent → Option Nat
  | .proposalCreated _ => none
  | .proposalQueued _ _ => none
  | .proposalExecuted _ => none
  | .proposalCanceled _ => none
  | .voteCast event => some event.proposalId
  | .voteCastWithParams event _ => some event.proposalId

def IndexerEvent.governorEvent : IndexerEvent → Option GovernorEvent
  | .governor log => some log.event
  | .token _ _ => none
  | .attestation _ => none

def IndexerEvent.created (event : IndexerEvent) : Option Nat :=
  event.governorEvent.bind GovernorEvent.created

def IndexerEvent.votedOn (event : IndexerEvent) : Option Nat :=
  event.governorEvent.bind GovernorEvent.votedOn

/-- The ids of the proposals that are created, in their order. -/
def createdProposals (events : List IndexerEvent) : List Nat :=
  events.filterMap IndexerEvent.created

theorem createdProposals_append (events : List IndexerEvent)
    (event : IndexerEvent) :
    createdProposals (events ++ [event]) =
      createdProposals events ++ event.created.toList := by
  rw [createdProposals, createdProposals, List.filterMap_append]
  cases created : event.created with
  | none =>
      rw [List.filterMap_cons_none created]
      rfl
  | some proposalId =>
      rw [List.filterMap_cons_some created]
      rfl

/-- A proposal is created once, and before it is voted on. -/
structure Orderly (events : List IndexerEvent) : Prop where
  distinct : (createdProposals events).Nodup
  voted : ∀ index : Fin events.length,
    ∀ proposalId ∈ events[index].votedOn,
      proposalId ∈ createdProposals (events.take index)

end Histories

section Columns

/-- The global row without the columns of the other two handlers. -/
def Store.governorColumns (store : Store) : DataMetric :=
  { store.dataMetric.getD .global with powerSum := none, memberCount := none }

theorem Store.metric_eq (store : Store) (metric : VoteMetric) :
    store.metric metric = store.governorColumns.metric metric := by
  cases metric with
  | votesCount => rfl
  | votesWithParamsCount => rfl
  | votesWithoutParamsCount => rfl
  | votesWeightForSum => rfl
  | votesWeightAgainstSum => rfl
  | votesWeightAbstainSum => rfl

namespace TokenHandler

theorem governorColumns_increaseMetricsContributorCount (store : Store) :
    (increaseMetricsContributorCount store).governorColumns =
      store.governorColumns := rfl

private theorem governorColumns_increaseMetricsPowerSum (store : Store)
    (power : Int) :
    (increaseMetricsPowerSum store power).governorColumns =
      store.governorColumns := rfl

private theorem governorColumns_storeContributor (store : Store)
    (contributor : Contributor) :
    (storeContributor store contributor).governorColumns =
      store.governorColumns := by
  unfold storeContributor
  cases store.contributors.find contributor.id with
  | none => exact governorColumns_increaseMetricsContributorCount _
  | some stored => rfl

theorem governorColumns_storeDelegate (store : Store) (current : Delegate) :
    (storeDelegate store current).governorColumns = store.governorColumns := by
  unfold storeDelegate
  rw [governorColumns_increaseMetricsPowerSum, governorColumns_storeContributor]
  rfl

private theorem governorColumns_storeMapped (store : Store)
    (mapping : Option DelegateMapping) (power : Int) (stamp : Stamp) :
    (storeMapped store mapping power stamp).governorColumns =
      store.governorColumns := by
  cases mapping with
  | none => rfl
  | some mapping => exact governorColumns_storeDelegate store _

theorem governorColumns_decreaseDelegatesCountAll (store : Store)
    (delegator : Address) :
    (decreaseDelegatesCountAll store delegator).governorColumns =
      store.governorColumns := by
  unfold decreaseDelegatesCountAll
  cases store.delegateMappings.find delegator with
  | none => rfl
  | some previous =>
      dsimp only
      cases store.contributors.find previous.toAccount with
      | none => rfl
      | some old =>
          dsimp only
          split
          · rfl
          · rfl

private theorem governorColumns_increaseDelegatesCountAll (store : Store)
    (toDelegate : Address) (stamp : Stamp) :
    (increaseDelegatesCountAll store toDelegate stamp).governorColumns =
      store.governorColumns := by
  unfold increaseDelegatesCountAll
  cases store.contributors.find toDelegate with
  | none => exact governorColumns_increaseMetricsContributorCount _
  | some new => rfl

private theorem governorColumns_updateDelegateRolling
    (choice : RowChoice DelegateRolling) (store : Store)
    (options : DelegateVotesChanged) :
    (updateDelegateRolling choice store options).governorColumns =
      store.governorColumns := by
  unfold updateDelegateRolling
  cases findRolling choice store options.stamp.transactionHash with
  | none => rfl
  | some rolling =>
      dsimp only
      split
      · exact governorColumns_storeDelegate _ _
      · rfl

theorem governorColumns_of_handle {standard : Option String}
    {choice : RowChoice DelegateRolling} {store next : Store}
    {log : EvmLog TokenEvent}
    (handled : handle standard choice store log = .ok next) :
    next.governorColumns = store.governorColumns := by
  unfold handle at handled
  cases isEvent : log.event with
  | delegateChanged delegator fromDelegate toDelegate =>
      rw [isEvent] at handled
      obtain ⟨delegateChangeds, _, rest⟩ := bind_eq_ok.mp handled
      obtain ⟨delegateRollings, _, finished⟩ := bind_eq_ok.mp rest
      have counted : (countDelegator store delegator toDelegate
          log.stamp).governorColumns = store.governorColumns :=
        (governorColumns_increaseDelegatesCountAll _ _ _).trans
          (governorColumns_decreaseDelegatesCountAll _ _)
      split at finished
      · cases finished
        exact (governorColumns_storeDelegate _ _).trans counted
      · cases finished
        exact counted
  | delegateVotesChanged delegate previousVotes newVotes =>
      rw [isEvent] at handled
      obtain ⟨delegateVotesChangeds, _, finished⟩ := bind_eq_ok.mp handled
      cases finished
      exact governorColumns_updateDelegateRolling _ _ _
  | transfer fromAccount toAccount value =>
      rw [isEvent] at handled
      obtain ⟨tokenTransfers, _, finished⟩ := bind_eq_ok.mp handled
      cases finished
      exact (governorColumns_storeMapped _ _ _ _).trans
        (governorColumns_storeMapped _ _ _ _)

end TokenHandler

theorem AttestationHandler.governorColumns_handle (store : Store)
    (log : EvmLog AttestationEvent) :
    (handle store log).governorColumns = store.governorColumns := by
  rcases @handle_eq store log with ⟨isNewRegistration, booked⟩ | ⟨_, same⟩
  · rw [booked]
    rfl
  · rw [same]

end Columns

namespace GovernorHandler

variable {options : GovernorHandlerOptions} {choice : RowChoice Proposal}
  {store next : IndexerStore}

/-- The counters of a new proposal are null. -/
structure CreatesProposal (store : IndexerStore) (proposalId : Nat)
    (next : IndexerStore) : Prop where
  saved : ∃ proposal : Proposal,
    proposal.proposalId = stdProposalId proposalId ∧
      (∀ metric, proposal.metric metric = 0) ∧
      store.proposals.find proposal.id = none ∧
      next.proposals = store.proposals.save proposal
  voteCastGroups : next.voteCastGroups = store.voteCastGroups
  metrics : ∀ metric,
    next.ledgers.metric metric = store.ledgers.metric metric
  proposalsCount :
    next.ledgers.proposalsCount = store.ledgers.proposalsCount + 1

structure CountsVote (choice : RowChoice Proposal) (store : IndexerStore)
    (vote : VoteCastGroup) (next : IndexerStore) : Prop where
  saved : ∀ proposal,
    findProposal choice store vote.refProposalId = some proposal →
      next.proposals = store.proposals.save (countVote proposal vote) ∧
      store.voteCastGroups.find vote.id = none ∧
      next.voteCastGroups =
        store.voteCastGroups.save { vote with proposal := some proposal.id }
  metrics : ∀ metric,
    next.ledgers.metric metric =
      store.ledgers.metric metric + vote.worth metric
  proposalsCount : next.ledgers.proposalsCount = store.ledgers.proposalsCount

/-- The columns that are tallied stay as they are. -/
structure LeavesTallies (store next : IndexerStore) : Prop where
  proposals : next.proposals = store.proposals
  voteCastGroups : next.voteCastGroups = store.voteCastGroups
  metric : next.ledgers.metric = store.ledgers.metric
  proposalsCount : next.ledgers.proposalsCount = store.ledgers.proposalsCount

theorem LeavesTallies.of_columns (proposals : next.proposals = store.proposals)
    (voteCastGroups : next.voteCastGroups = store.voteCastGroups)
    (columns : next.ledgers.governorColumns = store.ledgers.governorColumns) :
    LeavesTallies store next where
  proposals := proposals
  voteCastGroups := voteCastGroups
  metric := by
    funext metric
    rw [Store.metric_eq, columns, ← Store.metric_eq]
  proposalsCount := congrArg (fun dm => dm.proposalsCount.getD 0) columns

theorem createsProposal_of_stored {log : EvmLog ProposalCreatedEvent}
    (stored : storeProposalCreated options store log = .ok next) :
    CreatesProposal store log.event.proposalId next := by
  unfold storeProposalCreated at stored
  obtain ⟨proposalCreateds, _, stored⟩ := bind_eq_ok.mp stored
  obtain ⟨governorToken, _, stored⟩ := bind_eq_ok.mp stored
  obtain ⟨details, _, stored⟩ := bind_eq_ok.mp stored
  obtain ⟨proposals, inserted, finished⟩ := bind_eq_ok.mp stored
  obtain ⟨fresh, rfl⟩ := insert_eq_ok.mp inserted
  cases finished
  constructor
  · refine ⟨_, rfl, ?_, fresh, rfl⟩
    intro metric
    cases metric with
    | votesCount => rfl
    | votesWithParamsCount => rfl
    | votesWithoutParamsCount => rfl
    | votesWeightForSum => rfl
    | votesWeightAgainstSum => rfl
    | votesWeightAbstainSum => rfl
  · rfl
  · intro metric
    cases metric with
    | votesCount => exact add_zero _
    | votesWithParamsCount => exact add_zero _
    | votesWithoutParamsCount => exact add_zero _
    | votesWeightForSum => exact add_zero _
    | votesWeightAgainstSum => exact add_zero _
    | votesWeightAbstainSum => exact add_zero _
  · rfl

private theorem metric_countVote (proposal : Proposal) (vote : VoteCastGroup)
    (metric : VoteMetric) :
    (countVote proposal vote).metric metric =
      proposal.metric metric + vote.worth metric := by
  cases metric with
  | votesCount => rfl
  | votesWithParamsCount => rfl
  | votesWithoutParamsCount => rfl
  | votesWeightForSum => rfl
  | votesWeightAgainstSum => rfl
  | votesWeightAbstainSum => rfl

theorem countsVote_of_stored {vote : VoteCastGroup}
    (stored : storeVoteCastGroup choice store vote = .ok next) :
    CountsVote choice store vote next := by
  unfold storeVoteCastGroup at stored
  obtain ⟨voteCastGroups, inserted, finished⟩ := bind_eq_ok.mp stored
  obtain ⟨fresh, rfl⟩ := insert_eq_ok.mp inserted
  cases finished
  constructor
  · intro proposal found
    rw [found] at fresh
    refine ⟨?_, fresh, ?_⟩
    · simp only [storeGlobalDataMetric, found]
    · simp only [storeGlobalDataMetric, found]
  · intro metric
    cases metric with
    | votesCount => rfl
    | votesWithParamsCount => rfl
    | votesWithoutParamsCount => rfl
    | votesWeightForSum => rfl
    | votesWeightAgainstSum => rfl
    | votesWeightAbstainSum => rfl
  · exact add_zero _

theorem handle_cases {log : EvmLog GovernorEvent}
    (handled : handle options choice store log = .ok next) :
    (∃ proposalId, log.event.created = some proposalId ∧
      log.event.votedOn = none ∧ CreatesProposal store proposalId next) ∨
    (∃ vote proposalId, log.event.created = none ∧
      log.event.votedOn = some proposalId ∧
      vote.refProposalId = stdProposalId proposalId ∧
      CountsVote choice store vote next) ∨
    log.event.created = none ∧ log.event.votedOn = none ∧
      LeavesTallies store next := by
  unfold handle at handled
  cases isEvent : log.event with
  | proposalCreated event =>
      rw [isEvent] at handled
      exact .inl ⟨_, rfl, rfl, createsProposal_of_stored handled⟩
  | proposalQueued proposalId etaSeconds =>
      rw [isEvent] at handled
      obtain ⟨proposalQueueds, _, finished⟩ := bind_eq_ok.mp handled
      cases finished
      exact .inr (.inr ⟨rfl, rfl, rfl, rfl, rfl, rfl⟩)
  | proposalExecuted proposalId =>
      rw [isEvent] at handled
      obtain ⟨proposalExecuteds, _, finished⟩ := bind_eq_ok.mp handled
      cases finished
      exact .inr (.inr ⟨rfl, rfl, rfl, rfl, rfl, rfl⟩)
  | proposalCanceled proposalId =>
      rw [isEvent] at handled
      obtain ⟨proposalCanceleds, _, finished⟩ := bind_eq_ok.mp handled
      cases finished
      exact .inr (.inr ⟨rfl, rfl, rfl, rfl, rfl, rfl⟩)
  | voteCast event =>
      rw [isEvent] at handled
      obtain ⟨voteCasts, _, stored⟩ := bind_eq_ok.mp handled
      have counts := countsVote_of_stored stored
      exact .inr (.inl ⟨_, _, rfl, rfl, rfl,
        counts.saved, counts.metrics, counts.proposalsCount⟩)
  | voteCastWithParams event params =>
      rw [isEvent] at handled
      obtain ⟨voteCastsWithParams, _, stored⟩ := bind_eq_ok.mp handled
      have counts := countsVote_of_stored stored
      exact .inr (.inl ⟨_, _, rfl, rfl, rfl,
        counts.saved, counts.metrics, counts.proposalsCount⟩)

/-- Of the ledgers no more than the row of the global counters is made. -/
structure KeepsPower (ledgers next : Store) : Prop where
  powerSum :
    next.dataMetric.bind DataMetric.powerSum =
      ledgers.dataMetric.bind DataMetric.powerSum
  memberCount :
    next.dataMetric.bind DataMetric.memberCount =
      ledgers.dataMetric.bind DataMetric.memberCount
  tables : next = { ledgers with dataMetric := next.dataMetric }

theorem keepsPower_of_addMetric (ledgers : Store)
    (options : DataMetricOptions) :
    KeepsPower ledgers
      { ledgers with
        dataMetric :=
          some (addMetric (ledgers.dataMetric.getD .global) options) } := by
  cases found : ledgers.dataMetric with
  | none => exact ⟨by rw [found]; rfl, by rw [found]; rfl, rfl⟩
  | some metric => exact ⟨by rw [found]; rfl, by rw [found]; rfl, rfl⟩

private theorem keepsPower_of_vote {vote : VoteCastGroup}
    (stored : storeVoteCastGroup choice store vote = .ok next) :
    KeepsPower store.ledgers next.ledgers := by
  unfold storeVoteCastGroup at stored
  obtain ⟨voteCastGroups, _, finished⟩ := bind_eq_ok.mp stored
  cases finished
  exact keepsPower_of_addMetric store.ledgers _

theorem keepsPower_of_handle {log : EvmLog GovernorEvent}
    (handled : handle options choice store log = .ok next) :
    KeepsPower store.ledgers next.ledgers := by
  unfold handle at handled
  cases isEvent : log.event with
  | proposalCreated event =>
      rw [isEvent] at handled
      obtain ⟨proposalCreateds, _, stored⟩ := bind_eq_ok.mp handled
      obtain ⟨governorToken, _, stored⟩ := bind_eq_ok.mp stored
      obtain ⟨details, _, stored⟩ := bind_eq_ok.mp stored
      obtain ⟨proposals, _, finished⟩ := bind_eq_ok.mp stored
      cases finished
      exact keepsPower_of_addMetric store.ledgers _
  | proposalQueued proposalId etaSeconds =>
      rw [isEvent] at handled
      obtain ⟨proposalQueueds, _, finished⟩ := bind_eq_ok.mp handled
      cases finished
      exact ⟨rfl, rfl, rfl⟩
  | proposalExecuted proposalId =>
      rw [isEvent] at handled
      obtain ⟨proposalExecuteds, _, finished⟩ := bind_eq_ok.mp handled
      cases finished
      exact ⟨rfl, rfl, rfl⟩
  | proposalCanceled proposalId =>
      rw [isEvent] at handled
      obtain ⟨proposalCanceleds, _, finished⟩ := bind_eq_ok.mp handled
      cases finished
      exact ⟨rfl, rfl, rfl⟩
  | voteCast event =>
      rw [isEvent] at handled
      obtain ⟨voteCasts, _, stored⟩ := bind_eq_ok.mp handled
      have keeps := keepsPower_of_vote stored
      exact keeps
  | voteCastWithParams event params =>
      rw [isEvent] at handled
      obtain ⟨voteCastsWithParams, _, stored⟩ := bind_eq_ok.mp handled
      have keeps := keepsPower_of_vote stored
      exact keeps

end GovernorHandler

section Invariant

variable {created : List Nat} {store next : IndexerStore}

/-- The rows of proposals are those of the ids that have been created. -/
structure Recorded (created : List Nat) (store : IndexerStore) : Prop
    extends Tallied store where
  stored : ∀ proposalId ∈ created, ∃ proposal ∈ store.proposals.values,
    proposal.proposalId = GovernorHandler.stdProposalId proposalId
  known : ∀ proposal ∈ store.proposals.values, ∃ proposalId ∈ created,
    proposal.proposalId = GovernorHandler.stdProposalId proposalId
  one : ∀ first ∈ store.proposals.values, ∀ second ∈ store.proposals.values,
    first.proposalId = second.proposalId → first = second

theorem recorded_empty : Recorded [] .empty where
  proposals := by
    intro proposal member
    cases member
  referred := by
    intro vote member
    cases member
  global := by
    intro metric
    cases metric with
    | votesCount => rfl
    | votesWithParamsCount => rfl
    | votesWithoutParamsCount => rfl
    | votesWeightForSum => rfl
    | votesWeightAgainstSum => rfl
    | votesWeightAbstainSum => rfl
  proposalsCount := rfl
  stored := by
    intro proposalId member
    cases member
  known := by
    intro proposal member
    cases member
  one := by
    intro first member
    cases member

theorem Recorded.of_leavesTallies (recorded : Recorded created store)
    (leaves : GovernorHandler.LeavesTallies store next) :
    Recorded created next where
  proposals := by
    rw [leaves.proposals, leaves.voteCastGroups]
    exact recorded.proposals
  referred := by
    rw [leaves.proposals, leaves.voteCastGroups]
    exact recorded.referred
  global := by
    rw [leaves.proposals, leaves.metric]
    exact recorded.global
  proposalsCount := by
    rw [leaves.proposals, leaves.proposalsCount]
    exact recorded.proposalsCount
  stored := by
    rw [leaves.proposals]
    exact recorded.stored
  known := by
    rw [leaves.proposals]
    exact recorded.known
  one := by
    rw [leaves.proposals]
    exact recorded.one

section Creation

variable {proposal : Proposal} {proposalId : Nat}

/-- No row has the id of a proposal that has not been created. -/
theorem Recorded.unknown (recorded : Recorded created store)
    (fresh : proposalId ∉ created) {row : Proposal}
    (member : row ∈ store.proposals.values) :
    row.proposalId ≠ GovernorHandler.stdProposalId proposalId := by
  intro same
  obtain ⟨known, isCreated, isNamed⟩ := recorded.known row member
  have isKnown :=
    GovernorHandler.stdProposalId_injective (isNamed.symm.trans same)
  rw [isKnown] at isCreated
  exact fresh isCreated

theorem mem_values_save_of_free
    (free : store.proposals.find proposal.id = none) {row : Proposal} :
    row ∈ (store.proposals.save proposal).values ↔
      row = proposal ∨ row ∈ store.proposals.values := by
  rw [Keyed.mem_values_save]
  constructor
  · exact Or.imp_right And.right
  · apply Or.imp_right
    intro member
    refine ⟨?_, member⟩
    intro sameKey
    rw [Keyed.mem_values, sameKey, free] at member
    cases member

theorem Recorded.tallied_of_createsProposal (recorded : Recorded created store)
    (fresh : proposalId ∉ created)
    (creates : GovernorHandler.CreatesProposal store proposalId next) :
    Tallied next := by
  obtain ⟨proposal, named, zero, free, saved⟩ := creates.saved
  constructor
  · intro row member metric
    rw [saved, mem_values_save_of_free free] at member
    rw [creates.voteCastGroups]
    rcases member with rfl | old
    · rw [zero, Keyed.sum_eq_zero]
      intro vote found
      obtain ⟨referred, isStored, _, refers⟩ :=
        recorded.referred vote ((Keyed.mem_values _).mpr found)
      apply if_neg
      rw [refers, named]
      exact recorded.unknown fresh isStored
    · exact recorded.proposals row old metric
  · intro vote member
    rw [creates.voteCastGroups] at member
    obtain ⟨referred, isStored, linked⟩ := recorded.referred vote member
    refine ⟨referred, ?_, linked⟩
    rw [saved, mem_values_save_of_free free]
    exact .inr isStored
  · intro metric
    rw [creates.metrics, saved, Keyed.sum_save, Keyed.worthAt_of_none _ free,
      zero, sub_zero, add_zero]
    exact recorded.global metric
  · rw [creates.proposalsCount, saved, Keyed.size_save, free,
      recorded.proposalsCount]
    rfl

theorem Recorded.of_createsProposal (recorded : Recorded created store)
    (fresh : proposalId ∉ created)
    (creates : GovernorHandler.CreatesProposal store proposalId next) :
    Recorded (created ++ [proposalId]) next := by
  have tallied := recorded.tallied_of_createsProposal fresh creates
  obtain ⟨proposal, named, _, free, saved⟩ := creates.saved
  have members {row : Proposal} : row ∈ next.proposals.values ↔
      row = proposal ∨ row ∈ store.proposals.values := by
    rw [saved]
    exact mem_values_save_of_free free
  refine ⟨tallied, ?_, ?_, ?_⟩
  · intro id member
    rcases List.mem_append.mp member with old | new
    · obtain ⟨row, isStored, isNamed⟩ := recorded.stored id old
      exact ⟨row, members.mpr (.inr isStored), isNamed⟩
    · rw [List.mem_singleton.mp new]
      exact ⟨proposal, members.mpr (.inl rfl), named⟩
  · intro row member
    rcases members.mp member with rfl | old
    · exact ⟨proposalId, List.mem_append_right _ List.mem_cons_self, named⟩
    · obtain ⟨id, isCreated, isNamed⟩ := recorded.known row old
      exact ⟨id, List.mem_append_left _ isCreated, isNamed⟩
  · intro first firstMember second secondMember same
    rcases members.mp firstMember with rfl | firstOld
    · rcases members.mp secondMember with rfl | secondOld
      · rfl
      · exact absurd (same.symm.trans named) (recorded.unknown fresh secondOld)
    · rcases members.mp secondMember with rfl | secondOld
      · exact absurd (same.trans named) (recorded.unknown fresh firstOld)
      · exact recorded.one first firstOld second secondOld same

end Creation

section Votes

variable {choice : RowChoice Proposal} {proposal : Proposal}
  {vote : VoteCastGroup} {proposalId : Nat}

theorem Recorded.findProposal (recorded : Recorded created store)
    (choice : RowChoice Proposal) (isCreated : proposalId ∈ created) :
    ∃ proposal ∈ store.proposals.values,
      proposal.proposalId = GovernorHandler.stdProposalId proposalId ∧
      GovernorHandler.findProposal choice store
        (GovernorHandler.stdProposalId proposalId) = some proposal := by
  obtain ⟨stored, isStored, isNamed⟩ := recorded.stored proposalId isCreated
  cases found : GovernorHandler.findProposal choice store
      (GovernorHandler.stdProposalId proposalId) with
  | none =>
      have nothing := choice.none_only _ found
      rw [List.filter_eq_nil_iff] at nothing
      exact absurd (decide_eq_true isNamed) (nothing stored isStored)
  | some proposal =>
      have member := choice.member _ _ found
      rw [List.mem_filter] at member
      exact ⟨proposal, member.1, of_decide_eq_true member.2, rfl⟩

theorem Recorded.mem_values_countVote (recorded : Recorded created store)
    (isStored : proposal ∈ store.proposals.values) (vote : VoteCastGroup)
    {row : Proposal} :
    row ∈ (store.proposals.save
        (GovernorHandler.countVote proposal vote)).values ↔
      row = GovernorHandler.countVote proposal vote ∨
        row.proposalId ≠ proposal.proposalId ∧
          row ∈ store.proposals.values := by
  rw [Keyed.mem_values_save]
  constructor
  · apply Or.imp_right
    rintro ⟨different, old⟩
    refine ⟨?_, old⟩
    intro same
    rw [recorded.one row old proposal isStored same] at different
    exact different rfl
  · apply Or.imp_right
    rintro ⟨different, old⟩
    refine ⟨?_, old⟩
    intro sameKey
    have present := (Keyed.mem_values store.proposals).mp isStored
    have found := (Keyed.mem_values store.proposals).mp old
    rw [sameKey] at found
    cases present.symm.trans found
    exact different rfl

theorem Recorded.kept_countVote (recorded : Recorded created store)
    (isStored : proposal ∈ store.proposals.values) (vote : VoteCastGroup)
    {row : Proposal} (member : row ∈ store.proposals.values) :
    ∃ again ∈ (store.proposals.save
        (GovernorHandler.countVote proposal vote)).values,
      again.id = row.id ∧ again.proposalId = row.proposalId := by
  by_cases same : row.proposalId = proposal.proposalId
  · rw [recorded.one row member proposal isStored same]
    exact ⟨_, (recorded.mem_values_countVote isStored vote).mpr (.inl rfl), rfl,
      rfl⟩
  · exact ⟨row, (recorded.mem_values_countVote isStored vote).mpr
      (.inr ⟨same, member⟩), rfl, rfl⟩

theorem Recorded.tallied_of_countsVote (recorded : Recorded created store)
    (counts : GovernorHandler.CountsVote choice store vote next)
    (isStored : proposal ∈ store.proposals.values)
    (named : proposal.proposalId = vote.refProposalId)
    (found : GovernorHandler.findProposal choice store vote.refProposalId =
      some proposal) :
    Tallied next := by
  obtain ⟨saved, free, grouped⟩ := counts.saved proposal found
  have present := (Keyed.mem_values store.proposals).mp isStored
  have sums (id : String) (metric : VoteMetric) :
      (next.voteCastGroups.sum fun row => row.worthFor id metric) =
        (store.voteCastGroups.sum fun row => row.worthFor id metric) +
          vote.worthFor id metric := by
    rw [grouped, Keyed.sum_save, Keyed.worthAt_of_none _ free, sub_zero]
    rfl
  constructor
  · intro row member metric
    rw [saved, recorded.mem_values_countVote isStored] at member
    rw [sums]
    rcases member with rfl | ⟨different, old⟩
    · rw [GovernorHandler.metric_countVote,
        recorded.proposals proposal isStored metric]
      congr 1
      exact (if_pos named.symm).symm
    · rw [VoteCastGroup.worthFor, if_neg, add_zero]
      · exact recorded.proposals row old metric
      · intro same
        exact different (same.symm.trans named.symm)
  · intro row member
    rw [grouped, Keyed.mem_values_save] at member
    rw [saved]
    rcases member with rfl | ⟨_, old⟩
    · obtain ⟨again, isNext, sameId, sameProposalId⟩ :=
        recorded.kept_countVote isStored vote isStored
      exact ⟨again, isNext, congrArg some sameId.symm,
        (sameProposalId.trans named).symm⟩
    · obtain ⟨referred, isReferred, isLinked, isNamed⟩ :=
        recorded.referred row old
      obtain ⟨again, isNext, sameId, sameProposalId⟩ :=
        recorded.kept_countVote isStored vote isReferred
      exact ⟨again, isNext, isLinked.trans (congrArg some sameId.symm),
        isNamed.trans sameProposalId.symm⟩
  · intro metric
    have before := recorded.global metric
    have after : (store.proposals.save
          (GovernorHandler.countVote proposal vote)).sum
            (fun row : Proposal => row.metric metric) =
        (store.proposals.sum fun row => row.metric metric) -
          proposal.metric metric +
            (GovernorHandler.countVote proposal vote).metric metric := by
      rw [Keyed.sum_save]
      congr 2
      exact Keyed.worthAt_of_find _ present
    rw [counts.metrics, saved, after, GovernorHandler.metric_countVote, before]
    omega
  · have size := Keyed.size_save store.proposals
      (GovernorHandler.countVote proposal vote)
    have sameKey : store.proposals.find
        (GovernorHandler.countVote proposal vote).id = some proposal := present
    rw [sameKey] at size
    rw [counts.proposalsCount, saved, size, recorded.proposalsCount]
    rfl

theorem Recorded.of_countsVote (recorded : Recorded created store)
    (isCreated : proposalId ∈ created)
    (refers : vote.refProposalId = GovernorHandler.stdProposalId proposalId)
    (counts : GovernorHandler.CountsVote choice store vote next) :
    Recorded created next := by
  obtain ⟨proposal, isStored, named, found⟩ :=
    recorded.findProposal choice isCreated
  rw [← refers] at named found
  have tallied := recorded.tallied_of_countsVote counts isStored named found
  obtain ⟨saved, _, _⟩ := counts.saved proposal found
  have members {row : Proposal} (member : row ∈ next.proposals.values) := by
    rw [saved] at member
    exact (recorded.mem_values_countVote isStored vote).mp member
  refine ⟨tallied, ?_, ?_, ?_⟩
  · intro id member
    obtain ⟨row, isRow, isNamed⟩ := recorded.stored id member
    obtain ⟨again, isNext, _, sameProposalId⟩ :=
      recorded.kept_countVote isStored vote isRow
    rw [← saved] at isNext
    exact ⟨again, isNext, sameProposalId.trans isNamed⟩
  · intro row member
    rcases members member with rfl | ⟨_, old⟩
    · exact recorded.known proposal isStored
    · exact recorded.known row old
  · intro first firstMember second secondMember same
    rcases members firstMember with rfl | ⟨firstDifferent, firstOld⟩
    · rcases members secondMember with rfl | ⟨secondDifferent, secondOld⟩
      · rfl
      · exact absurd same.symm secondDifferent
    · rcases members secondMember with rfl | ⟨secondDifferent, secondOld⟩
      · exact absurd same firstDifferent
      · exact recorded.one first firstOld second secondOld same

end Votes

end Invariant

section Runs

variable {indexer : Indexer} {store next : IndexerStore}
  {events : List IndexerEvent} {event : IndexerEvent}

theorem Orderly.of_append (orderly : Orderly (events ++ [event])) :
    Orderly events where
  distinct := by
    have distinct := orderly.distinct
    rw [createdProposals_append] at distinct
    exact distinct.of_append_left
  voted := by
    intro ⟨index, isIndex⟩ proposalId voted
    have inside : index < (events ++ [event]).length := by
      rw [List.length_append]
      omega
    have earlier := orderly.voted ⟨index, inside⟩ proposalId
    rw [Fin.getElem_fin, List.getElem_append_left isIndex,
      List.take_append_of_le_length isIndex.le] at earlier
    exact earlier voted

theorem Orderly.voted_last (orderly : Orderly (events ++ [event]))
    {proposalId : Nat} (voted : event.votedOn = some proposalId) :
    proposalId ∈ createdProposals events := by
  have inside : events.length < (events ++ [event]).length := by
    rw [List.length_append]
    exact Nat.lt_succ_self _
  have earlier := orderly.voted ⟨events.length, inside⟩ proposalId
  rw [Fin.getElem_fin, List.getElem_concat_length rfl, List.take_left]
    at earlier
  exact earlier voted

theorem Orderly.fresh (orderly : Orderly (events ++ [event]))
    {proposalId : Nat}
    (creates : event.created = some proposalId) :
    proposalId ∉ createdProposals events := by
  intro member
  have distinct := orderly.distinct
  rw [createdProposals_append, creates] at distinct
  exact List.disjoint_of_nodup_append distinct member List.mem_cons_self

private theorem leavesTallies_of_other
    (indexes : indexer.Indexes store event next)
    (other : event.governorEvent = none) :
    GovernorHandler.LeavesTallies store next := by
  cases event with
  | governor log => cases other
  | token contract log =>
      obtain ⟨ledgers, booked, finished⟩ := bind_eq_ok.mp indexes
      cases finished
      exact .of_columns rfl rfl (TokenHandler.governorColumns_of_handle
        (mapError_eq_ok.mp booked))
  | attestation log =>
      cases indexes
      exact .of_columns rfl rfl (AttestationHandler.governorColumns_handle _ _)

theorem Recorded.of_indexes (orderly : Orderly (events ++ [event]))
    (recorded : Recorded (createdProposals events) store)
    (indexes : indexer.Indexes store event next) :
    Recorded (createdProposals (events ++ [event])) next := by
  have unchanged (none : event.created = none)
      (leaves : GovernorHandler.LeavesTallies store next) :
      Recorded (createdProposals (events ++ [event])) next := by
    rw [createdProposals_append, none, Option.toList_none, List.append_nil]
    exact recorded.of_leavesTallies leaves
  cases event with
  | token contract log =>
      exact unchanged rfl (leavesTallies_of_other indexes rfl)
  | attestation log =>
      exact unchanged rfl (leavesTallies_of_other indexes rfl)
  | governor log =>
      rcases GovernorHandler.handle_cases indexes with
        ⟨proposalId, created, _, creates⟩ |
          ⟨vote, proposalId, none, votedOn, refers, counts⟩ |
          ⟨none, _, leaves⟩
      · have isCreated : (IndexerEvent.governor log).created =
          some proposalId := created
        rw [createdProposals_append, isCreated]
        exact recorded.of_createsProposal (orderly.fresh created) creates
      · have notCreated : (IndexerEvent.governor log).created = Option.none :=
          none
        rw [createdProposals_append, notCreated, Option.toList_none,
          List.append_nil]
        exact recorded.of_countsVote (orderly.voted_last votedOn) refers counts
      · exact unchanged none leaves

theorem recorded_of_run (run : Runs.Run indexer.Indexes .empty events store)
    (orderly : Orderly events) :
    Recorded (createdProposals events) store := by
  induction run with
  | start => exact recorded_empty
  | extend _ indexes ih =>
      exact Recorded.of_indexes orderly (ih orderly.of_append) indexes

theorem tallied_of_orderly (orderly : Orderly events)
    (run : Runs.Run indexer.Indexes .empty events store) :
    Tallied store ∧
      ∀ log next, indexer.Indexes store (.governor log) next →
        GovernorHandler.KeepsPower store.ledgers next.ledgers := by
  refine ⟨(recorded_of_run run orderly).toTallied, ?_⟩
  intro log next indexes
  exact GovernorHandler.keepsPower_of_handle indexes

end Runs

section Samples

def sampleContract (name : ContractName) (number : Nat) : IndexerContract :=
  ⟨name, TokenHandler.sampleAccount number, none⟩

def sampleIndexer : Indexer where
  options :=
    { work :=
        ⟨"dao", [sampleContract .governor 1, sampleContract .governorToken 2]⟩
      indexContract := sampleContract .governor 1
      lookUp := fun _ _ _ => .ok ⟨0, 0, .blockNumber, 4, 18, "title", "12"⟩ }
  proposalChoice := .first _
  rollingChoice := .first _

def sampleLog {Event : Type} (id : String) (event : Event) : EvmLog Event :=
  ⟨id, 1, 1, id, event⟩

def sampleCreated (id : String) (proposalId : Nat) : IndexerEvent :=
  .governor (sampleLog id (.proposalCreated
    ⟨proposalId, TokenHandler.sampleAccount 5, [TokenHandler.sampleAccount 6],
      [1], ["f()"], ["0x"], 2, 3, "text"⟩))

def sampleVote (id : String) (proposalId support weight : Nat) :
    IndexerEvent :=
  .governor (sampleLog id (.voteCast
    ⟨TokenHandler.sampleAccount 7, proposalId, support, weight, "reason"⟩))

/-- Two proposals and three votes between events of a token and of a stake. -/
def sampleEvents : List IndexerEvent :=
  [.token (sampleContract .governorToken 2)
      (sampleLog "1" (.delegateChanged (TokenHandler.sampleAccount 5)
        zeroAddress (TokenHandler.sampleAccount 7))),
    sampleCreated "2" 26,
    sampleVote "3" 26 1 5,
    .attestation (sampleLog "4" (.attesterRegistered
      (TokenHandler.sampleAccount 8) 10 0)),
    sampleCreated "5" 27,
    .governor (sampleLog "6" (.voteCastWithParams
      ⟨TokenHandler.sampleAccount 8, 27, 0, 3, "reason"⟩ "0x01")),
    sampleVote "7" 26 2 4]

theorem tallied_of_orderly_sampleEvents :
    ∃ store,
      Runs.Run sampleIndexer.Indexes .empty sampleEvents store ∧
      store.ledgers.dataMetric = some ⟨some 2, some 3, some 1, some 2, some 5,
        some 3, some 4, some 10, some 2⟩ ∧
      Tallied store ∧
      ∀ log next, sampleIndexer.Indexes store (.governor log) next →
        GovernorHandler.KeepsPower store.ledgers next.ledgers := by
  have followed : (Runs.follow (fun _ _ => True)
      (fun store event => (sampleIndexer.handle store event).toOption)
      IndexerStore.empty sampleEvents).any fun store =>
        store.ledgers.dataMetric = some ⟨some 2, some 3, some 1, some 2,
          some 5, some 3, some 4, some 10, some 2⟩ := by
    decide +kernel
  obtain ⟨store, reached, isTallied⟩ := (Option.any_eq_true _ _).mp followed
  have run : Runs.Run sampleIndexer.Indexes .empty sampleEvents store := by
    apply (Runs.Run.of_follow _ reached).unrestrict
    intro store event next handled
    cases isHandled : sampleIndexer.handle store event with
    | error error =>
        rw [isHandled] at handled
        cases handled
    | ok result =>
        rw [isHandled] at handled
        cases handled
        exact isHandled
  exact ⟨store, run, of_decide_eq_true isTallied,
    tallied_of_orderly ⟨by decide, by decide⟩ run⟩

end Samples

end Degov
