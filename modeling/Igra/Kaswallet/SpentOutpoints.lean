import Igra.Kaswallet.MempoolReplay
import Igra.Spending

/-!
# Tracked spends stay spent

The store holds a set of outpoints and a list of submitted transactions.
Adding a transaction applies it to the set; a sync rebuilds the set and
retains, in order, the transactions whose inputs are there at their turn.
-/

open Kaspa Rust

namespace Kaswallet.UtxoManager

variable {upstream : Upstream} {addresses : AddressSet}
  {manager next : UtxoManager} {transaction : WalletSignableTransaction}
  {outpoint : WalletOutpoint}

/-- The outpoints in `utxos_by_outpoint`. -/
def stored (manager : UtxoManager) : Set WalletOutpoint :=
  {outpoint | outpoint ∈ manager.utxosByOutpoint}

/-- The outpoints that a transaction spends. -/
def spentOutpoints (transaction : WalletSignableTransaction) :
    Set WalletOutpoint :=
  {outpoint | ∃ input ∈ transaction.tx.inputs,
    outpoint = .ofTransactionOutpoint input.previousOutpoint}

/-- The outpoints of all outputs of a transaction, whomever they pay. -/
def createdOutpoints (upstream : Upstream)
    (transaction : WalletSignableTransaction) : Set WalletOutpoint :=
  {outpoint | ∃ index < transaction.tx.outputs.length,
    outpoint = ⟨upstream.transactionId transaction.tx, UInt32.ofNat index⟩}

/-- The outputs that the store takes in from a transaction. -/
def paidOutpoints (upstream : Upstream) (addresses : AddressSet)
    (transaction : WalletSignableTransaction) : Set WalletOutpoint :=
  {outpoint | outpoint ∈ walletOutpoints upstream addresses transaction}

theorem paidOutpoints_subset :
    paidOutpoints upstream addresses transaction ⊆
      createdOutpoints upstream transaction := by
  intro outpoint paid
  obtain ⟨output, index, _, _, atIndex, _, _, rfl⟩ :=
    mem_walletOutpoints.mp paid
  exact ⟨index, (List.getElem?_eq_some_iff.mp atIndex).1, rfl⟩

section AddedTransaction

private theorem mem_applyOutputs
    {outputs : List (TransactionOutput × Nat)}
    (applied : outputs.foldlM (applyOutput upstream addresses transaction)
      manager = .ok next) :
    outpoint ∈ next.utxosByOutpoint ↔
      outpoint ∈ manager.utxosByOutpoint ∨
        outpoint ∈ outputs.filterMap
          (storedOutpoint upstream addresses transaction) := by
  induction outputs generalizing manager with
  | nil =>
      cases applied
      simp
  | cons indexed outputs ih =>
      rw [List.foldlM_cons, Outcome.bind_eq_ok] at applied
      obtain ⟨middle, first, rest⟩ := applied
      rw [ih rest]
      rcases applyOutput_cases first with ⟨foreign, rfl⟩ | ⟨utxo, own, rfl⟩
      · rw [List.filterMap_cons_none foreign]
      · rw [List.filterMap_cons_some own, mem_insertUtxo, List.mem_cons]
        tauto

private theorem mempoolTransactions_applyOutputs
    {outputs : List (TransactionOutput × Nat)}
    (applied : outputs.foldlM (applyOutput upstream addresses transaction)
      manager = .ok next) :
    next.mempoolTransactions = manager.mempoolTransactions := by
  induction outputs generalizing manager with
  | nil =>
      cases applied
      rfl
  | cons indexed outputs ih =>
      rw [List.foldlM_cons, Outcome.bind_eq_ok] at applied
      obtain ⟨middle, first, rest⟩ := applied
      rw [ih rest]
      rcases applyOutput_cases first with ⟨_, rfl⟩ | ⟨utxo, _, rfl⟩
      · rfl
      · rfl

/-- Adding a transaction applies it to the stored outpoints. -/
theorem stored_addMempoolTransaction
    (added : addMempoolTransaction upstream addresses manager transaction =
      .ok next) :
    next.stored = Spending.apply spentOutpoints
      (paidOutpoints upstream addresses) manager.stored transaction := by
  ext outpoint
  rw [Spending.mem_apply]
  apply (mem_applyOutputs added).trans
  rw [mem_removeInputs]
  have apart : (∀ input ∈ transaction.tx.inputs,
      outpoint ≠ .ofTransactionOutpoint input.previousOutpoint) ↔
        outpoint ∉ spentOutpoints transaction := by
    simp [spentOutpoints]
  rw [apart, and_comm]
  rfl

theorem mempoolTransactions_addMempoolTransaction
    (added : addMempoolTransaction upstream addresses manager transaction =
      .ok next) :
    next.mempoolTransactions =
      manager.mempoolTransactions ++ [transaction] := by
  rw [mempoolTransactions_applyOutputs added,
    mempoolTransactions_removeInputs]

end AddedTransaction

section Replay

theorem containsInputs_iff :
    manager.containsInputs transaction.tx = true ↔
      spentOutpoints transaction ⊆ manager.stored := by
  simp only [containsInputs, containsUtxo, List.all_eq_true,
    decide_eq_true_eq]
  constructor
  · rintro present outpoint ⟨input, member, rfl⟩
    exact present input member
  · intro present input member
    exact present ⟨input, member, rfl⟩

theorem replay_retains {transactions : List WalletSignableTransaction}
    (replayed : replay upstream addresses transactions manager = .ok next) :
    next.mempoolTransactions = manager.mempoolTransactions ++
        Spending.retained spentOutpoints (paidOutpoints upstream addresses)
          manager.stored transactions ∧
      next.stored = Spending.applyAll spentOutpoints
        (paidOutpoints upstream addresses) manager.stored
        (Spending.retained spentOutpoints (paidOutpoints upstream addresses)
          manager.stored transactions) := by
  induction transactions generalizing manager with
  | nil =>
      cases replayed
      simp [Spending.retained, Spending.applyAll]
  | cons transaction rest ih =>
      unfold replay at replayed
      unfold Spending.retained
      split at replayed
      · rename_i present
        obtain ⟨applied, added, continued⟩ :=
          Outcome.bind_eq_ok.mp replayed
        obtain ⟨tracked, left⟩ := ih continued
        rw [stored_addMempoolTransaction added] at tracked left
        rw [if_pos (containsInputs_iff.mp present), tracked, left,
          mempoolTransactions_addMempoolTransaction added, List.append_assoc]
        exact ⟨rfl, rfl⟩
      · rename_i missing
        rw [if_neg fun present => missing (containsInputs_iff.mpr present)]
        exact ih replayed

private theorem stored_rebuild {utxos : List WalletUtxo} :
    (manager.rebuild utxos).stored =
      {outpoint | outpoint ∈ utxos.map WalletUtxo.outpoint} := by
  ext outpoint
  simp [stored, rebuild, HashMap.mem_insertAll]

/-- A sync retains what can be replayed over the rebuilt set. -/
theorem updateUtxoSet_retains
    {rpcUtxoEntries : List RpcUtxosByAddressesEntry}
    {mempool : List RpcMempoolEntryByAddress} {utxos : List WalletUtxo}
    (collected : collectedUtxos addresses rpcUtxoEntries mempool =
      .ok utxos)
    (updated : manager.updateUtxoSet upstream addresses rpcUtxoEntries
      mempool = .ok next) :
    next.mempoolTransactions =
        Spending.retained spentOutpoints (paidOutpoints upstream addresses)
          {outpoint | outpoint ∈ utxos.map WalletUtxo.outpoint}
          manager.mempoolTransactions ∧
      next.stored = Spending.applyAll spentOutpoints
        (paidOutpoints upstream addresses)
        {outpoint | outpoint ∈ utxos.map WalletUtxo.outpoint}
        next.mempoolTransactions := by
  obtain ⟨fromNode, again, replayed⟩ := Outcome.bind_eq_ok.mp updated
  obtain rfl : utxos = fromNode :=
    Except.ok.inj (collected.symm.trans again)
  obtain ⟨tracked, left⟩ := replay_retains replayed
  have same : ({ manager.rebuild utxos with mempoolTransactions := [] }
      : UtxoManager).stored =
        {outpoint | outpoint ∈ utxos.map WalletUtxo.outpoint} :=
    @stored_rebuild manager utxos
  rw [same, List.nil_append] at tracked
  rw [same] at left
  refine ⟨tracked, ?_⟩
  rw [left, tracked]

end Replay

section Runs

/-- The transactions of the `add_mempool_transaction` calls, in order. -/
def addedTransactions (calls : List StoreCall) :
    List WalletSignableTransaction :=
  calls.filterMap fun call =>
    match call with
    | .addMempoolTransaction _ transaction => some transaction
    | .updateUtxoSet _ _ _ => none

/-- No outpoint that a tracked transaction spends is stored. -/
def SpendsStaySpent (manager : UtxoManager) : Prop :=
  ∀ transaction ∈ manager.mempoolTransactions,
    ∀ input ∈ transaction.tx.inputs,
      .ofTransactionOutpoint input.previousOutpoint ∉ manager.utxosByOutpoint

/-- An outpoint that is in the set rebuilt from the node, or paid by one of
the given transactions, and that none of them spends. -/
def Available (upstream : Upstream) (addresses : AddressSet)
    (utxos : List WalletUtxo) (replayed : Set WalletSignableTransaction)
    (outpoint : WalletOutpoint) : Prop :=
  (outpoint ∈ utxos.map WalletUtxo.outpoint ∨
      ∃ transaction ∈ replayed,
        outpoint ∈ walletOutpoints upstream addresses transaction) ∧
    ∀ transaction ∈ replayed, ∀ input ∈ transaction.tx.inputs,
      outpoint ≠ .ofTransactionOutpoint input.previousOutpoint

/-- Each sync that returns keeps, in their order, exactly the tracked
transactions whose inputs are available once the ones kept before them are
replayed. -/
def SyncsKeepReplayable (upstream : Upstream)
    (manager : UtxoManager) : Prop :=
  ∀ addresses rpcUtxoEntries mempool utxos next,
    collectedUtxos addresses rpcUtxoEntries mempool = .ok utxos →
    manager.updateUtxoSet upstream addresses rpcUtxoEntries mempool =
      .ok next →
    next.mempoolTransactions.Sublist manager.mempoolTransactions ∧
    ∀ front transaction back,
      manager.mempoolTransactions = front ++ transaction :: back →
      (transaction ∈ next.mempoolTransactions ↔
        ∀ input ∈ transaction.tx.inputs,
          Available upstream addresses utxos
            {earlier | earlier ∈ front ∧ earlier ∈ next.mempoolTransactions}
            (.ofTransactionOutpoint input.previousOutpoint))

/-- What a run keeps: the tracked transactions are among the added ones, in
order, and their inputs are not stored. -/
private structure Tracks (added : List WalletSignableTransaction)
    (manager : UtxoManager) : Prop where
  order : manager.mempoolTransactions.Sublist added
  spent : ∀ transaction ∈ manager.mempoolTransactions,
    Disjoint (spentOutpoints transaction) manager.stored

private theorem Tracks.addMempoolTransaction
    {added : List WalletSignableTransaction}
    (tracks : Tracks added manager)
    (ordered : Spending.Ordered spentOutpoints (createdOutpoints upstream)
      (added ++ [transaction]))
    (performed : manager.addMempoolTransaction upstream addresses
      transaction = .ok next) :
    Tracks (added ++ [transaction]) next := by
  have order : (manager.mempoolTransactions ++ [transaction]).Sublist
      (added ++ [transaction]) :=
    tracks.order.append (List.Sublist.refl _)
  constructor
  · rw [mempoolTransactions_addMempoolTransaction performed]
    exact order
  · intro other member
    rw [mempoolTransactions_addMempoolTransaction performed] at member
    rw [stored_addMempoolTransaction performed, Set.disjoint_left]
    intro outpoint spent stored
    rcases Spending.mem_apply.mp stored with ⟨before, unspent⟩ | paid
    · rcases List.mem_append.mp member with earlier | last
      · exact Set.disjoint_left.mp (tracks.spent other earlier) spent before
      · exact unspent (List.mem_singleton.mp last ▸ spent)
    · exact (ordered.sublist order).notMem_spends_of_pays
        (paidOutpoints_subset paid) other member spent

private theorem Tracks.updateUtxoSet
    {added : List WalletSignableTransaction}
    {rpcUtxoEntries : List RpcUtxosByAddressesEntry}
    {mempool : List RpcMempoolEntryByAddress}
    (tracks : Tracks added manager)
    (ordered : Spending.Ordered spentOutpoints (createdOutpoints upstream)
      added)
    (performed : manager.updateUtxoSet upstream addresses rpcUtxoEntries
      mempool = .ok next) :
    Tracks added next := by
  obtain ⟨utxos, collected, _⟩ := Outcome.bind_eq_ok.mp performed
  obtain ⟨tracked, left⟩ := updateUtxoSet_retains collected performed
  have order : next.mempoolTransactions.Sublist added := by
    rw [tracked]
    exact Spending.retained_sublist.trans tracks.order
  refine ⟨order, ?_⟩
  intro other member
  rw [left, Set.disjoint_left]
  intro outpoint spent stored
  have paidOrdered := (ordered.sublist order).mono
    fun transaction => @paidOutpoints_subset upstream addresses transaction
  exact ((Spending.mem_applyAll paidOrdered).mp stored).2 other member spent

private theorem tracks_of_run {coinbaseMaturity : UInt64}
    {calls : List StoreCall}
    (run : Runs.Run (StoreStep upstream) (.new coinbaseMaturity) calls
      manager)
    (ordered : Spending.Ordered spentOutpoints (createdOutpoints upstream)
      (addedTransactions calls)) :
    Tracks (addedTransactions calls) manager := by
  induction run with
  | start =>
      constructor
      · exact List.Sublist.refl []
      · intro transaction member
        cases member
  | @extend calls manager next call earlier taken ih =>
      have split : addedTransactions (calls ++ [call]) =
          addedTransactions calls ++ addedTransactions [call] :=
        List.filterMap_append
      rw [split] at ordered ⊢
      have prefixed : (addedTransactions calls).Sublist
          (addedTransactions calls ++ addedTransactions [call]) :=
        List.sublist_append_left _ _
      have tracks := ih (ordered.sublist prefixed)
      cases taken with
      | refused _ => exact ⟨tracks.order.trans prefixed, tracks.spent⟩
      | returned performed =>
          cases call with
          | addMempoolTransaction addresses transaction =>
              exact tracks.addMempoolTransaction ordered performed
          | updateUtxoSet addresses rpcUtxoEntries mempool =>
              rw [show addedTransactions [.updateUtxoSet addresses
                rpcUtxoEntries mempool] = [] from rfl,
                List.append_nil] at ordered ⊢
              exact tracks.updateUtxoSet ordered performed

/-- Tracked spends stay spent, and each sync keeps the transactions that can
be replayed, in every state reached by adding transactions with distinct ids
of which none spends an output of a later one.  None spends an output of its
own either: an id is a hash over the inputs. -/
theorem spends_stay_spent {coinbaseMaturity : UInt64}
    {calls : List StoreCall}
    (run : Runs.Run (StoreStep upstream) (.new coinbaseMaturity) calls
      manager)
    (distinct : ((addedTransactions calls).map fun transaction =>
      upstream.transactionId transaction.tx).Nodup)
    (ordered : Spending.Ordered spentOutpoints (createdOutpoints upstream)
      (addedTransactions calls)) :
    manager.SpendsStaySpent ∧ manager.SyncsKeepReplayable upstream := by
  have tracks := tracks_of_run run ordered
  constructor
  · intro transaction tracked input member stored
    exact Set.disjoint_left.mp (tracks.spent transaction tracked)
      ⟨input, member, rfl⟩ stored
  · intro addresses rpcUtxoEntries mempool utxos next collected updated
    obtain ⟨kept, _⟩ := updateUtxoSet_retains collected updated
    refine ⟨kept ▸ Spending.retained_sublist, ?_⟩
    intro front transaction back split
    have nodup : (front ++ transaction :: back).Nodup :=
      split ▸ (distinct.of_map _).sublist tracks.order
    have paidOrdered : Spending.Ordered spentOutpoints
        (paidOutpoints upstream addresses) front := by
      have whole := ordered.sublist tracks.order
      rw [split] at whole
      exact (whole.sublist (List.sublist_append_left _ _)).mono
        fun _ => paidOutpoints_subset
    have sameMembers (earlier : WalletSignableTransaction) :
        earlier ∈ Spending.retained spentOutpoints
            (paidOutpoints upstream addresses)
            {outpoint | outpoint ∈ utxos.map WalletUtxo.outpoint} front ↔
          earlier ∈ front ∧ earlier ∈ next.mempoolTransactions := by
      rw [kept, split]
      constructor
      · intro retained
        have early := Spending.retained_sublist.subset retained
        exact ⟨early, (Spending.mem_retained_front nodup early).mpr retained⟩
      · rintro ⟨early, retained⟩
        exact (Spending.mem_retained_front nodup early).mp retained
    have available (outpoint : WalletOutpoint) :
        outpoint ∈ Spending.applyAll spentOutpoints
            (paidOutpoints upstream addresses)
            {outpoint | outpoint ∈ utxos.map WalletUtxo.outpoint}
            (Spending.retained spentOutpoints
              (paidOutpoints upstream addresses)
              {outpoint | outpoint ∈ utxos.map WalletUtxo.outpoint}
              front) ↔
          Available upstream addresses utxos
            {earlier | earlier ∈ front ∧ earlier ∈ next.mempoolTransactions}
            outpoint := by
      rw [Spending.mem_applyAll
        (paidOrdered.sublist Spending.retained_sublist)]
      simp only [sameMembers]
      simp [Available, spentOutpoints, paidOutpoints]
    have atTurn : transaction ∈ next.mempoolTransactions ↔ _ :=
      kept ▸ split ▸ Spending.mem_retained nodup
    rw [atTurn]
    constructor
    · intro covered input member
      exact (available _).mp (covered ⟨input, member, rfl⟩)
    · rintro covered outpoint ⟨input, member, rfl⟩
      exact (available _).mpr (covered input member)

end Runs

section ChainedPayments

/-- A payment that spends the change of `ownPayment`. -/
def chainedPayment : WalletSignableTransaction where
  transaction := .fully
    { tx := .new 0
        [⟨⟨devnet.transactionId ownPayment.tx, 1⟩, [], 0, .sigOpCount 1⟩]
        [.new 100 (devnet.payToAddressScript foreignAddress)]
        0 SubnetworkId.native 0 []
      entries := [some
        ⟨150, devnet.payToAddressScript ownAddress, 0, false, none⟩]
      calculatedFee := none
      calculatedNonContextualMasses := none }
  derivationPaths := []
  addressByInputIndex := [⟨1, 0, .external⟩]
  addressByOutputIndex := [foreignAddress]

def chainedCalls : List StoreCall :=
  [.updateUtxoSet ownAddresses [confirmedEntry] [],
    .addMempoolTransaction ownAddresses ownPayment,
    .addMempoolTransaction ownAddresses chainedPayment,
    .updateUtxoSet ownAddresses [confirmedEntry] []]

/-- Both payments are still tracked after the sync, the parent first. -/
theorem spends_stay_spent_chained :
    ∃ manager,
      Runs.Run (StoreStep devnet) (.new 100) chainedCalls manager ∧
      manager.mempoolTransactions = [ownPayment, chainedPayment] ∧
      manager.SpendsStaySpent ∧ manager.SyncsKeepReplayable devnet := by
  have performed :
      ((StoreCall.updateUtxoSet ownAddresses [confirmedEntry] []).perform
        devnet (.new 100)).Returns fun first =>
      ((StoreCall.addMempoolTransaction ownAddresses ownPayment).perform
        devnet first).Returns fun second =>
      ((StoreCall.addMempoolTransaction ownAddresses chainedPayment).perform
        devnet second).Returns fun third =>
      ((StoreCall.updateUtxoSet ownAddresses [confirmedEntry] []).perform
        devnet third).Returns fun last =>
      last.mempoolTransactions = [ownPayment, chainedPayment] := by
    decide +kernel
  obtain ⟨first, synced, second, paid, third, chained, last, replayed,
    tracked⟩ := performed
  have run : Runs.Run (StoreStep devnet) (.new 100) chainedCalls last :=
    .extend (.extend (.extend (.extend .start (.returned synced))
      (.returned paid)) (.returned chained)) (.returned replayed)
  have distinct : (([ownPayment, chainedPayment]).map fun transaction =>
      devnet.transactionId transaction.tx).Nodup := by
    decide +kernel
  have foreign : ∀ spender ∈ [ownPayment, chainedPayment],
      ∀ input ∈ spender.tx.inputs,
        input.previousOutpoint.transactionId ≠
          devnet.transactionId chainedPayment.tx := by
    decide +kernel
  have unspent : ∀ input ∈ ownPayment.tx.inputs,
      input.previousOutpoint.transactionId ≠
        devnet.transactionId ownPayment.tx := by
    decide +kernel
  have apart {spender creator : WalletSignableTransaction}
      (other : ∀ input ∈ spender.tx.inputs,
        input.previousOutpoint.transactionId ≠
          devnet.transactionId creator.tx) :
      Disjoint (spentOutpoints spender) (createdOutpoints devnet creator) := by
    rw [Set.disjoint_left]
    rintro outpoint ⟨input, member, rfl⟩ ⟨index, _, same⟩
    exact other input member (congrArg WalletOutpoint.transactionId same)
  refine ⟨last, run, tracked, spends_stay_spent run distinct ⟨?_, ?_⟩⟩
  · intro transaction member
    rcases List.mem_pair.mp member with rfl | rfl
    · exact apart unspent
    · exact apart (foreign chainedPayment (by simp))
  · apply List.pairwise_pair.mpr
    exact apart (foreign ownPayment (by simp))

end ChainedPayments

end Kaswallet.UtxoManager
