import Igra.Kaswallet.StoreRuns
import Mathlib.Data.List.ReduceOption

/-!
# Tracked transactions across a sync

`update_utxo_set` rebuilds the store from the node and then replays the
wallet's own transactions whose inputs are still there.  A transaction that
the node lists as sending has just had its inputs excluded from the rebuilt
store, so it is dropped, and its outputs are known from the node's mempool
only.
-/

open Kaspa Rust

namespace Kaswallet.UtxoManager

variable {upstream : Upstream} {addresses : AddressSet}
  {manager next : UtxoManager} {transaction : WalletSignableTransaction}
  {utxo : WalletUtxo} {outpoint : WalletOutpoint}

section Frame

private theorem lookup_of_removeUtxo {removed : WalletOutpoint}
    (found : (manager.removeUtxo removed).utxosByOutpoint.lookup outpoint =
      some utxo) :
    manager.utxosByOutpoint.lookup outpoint = some utxo := by
  unfold removeUtxo at found
  split at found
  · by_cases same : outpoint = removed
    · subst same
      rw [AList.lookup_erase] at found
      cases found
    · rwa [AList.lookup_erase_ne same] at found
  · exact found

private theorem lookup_of_removeInputs {tx : Transaction}
    (found : (manager.removeInputs tx).utxosByOutpoint.lookup outpoint =
      some utxo) :
    manager.utxosByOutpoint.lookup outpoint = some utxo := by
  unfold removeInputs at found
  generalize tx.inputs = inputs at found
  induction inputs generalizing manager with
  | nil => exact found
  | cons input inputs ih => exact lookup_of_removeUtxo (ih found)

private theorem lookup_of_applyOutputs
    {outputs : List (TransactionOutput × Nat)}
    (applied : outputs.foldlM (applyOutput upstream addresses transaction)
      manager = .ok next)
    (foreign : outpoint.transactionId ≠
      upstream.transactionId transaction.tx)
    (found : next.utxosByOutpoint.lookup outpoint = some utxo) :
    manager.utxosByOutpoint.lookup outpoint = some utxo := by
  induction outputs generalizing manager with
  | nil =>
      cases applied
      exact found
  | cons indexed outputs ih =>
      rw [List.foldlM_cons, Outcome.bind_eq_ok] at applied
      obtain ⟨middle, first, rest⟩ := applied
      have later := ih rest
      obtain ⟨address, _, skipped | stored⟩ := applyOutput_eq_ok.mp first
      · rw [skipped.2] at later
        exact later
      · obtain ⟨walletAddress, _, rfl⟩ := stored
        have other : outpoint ≠ ⟨upstream.transactionId transaction.tx,
            UInt32.ofNat indexed.2⟩ := by
          rintro rfl
          exact foreign rfl
        rwa [insertUtxo, AList.lookup_insert_ne other] at later

/-- Adding a transaction touches no outpoint of another transaction, except
that it removes its inputs. -/
theorem lookup_of_addMempoolTransaction
    (added : addMempoolTransaction upstream addresses manager transaction =
      .ok next)
    (foreign : outpoint.transactionId ≠
      upstream.transactionId transaction.tx)
    (found : next.utxosByOutpoint.lookup outpoint = some utxo) :
    manager.utxosByOutpoint.lookup outpoint = some utxo := by
  have beforeOutputs := lookup_of_applyOutputs added foreign found
  have beforeInputs := lookup_of_removeInputs beforeOutputs
  exact beforeInputs

private theorem mem_of_addMempoolTransaction
    (added : addMempoolTransaction upstream addresses manager transaction =
      .ok next)
    (foreign : outpoint.transactionId ≠
      upstream.transactionId transaction.tx)
    (member : outpoint ∈ next.utxosByOutpoint) :
    outpoint ∈ manager.utxosByOutpoint := by
  obtain ⟨stored, found⟩ := Option.isSome_iff_exists.mp
    (AList.lookup_isSome.mpr member)
  exact AList.lookup_isSome.mp
    (by simp [lookup_of_addMempoolTransaction added foreign found])

/-- What each replayed transaction preserves holds after the replay. -/
theorem replay_preserves {invariant : UtxoManager → Prop}
    {transactions : List WalletSignableTransaction}
    (replayed : replay upstream addresses transactions manager = .ok next)
    (initially : invariant manager)
    (preserved : ∀ transaction ∈ transactions, ∀ current applied,
      invariant current → current.containsInputs transaction.tx = true →
      addMempoolTransaction upstream addresses current transaction =
        .ok applied →
      invariant applied) :
    invariant next := by
  induction transactions generalizing manager with
  | nil =>
      cases replayed
      exact initially
  | cons transaction rest ih =>
      have later : ∀ transaction ∈ rest, ∀ current applied,
          invariant current →
          current.containsInputs transaction.tx = true →
          addMempoolTransaction upstream addresses current transaction =
            .ok applied →
          invariant applied :=
        fun other member => preserved other (List.mem_cons_of_mem _ member)
      unfold replay at replayed
      split at replayed
      · rename_i present
        obtain ⟨applied, added, continued⟩ :=
          Outcome.bind_eq_ok.mp replayed
        exact ih continued
          (preserved transaction List.mem_cons_self _ _ initially present
            added) later
      · exact ih replayed initially later

end Frame

section NodeListing

/-- How the node's mempool shows a wallet transaction: its inputs, its outputs
with the addresses they pay, and its id. -/
def rpcTransactionOf (upstream : Upstream)
    (transaction : WalletSignableTransaction) : RpcTransaction where
  inputs := transaction.tx.inputs.map fun input =>
    .ofTransactionOutpoint input.previousOutpoint
  outputs := (transaction.tx.outputs.zip
    transaction.addressByOutputIndex).map fun paid =>
      ⟨paid.1.value, paid.1.scriptPublicKey,
        some (upstream.addressToString paid.2)⟩
  verboseTransactionId := some (upstream.transactionId transaction.tx)

/-- The node has the transaction in its mempool and lists it under the wallet's
sending and receiving addresses. -/
structure Listed (upstream : Upstream)
    (mempool : List RpcMempoolEntryByAddress)
    (transaction : WalletSignableTransaction) : Prop where
  sending : ∃ entry ∈ mempool,
    rpcTransactionOf upstream transaction ∈ entry.sending
  receiving : ∃ entry ∈ mempool,
    rpcTransactionOf upstream transaction ∈ entry.receiving

/-- Which tracked transactions consensus has accepted: one of their inputs is
spent, so no view of the node shows it, and whatever tracked transaction
created that input is accepted too. -/
def AcceptedByNode (upstream : Upstream)
    (tracked : List WalletSignableTransaction) (shown : List WalletOutpoint)
    (accepted : WalletSignableTransaction → Prop) : Prop :=
  ∀ transaction ∈ tracked, accepted transaction →
    ∃ input ∈ transaction.tx.inputs,
      WalletOutpoint.ofTransactionOutpoint input.previousOutpoint ∉ shown ∧
      ∀ creator ∈ tracked,
        upstream.transactionId creator.tx =
          input.previousOutpoint.transactionId →
        accepted creator

/-- The inputs of a transaction are confirmed: each tracked transaction that
created one is accepted. -/
def InputsConfirmed (upstream : Upstream)
    (tracked : List WalletSignableTransaction)
    (accepted : WalletSignableTransaction → Prop)
    (transaction : WalletSignableTransaction) : Prop :=
  ∀ input ∈ transaction.tx.inputs, ∀ creator ∈ tracked,
    upstream.transactionId creator.tx =
      input.previousOutpoint.transactionId →
    accepted creator

/-- Tracked transactions with one id spend the same outpoints. -/
def IdsFixInputs (upstream : Upstream)
    (tracked : List WalletSignableTransaction) : Prop :=
  ∀ first ∈ tracked, ∀ second ∈ tracked,
    upstream.transactionId first.tx = upstream.transactionId second.tx →
    first.tx.inputs.map TransactionInput.previousOutpoint =
      second.tx.inputs.map TransactionInput.previousOutpoint

/-- The store has the outpoint and lets it be spent. -/
def Spendable (manager : UtxoManager) (outpoint : WalletOutpoint)
    (virtualDaaScore : UInt64) : Prop :=
  ∃ utxo, manager.utxosByOutpoint.lookup outpoint = some utxo ∧
    manager.isUtxoUnspendable utxo virtualDaaScore = .ok false

variable {rpcUtxoEntries : List RpcUtxosByAddressesEntry}
  {mempool : List RpcMempoolEntryByAddress} {utxos : List WalletUtxo}

/-- The outpoints spent by a transaction that the node lists as sending are
excluded. -/
theorem Listed.excluded (listed : Listed upstream mempool transaction)
    {input : TransactionInput} (member : input ∈ transaction.tx.inputs) :
    .ofTransactionOutpoint input.previousOutpoint ∈
      excludedOutpoints mempool := by
  obtain ⟨entry, inMempool, sent⟩ := listed.sending
  unfold excludedOutpoints
  rw [List.mem_flatMap]
  refine ⟨entry, inMempool, ?_⟩
  rw [List.mem_flatMap]
  exact ⟨_, sent, List.mem_map.mpr ⟨input, member, rfl⟩⟩

private theorem outpoint_of_confirmedUtxo
    {exclude : List WalletOutpoint} {entry : RpcUtxosByAddressesEntry}
    (confirmed : confirmedUtxo addresses exclude entry = .ok (some utxo)) :
    utxo.outpoint ∉ exclude := by
  unfold confirmedUtxo at confirmed
  split at confirmed
  · cases confirmed
  · rename_i kept
    split at confirmed
    · cases confirmed
    · simp only [Outcome.bind_eq_ok, Outcome.pure_eq_ok] at confirmed
      obtain ⟨_, _, _, _, _, _, same⟩ := confirmed
      cases same
      exact kept

private theorem receivedUtxo_eq_some {exclude : List WalletOutpoint}
    {transactionId : TransactionId} {indexed : RpcTransactionOutput × Nat}
    (received : receivedUtxo addresses exclude transactionId indexed =
      some utxo) :
    utxo.outpoint = ⟨transactionId, UInt32.ofNat indexed.2⟩ ∧
      utxo.outpoint ∉ exclude ∧ utxo.utxoEntry.isUnconfirmed = true := by
  simp only [receivedUtxo, Option.bind_eq_bind, Option.bind_eq_some_iff,
    Option.ite_none_left_eq_some] at received
  obtain ⟨_, _, _, _, kept, same⟩ := received
  cases same
  exact ⟨rfl, kept, rfl⟩

private theorem mem_receivedUtxos {exclude : List WalletOutpoint}
    {rpcTransaction : RpcTransaction}
    (member : utxo ∈ receivedUtxos addresses exclude rpcTransaction) :
    utxo.outpoint ∉ exclude ∧ utxo.utxoEntry.isUnconfirmed = true := by
  unfold receivedUtxos at member
  split at member
  · cases member
  · obtain ⟨indexed, _, received⟩ := List.mem_filterMap.mp member
    exact (receivedUtxo_eq_some received).2

/-- The two halves of the collected list: confirmed entries, then entries of
the node's mempool, which are unconfirmed; none is excluded. -/
theorem collectedUtxos_split
    (collected : collectedUtxos addresses rpcUtxoEntries mempool =
      .ok utxos) :
    ∃ confirmed, utxos = confirmed ++
        mempool.flatMap (fun entry => entry.receiving.flatMap
          (receivedUtxos addresses (excludedOutpoints mempool))) ∧
      ∀ utxo ∈ confirmed, utxo.outpoint ∉ excludedOutpoints mempool := by
  simp only [collectedUtxos, Outcome.bind_eq_ok,
    Outcome.pure_eq_ok] at collected
  obtain ⟨confirmed, each, rfl⟩ := collected
  refine ⟨confirmed.reduceOption, rfl, ?_⟩
  intro utxo member
  have kept : some utxo ∈ confirmed := List.reduceOption_mem_iff.mp member
  obtain ⟨entry, _, made⟩ := Outcome.exists_of_mem_collect each kept
  exact outpoint_of_confirmedUtxo made

theorem notMem_excluded_of_collected
    (collected : collectedUtxos addresses rpcUtxoEntries mempool =
      .ok utxos)
    (member : utxo ∈ utxos) :
    utxo.outpoint ∉ excludedOutpoints mempool := by
  obtain ⟨confirmed, rfl, kept⟩ := collectedUtxos_split collected
  rcases List.mem_append.mp member with fromRpc | fromMempool
  · exact kept utxo fromRpc
  · obtain ⟨entry, _, inEntry⟩ := List.mem_flatMap.mp fromMempool
    obtain ⟨rpcTransaction, _, received⟩ := List.mem_flatMap.mp inEntry
    exact (mem_receivedUtxos received).1

theorem mem_walletOutpoints :
    outpoint ∈ walletOutpoints upstream addresses transaction ↔
      ∃ output index address walletAddress,
        transaction.tx.outputs[index]? = some output ∧
        transaction.addressByOutputIndex[index]? = some address ∧
        addresses.lookup (upstream.addressToString address) =
          some walletAddress ∧
        outpoint = ⟨upstream.transactionId transaction.tx,
          UInt32.ofNat index⟩ := by
  simp only [walletOutpoints, List.mem_filterMap, Prod.exists,
    List.mem_zipIdx_iff_getElem?, storedOutpoint, Option.bind_eq_bind,
    Option.bind_eq_some_iff, Option.pure_def, Option.some.injEq]
  constructor
  · rintro ⟨output, index, atIndex, address, paid, walletAddress, own, rfl⟩
    exact ⟨output, index, address, walletAddress, atIndex, paid, own, rfl⟩
  · rintro ⟨output, index, address, walletAddress, atIndex, paid, own, rfl⟩
    exact ⟨output, index, atIndex, address, paid, walletAddress, own, rfl⟩

private theorem exists_received
    {exclude : List WalletOutpoint}
    (own : outpoint ∈ walletOutpoints upstream addresses transaction)
    (kept : outpoint ∉ exclude) :
    ∃ utxo ∈ receivedUtxos addresses exclude
        (rpcTransactionOf upstream transaction),
      utxo.outpoint = outpoint := by
  obtain ⟨output, index, address, walletAddress, atIndex, paid, found, rfl⟩ :=
    mem_walletOutpoints.mp own
  have shown : (rpcTransactionOf upstream transaction).outputs[index]? =
      some ⟨output.value, output.scriptPublicKey,
        some (upstream.addressToString address)⟩ := by
    have zipped : (transaction.tx.outputs.zip
        transaction.addressByOutputIndex)[index]? =
          some (output, address) := by
      rw [List.getElem?_zip_eq_some]
      exact ⟨atIndex, paid⟩
    simp [rpcTransactionOf, zipped]
  refine ⟨⟨⟨upstream.transactionId transaction.tx, UInt32.ofNat index⟩,
    ⟨output.value, output.scriptPublicKey, 0, false, true⟩, walletAddress⟩,
    ?_, rfl⟩
  apply List.mem_filterMap.mpr
  refine ⟨(_, index), List.mem_zipIdx_iff_getElem?.mpr shown, ?_⟩
  simp [receivedUtxo, found, kept]

/-- After the rebuild, an own output of a listed transaction is at best known
as unconfirmed. -/
private theorem unconfirmed_of_rebuild (store : UtxoManager)
    (collected : collectedUtxos addresses rpcUtxoEntries mempool =
      .ok utxos)
    (listed : Listed upstream mempool transaction)
    (own : outpoint ∈ walletOutpoints upstream addresses transaction)
    (found : (store.rebuild utxos).utxosByOutpoint.lookup outpoint =
      some utxo) :
    utxo.utxoEntry.isUnconfirmed = true := by
  have keep : outpoint ∉ excludedOutpoints mempool := by
    rcases HashMap.lookup_insertAll found with ⟨member, rfl⟩ | ⟨_, absent⟩
    · exact notMem_excluded_of_collected collected member
    · cases absent
  obtain ⟨confirmed, rfl, _⟩ := collectedUtxos_split collected
  simp only [rebuild, HashMap.insertAll, List.foldl_append] at found
  rcases HashMap.lookup_insertAll found with ⟨member, _⟩ | ⟨absent, _⟩
  · obtain ⟨entry, _, inEntry⟩ := List.mem_flatMap.mp member
    obtain ⟨rpcTransaction, _, received⟩ := List.mem_flatMap.mp inEntry
    exact (mem_receivedUtxos received).2
  · obtain ⟨entry, inMempool, received⟩ := listed.receiving
    obtain ⟨stored, ingested, same⟩ := exists_received own keep
    exfalso
    apply absent
    rw [← same]
    apply List.mem_map_of_mem
    exact List.mem_flatMap.mpr ⟨entry, inMempool,
      List.mem_flatMap.mpr ⟨_, received, ingested⟩⟩

end NodeListing

section Sync

variable {rpcUtxoEntries : List RpcUtxosByAddressesEntry}
  {mempool : List RpcMempoolEntryByAddress} {utxos : List WalletUtxo}
  {accepted : WalletSignableTransaction → Prop}

/-- What the replay preserves: a listed transaction and the accepted ones each
miss an input, and the outpoint under observation is known as unconfirmed at
best. -/
private structure Blocked (upstream : Upstream)
    (tracked : List WalletSignableTransaction)
    (accepted : WalletSignableTransaction → Prop)
    (transaction : WalletSignableTransaction) (outpoint : WalletOutpoint)
    (manager : UtxoManager) : Prop where
  listedMissing : ∀ input ∈ transaction.tx.inputs,
    .ofTransactionOutpoint input.previousOutpoint ∉ manager.utxosByOutpoint
  acceptedMissing : ∀ other ∈ tracked, accepted other →
    ∃ input ∈ other.tx.inputs,
      WalletOutpoint.ofTransactionOutpoint input.previousOutpoint ∉
        manager.utxosByOutpoint ∧
      ∀ creator ∈ tracked,
        upstream.transactionId creator.tx =
          input.previousOutpoint.transactionId →
        accepted creator
  unconfirmed : ∀ utxo,
    manager.utxosByOutpoint.lookup outpoint = some utxo →
    utxo.utxoEntry.isUnconfirmed = true

private theorem mem_of_containsInputs {tx : Transaction}
    (present : manager.containsInputs tx = true)
    {input : TransactionInput} (member : input ∈ tx.inputs) :
    .ofTransactionOutpoint input.previousOutpoint ∈
      manager.utxosByOutpoint := by
  have each := List.all_eq_true.mp present input member
  simpa [containsUtxo] using each

private theorem Blocked.step
    {tracked : List WalletSignableTransaction}
    {replayed : WalletSignableTransaction}
    (blocked : Blocked upstream tracked accepted transaction outpoint manager)
    (transactionTracked : transaction ∈ tracked)
    (spends : transaction.tx.inputs ≠ [])
    (ids : IdsFixInputs upstream tracked)
    (confirmed : InputsConfirmed upstream tracked accepted transaction)
    (own : outpoint.transactionId = upstream.transactionId transaction.tx)
    (replayedTracked : replayed ∈ tracked)
    (present : manager.containsInputs replayed.tx = true)
    (added : addMempoolTransaction upstream addresses manager replayed =
      .ok next) :
    Blocked upstream tracked accepted transaction outpoint next := by
  have notAccepted : ¬accepted replayed := by
    intro isAccepted
    obtain ⟨input, member, missing, _⟩ :=
      blocked.acceptedMissing replayed replayedTracked isAccepted
    exact missing (mem_of_containsInputs present member)
  have otherId : upstream.transactionId transaction.tx ≠
      upstream.transactionId replayed.tx := by
    intro same
    have inputs := ids transaction transactionTracked replayed
      replayedTracked same
    obtain ⟨input, member⟩ := List.exists_mem_of_ne_nil _ spends
    have shared : input.previousOutpoint ∈
        replayed.tx.inputs.map TransactionInput.previousOutpoint :=
      inputs ▸ List.mem_map_of_mem member
    obtain ⟨twin, twinMember, same⟩ := List.mem_map.mp shared
    have stored := mem_of_containsInputs present twinMember
    rw [same] at stored
    exact blocked.listedMissing input member stored
  have stillMissing {input : TransactionInput}
      (missing : WalletOutpoint.ofTransactionOutpoint
        input.previousOutpoint ∉ manager.utxosByOutpoint)
      (creators : ∀ creator ∈ tracked,
        upstream.transactionId creator.tx =
          input.previousOutpoint.transactionId →
        accepted creator) :
      WalletOutpoint.ofTransactionOutpoint
        input.previousOutpoint ∉ next.utxosByOutpoint := by
    intro stored
    apply missing
    apply mem_of_addMempoolTransaction added _ stored
    intro created
    exact notAccepted (creators replayed replayedTracked created.symm)
  refine ⟨?_, ?_, ?_⟩
  · intro input member
    exact stillMissing (blocked.listedMissing input member)
      (confirmed input member)
  · intro other otherTracked isAccepted
    obtain ⟨input, member, missing, creators⟩ :=
      blocked.acceptedMissing other otherTracked isAccepted
    exact ⟨input, member, stillMissing missing creators, creators⟩
  · intro utxo found
    exact blocked.unconfirmed utxo
      (lookup_of_addMempoolTransaction added (own ▸ otherId) found)

/-- After a sync in which the node lists a tracked transaction, none of its own
outputs can be spent. -/
theorem not_spendable_after_sync
    (tracked : transaction ∈ manager.mempoolTransactions)
    (spends : transaction.tx.inputs ≠ [])
    (ids : IdsFixInputs upstream manager.mempoolTransactions)
    (listed : Listed upstream mempool transaction)
    (collected : collectedUtxos addresses rpcUtxoEntries mempool =
      .ok utxos)
    (spent : AcceptedByNode upstream manager.mempoolTransactions
      (utxos.map WalletUtxo.outpoint) accepted)
    (confirmed : InputsConfirmed upstream manager.mempoolTransactions
      accepted transaction)
    (replayed : applyMempoolTransactionsAfterUpdate upstream addresses
      (manager.rebuild utxos) = .ok next)
    (own : outpoint ∈ walletOutpoints upstream addresses transaction)
    (virtualDaaScore : UInt64) :
    ¬next.Spendable outpoint virtualDaaScore := by
  have ofTransaction : outpoint.transactionId =
      upstream.transactionId transaction.tx := by
    obtain ⟨_, _, _, _, _, _, _, rfl⟩ := mem_walletOutpoints.mp own
    rfl
  have absent {other : WalletOutpoint}
      (notShown : other ∉ utxos.map WalletUtxo.outpoint) :
      other ∉ (manager.rebuild utxos).utxosByOutpoint := by
    intro member
    rcases HashMap.mem_insertAll.mp member with shown | old
    · exact notShown shown
    · exact AList.notMem_empty _ old
  have initially : Blocked upstream manager.mempoolTransactions accepted
      transaction outpoint
      { manager.rebuild utxos with mempoolTransactions := [] } := by
    refine ⟨?_, ?_, ?_⟩
    · intro input member
      apply absent
      intro shown
      obtain ⟨utxo, inUtxos, same⟩ := List.mem_map.mp shown
      have kept := notMem_excluded_of_collected collected inUtxos
      rw [same] at kept
      exact kept (listed.excluded member)
    · intro other otherTracked isAccepted
      obtain ⟨input, member, hidden, creators⟩ :=
        spent other otherTracked isAccepted
      exact ⟨input, member, absent hidden, creators⟩
    · intro utxo found
      exact unconfirmed_of_rebuild manager collected listed own found
  have finish := replay_preserves replayed initially
    fun other otherTracked current applied blocked present added =>
      blocked.step tracked spends ids confirmed ofTransaction otherTracked
        present added
  rintro ⟨utxo, found, spendable⟩
  have unconfirmed := finish.unconfirmed utxo found
  simp [isUtxoUnspendable, isUtxoUnspendableWith, unconfirmed] at spendable

/-- Own change stays spendable across a sync that lists its transaction only
when there is none: the property holds exactly for transactions that pay no
wallet address. -/
theorem spendable_after_sync_iff
    (accepted : WalletSignableTransaction → Prop)
    (tracked : transaction ∈ manager.mempoolTransactions)
    (spends : transaction.tx.inputs ≠ [])
    (ids : IdsFixInputs upstream manager.mempoolTransactions)
    (listed : Listed upstream mempool transaction)
    (spent : (collectedUtxos addresses rpcUtxoEntries mempool).WhenOk
      fun utxos => AcceptedByNode upstream manager.mempoolTransactions
        (utxos.map WalletUtxo.outpoint) accepted)
    (confirmed : InputsConfirmed upstream manager.mempoolTransactions
      accepted transaction)
    (updated : manager.updateUtxoSet upstream addresses rpcUtxoEntries
      mempool = .ok next)
    (virtualDaaScore : UInt64) :
    (∀ outpoint ∈ walletOutpoints upstream addresses transaction,
        next.Spendable outpoint virtualDaaScore) ↔
      walletOutpoints upstream addresses transaction = [] := by
  obtain ⟨utxos, collected, replayed⟩ := Outcome.bind_eq_ok.mp updated
  constructor
  · intro spendable
    by_contra paysWallet
    obtain ⟨outpoint, own⟩ := List.exists_mem_of_ne_nil _ paysWallet
    exact not_spendable_after_sync tracked spends ids listed collected
      (spent utxos collected) confirmed replayed own virtualDaaScore
      (spendable outpoint own)
  · intro none outpoint own
    rw [none] at own
    cases own

end Sync

section ListedPayment

/-- The node's mempool after `ownPayment` was submitted. -/
def paymentListing : List RpcMempoolEntryByAddress :=
  [⟨[rpcTransactionOf devnet ownPayment],
    [rpcTransactionOf devnet ownPayment]⟩]

def changeOutpoint : WalletOutpoint :=
  ⟨devnet.transactionId ownPayment.tx, 1⟩

theorem paymentListing_lists : Listed devnet paymentListing ownPayment where
  sending := ⟨_, List.mem_singleton_self _, List.mem_singleton_self _⟩
  receiving := ⟨_, List.mem_singleton_self _, List.mem_singleton_self _⟩

/-- The store after a sync and the payment, and after the sync that lists
it. -/
private theorem listedPayment_returns :
    ((StoreCall.updateUtxoSet ownAddresses [confirmedEntry] []).perform
      devnet (.new 100)).Returns fun synced =>
    ((StoreCall.addMempoolTransaction ownAddresses ownPayment).perform
      devnet synced).Returns fun paid =>
    paid.mempoolTransactions = [ownPayment] ∧
    (paid.updateUtxoSet devnet ownAddresses [confirmedEntry]
      paymentListing).Returns fun listed =>
    listed.utxosByOutpoint.lookup changeOutpoint = some
      ⟨changeOutpoint,
        ⟨150, devnet.payToAddressScript ownAddress, 0, false, true⟩,
        ⟨1, 0, .external⟩⟩ := by
  unfold ownPayment confirmedEntry paymentListing ownAddresses
  rw [devnet_eq_quick]
  decide +kernel

/-- The wallet's own change cannot be spent once the node lists the payment,
although the payment is tracked and its input is confirmed. -/
theorem listedPayment_change_unspendable :
    ∃ manager next utxo,
      Runs.Run (StoreStep devnet) (.new 100)
        [.updateUtxoSet ownAddresses [confirmedEntry] [],
          .addMempoolTransaction ownAddresses ownPayment] manager ∧
      ownPayment ∈ manager.mempoolTransactions ∧
      Listed devnet paymentListing ownPayment ∧
      manager.updateUtxoSet devnet ownAddresses [confirmedEntry]
        paymentListing = .ok next ∧
      changeOutpoint ∈ walletOutpoints devnet ownAddresses ownPayment ∧
      next.utxosByOutpoint.lookup changeOutpoint = some utxo ∧
      ∀ virtualDaaScore,
        next.isUtxoUnspendable utxo virtualDaaScore = .ok true := by
  obtain ⟨synced, first, paid, second, tracked, listed, updated, found⟩ :=
    listedPayment_returns
  refine ⟨paid, listed, _,
    .extend (.extend .start (.returned first)) (.returned second),
    by simp [tracked], paymentListing_lists, updated, by decide +kernel,
    found, ?_⟩
  intro virtualDaaScore
  rfl

theorem spendable_after_sync_iff_ownPayment :
    ∃ manager next : UtxoManager,
      manager.updateUtxoSet devnet ownAddresses [confirmedEntry]
        paymentListing = .ok next ∧
      ((∀ outpoint ∈ walletOutpoints devnet ownAddresses ownPayment,
          next.Spendable outpoint 20) ↔
        walletOutpoints devnet ownAddresses ownPayment = []) := by
  obtain ⟨synced, first, paid, second, tracked, listed, updated, found⟩ :=
    listedPayment_returns
  refine ⟨paid, listed, updated, spendable_after_sync_iff
    (fun _ => False) (by simp [tracked]) (by decide) ?_ paymentListing_lists
    ?_ ?_ updated 20⟩
  · rw [tracked]
    simp [IdsFixInputs]
  · intro utxos _ transaction _ isAccepted
    exact isAccepted.elim
  · rw [tracked]
    intro input member creator isOwn created
    obtain rfl := List.mem_singleton.mp isOwn
    revert input
    decide +kernel

end ListedPayment

end Kaswallet.UtxoManager
