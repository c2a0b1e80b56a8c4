import Igra.Kaswallet.UtxoManager
import Mathlib.Data.List.Perm.Lattice

/-!
# The two views of the UTXO store agree

The sorted vector and the map of `UtxoManager` hold the same UTXOs, and the
vector stays sorted, as long as every call brings in outpoints the store does
not have yet.  Inserting a present outpoint overwrites the map entry but adds
a second vector entry, which a later removal does not clean up.
-/

open Kaspa Rust

namespace Kaswallet.UtxoManager

/-- The representation invariant of the store.  `keyed` is what makes it
inductive: a removal looks an outpoint up in the map and then searches the
vector for it. -/
structure Consistent (manager : UtxoManager) : Prop where
  sorted : manager.utxosSortedByAmount.Pairwise
    fun left right => left.amount ≤ right.amount
  distinct : (manager.utxosSortedByAmount.map WalletUtxo.outpoint).Nodup
  agree : manager.utxosSortedByAmount.Perm
    (HashMap.values manager.utxosByOutpoint)
  keyed : HashMap.Keyed WalletUtxo.outpoint manager.utxosByOutpoint

theorem consistent_new (coinbaseMaturity : UInt64) :
    (new coinbaseMaturity).Consistent where
  sorted := List.Pairwise.nil
  distinct := List.nodup_nil
  agree := List.Perm.refl _
  keyed := HashMap.keyed_empty _

/-- A listed UTXO is the one its outpoint is mapped to. -/
theorem Consistent.mem_iff_lookup {manager : UtxoManager}
    (consistent : manager.Consistent) {utxo : WalletUtxo} :
    utxo ∈ manager.utxosSortedByAmount ↔
      manager.utxosByOutpoint.lookup utxo.outpoint = some utxo := by
  rw [consistent.agree.mem_iff, consistent.keyed.lookup_iff]
  simp

section Removal

variable {manager : UtxoManager} {outpoint : WalletOutpoint}

@[simp] theorem mem_removeUtxo {other : WalletOutpoint} :
    other ∈ (manager.removeUtxo outpoint).utxosByOutpoint ↔
      other ≠ outpoint ∧ other ∈ manager.utxosByOutpoint := by
  unfold removeUtxo
  split
  · exact AList.mem_erase
  · rename_i absent
    constructor
    · intro member
      refine ⟨?_, member⟩
      rintro rfl
      exact absent member
    · exact And.right

@[simp] theorem mempoolTransactions_removeUtxo :
    (manager.removeUtxo outpoint).mempoolTransactions =
      manager.mempoolTransactions := by
  unfold removeUtxo
  split <;> rfl

theorem Consistent.removeUtxo (consistent : manager.Consistent) :
    (manager.removeUtxo outpoint).Consistent := by
  unfold UtxoManager.removeUtxo
  split
  · rename_i member
    obtain ⟨utxo, found⟩ := Option.isSome_iff_exists.mp
      (AList.lookup_isSome.mpr member)
    have key := (consistent.keyed.lookup_iff.mp found).2
    have searched :
        (manager.utxosSortedByAmount.eraseP
          fun existing => decide (existing.outpoint = outpoint)).Perm
        (HashMap.values (manager.utxosByOutpoint.erase outpoint)) := by
      have apart : manager.utxosSortedByAmount.Pairwise fun left right =>
          decide (left.outpoint = outpoint) = true →
          decide (right.outpoint = outpoint) = true → False := by
        apply (List.pairwise_map.mp consistent.distinct).imp
        intro left right different atLeft atRight
        rw [decide_eq_true_eq] at atLeft atRight
        exact different (atLeft.trans atRight.symm)
      have erased := List.Perm.eraseP _ apart
        (consistent.agree.trans (HashMap.values_perm_erase found))
      rw [List.eraseP_cons_of_pos (by simpa using key)] at erased
      exact erased
    exact
      { sorted := consistent.sorted.sublist List.eraseP_sublist
        distinct := consistent.distinct.sublist
          (List.eraseP_sublist.map WalletUtxo.outpoint)
        agree := searched
        keyed := consistent.keyed.erase outpoint }
  · exact consistent

theorem Consistent.removeInputs (tx : Transaction)
    (consistent : manager.Consistent) :
    (manager.removeInputs tx).Consistent := by
  unfold UtxoManager.removeInputs
  induction tx.inputs generalizing manager with
  | nil => exact consistent
  | cons input inputs ih => exact ih consistent.removeUtxo

theorem mem_removeInputs {tx : Transaction} {other : WalletOutpoint} :
    other ∈ (manager.removeInputs tx).utxosByOutpoint ↔
      (∀ input ∈ tx.inputs,
        other ≠ .ofTransactionOutpoint input.previousOutpoint) ∧
      other ∈ manager.utxosByOutpoint := by
  unfold removeInputs
  induction tx.inputs generalizing manager with
  | nil => simp
  | cons input inputs ih =>
      rw [List.foldl_cons, ih, mem_removeUtxo, List.forall_mem_cons]
      tauto

theorem mempoolTransactions_removeInputs (tx : Transaction) :
    (manager.removeInputs tx).mempoolTransactions =
      manager.mempoolTransactions := by
  unfold removeInputs
  induction tx.inputs generalizing manager with
  | nil => rfl
  | cons input inputs ih =>
      rw [List.foldl_cons, ih, mempoolTransactions_removeUtxo]

end Removal

section Insertion

variable {manager : UtxoManager} {utxo : WalletUtxo}

@[simp] theorem mem_insertUtxo {outpoint other : WalletOutpoint} :
    other ∈ (manager.insertUtxo outpoint utxo).utxosByOutpoint ↔
      other = outpoint ∨ other ∈ manager.utxosByOutpoint :=
  AList.mem_insert _

/-- Inserting an outpoint the store does not have keeps the invariant. -/
theorem Consistent.insertUtxo (consistent : manager.Consistent)
    (fresh : utxo.outpoint ∉ manager.utxosByOutpoint) :
    (manager.insertUtxo utxo.outpoint utxo).Consistent := by
  have splits := binarySearchBy_splitsAt WalletUtxo.amount utxo.amount
    consistent.sorted
  have permutation :
      (manager.insertUtxo utxo.outpoint utxo).utxosSortedByAmount.Perm
        (utxo :: manager.utxosSortedByAmount) :=
    List.perm_insertIdx _ _ splits.bound
  refine
    { sorted := splits.insertIdx_sorted consistent.sorted
      distinct := ?_
      agree := ?_
      keyed := consistent.keyed.insert utxo }
  · rw [(permutation.map WalletUtxo.outpoint).nodup_iff, List.map_cons,
      List.nodup_cons]
    refine ⟨?_, consistent.distinct⟩
    intro listed
    obtain ⟨other, member, same⟩ := List.mem_map.mp listed
    have found := consistent.mem_iff_lookup.mp member
    rw [same] at found
    exact fresh (AList.lookup_isSome.mp (by simp [found]))
  · apply permutation.trans
    show (utxo :: manager.utxosSortedByAmount).Perm
      (HashMap.values (manager.utxosByOutpoint.insert utxo.outpoint utxo))
    rw [HashMap.values_insert, HashMap.values_erase_of_notMem fresh]
    exact consistent.agree.cons utxo

end Insertion

section Rebuild

private theorem sortByAmount_perm (utxos : List WalletUtxo) :
    (sortByAmount utxos).Perm utxos :=
  List.perm_insertionSort _ _

private theorem sortByAmount_sorted (utxos : List WalletUtxo) :
    (sortByAmount utxos).Pairwise
      fun left right => left.amount ≤ right.amount := by
  have : Std.Total fun left right : WalletUtxo =>
      left.amount ≤ right.amount :=
    ⟨fun left right => le_total left.amount right.amount⟩
  have : IsTrans WalletUtxo fun left right => left.amount ≤ right.amount :=
    ⟨fun _ _ _ first second => le_trans first second⟩
  exact List.pairwise_insertionSort _ utxos

theorem consistent_rebuild (manager : UtxoManager) {utxos : List WalletUtxo}
    (distinct : (utxos.map WalletUtxo.outpoint).Nodup) :
    (manager.rebuild utxos).Consistent where
  sorted := sortByAmount_sorted utxos
  distinct := ((sortByAmount_perm utxos).map _).nodup_iff.mpr distinct
  agree := by
    have stored := HashMap.values_insertAll_perm ∅ distinct
      (fun _ _ => AList.notMem_empty _)
    rw [HashMap.values_empty, List.append_nil] at stored
    exact (sortByAmount_perm utxos).trans stored.symm
  keyed := (HashMap.keyed_empty _).insertAll utxos

end Rebuild

section OwnTransactions

variable (upstream : Upstream) (addresses : AddressSet)

/-- The outpoint under which the store keeps an output of a wallet
transaction, if the output pays the wallet. -/
def storedOutpoint (transaction : WalletSignableTransaction)
    (indexed : TransactionOutput × Nat) : Option WalletOutpoint := do
  let address ← transaction.addressByOutputIndex[indexed.2]?
  let _ ← addresses.lookup (upstream.addressToString address)
  pure ⟨upstream.transactionId transaction.tx, UInt32.ofNat indexed.2⟩

/-- The outputs of a wallet transaction that pay the wallet. -/
def walletOutpoints
    (transaction : WalletSignableTransaction) : List WalletOutpoint :=
  transaction.tx.outputs.zipIdx.filterMap
    (storedOutpoint upstream addresses transaction)

/-- No output that the transaction adds is in the store once its inputs are
removed, and no two of them share an outpoint. -/
def AddsFresh (manager : UtxoManager)
    (transaction : WalletSignableTransaction) : Prop :=
  (walletOutpoints upstream addresses transaction).Nodup ∧
    ∀ outpoint ∈ walletOutpoints upstream addresses transaction,
      outpoint ∉ (manager.removeInputs transaction.tx).utxosByOutpoint

/-- Each transaction that the replay adds is fresh at its turn. -/
def ReplaysFresh : List WalletSignableTransaction → UtxoManager → Prop
  | [], _ => True
  | transaction :: rest, manager =>
      if manager.containsInputs transaction.tx then
        AddsFresh upstream addresses manager transaction ∧
          (addMempoolTransaction upstream addresses manager
            transaction).WhenOk (ReplaysFresh rest)
      else ReplaysFresh rest manager

instance (manager : UtxoManager) (transaction : WalletSignableTransaction) :
    Decidable (AddsFresh upstream addresses manager transaction) :=
  inferInstanceAs (Decidable (_ ∧ _))

instance decidableReplaysFresh :
    (transactions : List WalletSignableTransaction) →
    (manager : UtxoManager) →
    Decidable (ReplaysFresh upstream addresses transactions manager)
  | [], _ => isTrue trivial
  | transaction :: rest, manager =>
      have := decidableReplaysFresh rest
      inferInstanceAs (Decidable
        (if manager.containsInputs transaction.tx then
          AddsFresh upstream addresses manager transaction ∧
            (addMempoolTransaction upstream addresses manager
              transaction).WhenOk (ReplaysFresh upstream addresses rest)
        else ReplaysFresh upstream addresses rest manager))

variable {upstream addresses} {manager next : UtxoManager}
  {transaction : WalletSignableTransaction}

theorem applyOutput_eq_ok {indexed : TransactionOutput × Nat} :
    applyOutput upstream addresses transaction manager indexed = .ok next ↔
      ∃ address, transaction.addressByOutputIndex[indexed.2]? =
          some address ∧
        ((addresses.lookup (upstream.addressToString address) = none ∧
            next = manager) ∨
          ∃ walletAddress,
            addresses.lookup (upstream.addressToString address) =
              some walletAddress ∧
            next = manager.insertUtxo
              ⟨upstream.transactionId transaction.tx,
                UInt32.ofNat indexed.2⟩
              (ownUtxo ⟨upstream.transactionId transaction.tx,
                UInt32.ofNat indexed.2⟩ indexed.1 walletAddress)) := by
  simp only [applyOutput, Outcome.bind_eq_ok, Outcome.index_eq_ok]
  apply exists_congr
  intro address
  apply and_congr_right
  intro _
  cases addresses.lookup (upstream.addressToString address) with
  | none => simp [eq_comm (a := next)]
  | some walletAddress => simp [eq_comm (a := next)]

/-- One output: either it does not pay the wallet and nothing changes, or it
is stored under its outpoint. -/
theorem applyOutput_cases {indexed : TransactionOutput × Nat}
    (applied : applyOutput upstream addresses transaction manager indexed =
      .ok next) :
    (storedOutpoint upstream addresses transaction indexed = none ∧
        next = manager) ∨
      ∃ utxo, storedOutpoint upstream addresses transaction indexed =
          some utxo.outpoint ∧
        next = manager.insertUtxo utxo.outpoint utxo := by
  obtain ⟨address, atIndex, foreign | own⟩ := applyOutput_eq_ok.mp applied
  · left
    simp [storedOutpoint, atIndex, foreign.1, foreign.2]
  · right
    obtain ⟨walletAddress, found, rfl⟩ := own
    refine ⟨ownUtxo _ indexed.1 walletAddress, ?_, rfl⟩
    simp [storedOutpoint, atIndex, found, ownUtxo]

private theorem consistent_of_applyOutputs
    {outputs : List (TransactionOutput × Nat)}
    (applied : outputs.foldlM (applyOutput upstream addresses transaction)
      manager = .ok next)
    (consistent : manager.Consistent)
    (distinct : (outputs.filterMap
      (storedOutpoint upstream addresses transaction)).Nodup)
    (fresh : ∀ outpoint ∈ outputs.filterMap
        (storedOutpoint upstream addresses transaction),
      outpoint ∉ manager.utxosByOutpoint) :
    next.Consistent := by
  induction outputs generalizing manager with
  | nil =>
      cases applied
      exact consistent
  | cons indexed outputs ih =>
      rw [List.foldlM_cons, Outcome.bind_eq_ok] at applied
      obtain ⟨middle, first, rest⟩ := applied
      rcases applyOutput_cases first with ⟨foreign, rfl⟩ | ⟨utxo, own, rfl⟩
      · rw [List.filterMap_cons_none foreign] at distinct fresh
        exact ih rest consistent distinct fresh
      · rw [List.filterMap_cons_some own] at distinct fresh
        obtain ⟨apart, distinctRest⟩ := List.nodup_cons.mp distinct
        apply ih rest
          (consistent.insertUtxo (fresh _ List.mem_cons_self)) distinctRest
        intro outpoint member
        rw [mem_insertUtxo, not_or]
        refine ⟨?_, fresh outpoint (List.mem_cons_of_mem _ member)⟩
        rintro rfl
        exact apart member

theorem Consistent.addMempoolTransaction
    (consistent : manager.Consistent)
    (fresh : AddsFresh upstream addresses manager transaction)
    (added : addMempoolTransaction upstream addresses manager transaction =
      .ok next) :
    next.Consistent := by
  have recorded :
      ({ manager with
        mempoolTransactions := manager.mempoolTransactions ++ [transaction] }
        : UtxoManager).Consistent :=
    ⟨consistent.sorted, consistent.distinct, consistent.agree,
      consistent.keyed⟩
  apply consistent_of_applyOutputs added
    (recorded.removeInputs transaction.tx) fresh.1
  intro outpoint member
  have absent := fresh.2 outpoint member
  rw [mem_removeInputs] at absent ⊢
  exact absent

theorem Consistent.replay
    {transactions : List WalletSignableTransaction}
    (consistent : manager.Consistent)
    (fresh : ReplaysFresh upstream addresses transactions manager)
    (replayed : replay upstream addresses transactions manager = .ok next) :
    next.Consistent := by
  induction transactions generalizing manager with
  | nil =>
      cases replayed
      exact consistent
  | cons transaction rest ih =>
      unfold UtxoManager.replay at replayed
      unfold ReplaysFresh at fresh
      split at replayed
      · rename_i present
        rw [if_pos present] at fresh
        obtain ⟨applied, added, continued⟩ :=
          Outcome.bind_eq_ok.mp replayed
        exact ih (consistent.addMempoolTransaction fresh.1 added)
          (fresh.2 applied added) continued
      · rename_i missing
        rw [if_neg missing] at fresh
        exact ih consistent fresh replayed

end OwnTransactions

end Kaswallet.UtxoManager
