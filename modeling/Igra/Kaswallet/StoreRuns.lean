import Igra.Kaspa.Devnet
import Igra.Kaswallet.GetBalance
import Igra.Kaswallet.UtxoStore
import Igra.Runs

/-!
# Runs of the UTXO store

The store is driven by two calls, `add_mempool_transaction` after a submitted
transaction and `update_utxo_set` at each sync.  A call that returns an error
leaves the store as it was; a call that panics ends the run.
-/

open Kaspa Rust

namespace Kaswallet

/-- A call of the store, with the address book it finds. -/
inductive StoreCall where
  | addMempoolTransaction (addresses : AddressSet)
      (transaction : WalletSignableTransaction)
  | updateUtxoSet (addresses : AddressSet)
      (rpcUtxoEntries : List RpcUtxosByAddressesEntry)
      (mempool : List RpcMempoolEntryByAddress)

namespace StoreCall

def perform (upstream : Upstream) (manager : UtxoManager) :
    StoreCall → WalletResult UtxoManager
  | .addMempoolTransaction addresses transaction =>
      manager.addMempoolTransaction upstream addresses transaction
  | .updateUtxoSet addresses rpcUtxoEntries mempool =>
      manager.updateUtxoSet upstream addresses rpcUtxoEntries mempool

/-- The call brings in no outpoint twice and none that the store has at that
moment: the collected entries have distinct outpoints, and an added or
replayed transaction pays the wallet at outpoints the store does not have. -/
def Fresh (upstream : Upstream) (manager : UtxoManager) : StoreCall → Prop
  | .addMempoolTransaction addresses transaction =>
      manager.AddsFresh upstream addresses transaction
  | .updateUtxoSet addresses rpcUtxoEntries mempool =>
      (UtxoManager.collectedUtxos addresses rpcUtxoEntries mempool).WhenOk
        fun utxos =>
          (utxos.map WalletUtxo.outpoint).Nodup ∧
            UtxoManager.ReplaysFresh upstream addresses
              manager.mempoolTransactions
              { manager.rebuild utxos with mempoolTransactions := [] }

instance (upstream : Upstream) (manager : UtxoManager) :
    (call : StoreCall) → Decidable (call.Fresh upstream manager)
  | .addMempoolTransaction addresses transaction =>
      inferInstanceAs
        (Decidable (manager.AddsFresh upstream addresses transaction))
  | .updateUtxoSet _ _ _ => inferInstanceAs (Decidable (Outcome.WhenOk _ _))

end StoreCall

inductive StoreStep (upstream : Upstream) :
    UtxoManager → StoreCall → UtxoManager → Prop where
  | returned {manager next : UtxoManager} {call : StoreCall} :
      call.perform upstream manager = .ok next →
      StoreStep upstream manager call next
  | refused {manager : UtxoManager} {call : StoreCall} {error : WalletError} :
      call.perform upstream manager = Outcome.err error →
      StoreStep upstream manager call manager

namespace UtxoManager

variable {upstream : Upstream}

theorem Consistent.updateUtxoSet {addresses : AddressSet}
    {manager next : UtxoManager}
    {rpcUtxoEntries : List RpcUtxosByAddressesEntry}
    {mempool : List RpcMempoolEntryByAddress}
    (fresh : (StoreCall.updateUtxoSet addresses rpcUtxoEntries mempool).Fresh
      upstream manager)
    (updated : manager.updateUtxoSet upstream addresses rpcUtxoEntries
      mempool = .ok next) :
    next.Consistent := by
  obtain ⟨utxos, collected, replayed⟩ := Outcome.bind_eq_ok.mp updated
  obtain ⟨distinct, replays⟩ := fresh utxos collected
  have rebuilt := consistent_rebuild manager distinct
  have cleared :
      ({ manager.rebuild utxos with mempoolTransactions := [] }
        : UtxoManager).Consistent :=
    ⟨rebuilt.sorted, rebuilt.distinct, rebuilt.agree, rebuilt.keyed⟩
  exact cleared.replay replays replayed

/-- A fresh call keeps the invariant. -/
theorem Consistent.step {manager next : UtxoManager} {call : StoreCall}
    (consistent : manager.Consistent)
    (fresh : call.Fresh upstream manager)
    (step : StoreStep upstream manager call next) : next.Consistent := by
  cases step with
  | refused _ => exact consistent
  | returned performed =>
      cases call with
      | addMempoolTransaction addresses transaction =>
          exact consistent.addMempoolTransaction fresh performed
      | updateUtxoSet addresses rpcUtxoEntries mempool =>
          exact Consistent.updateUtxoSet fresh performed

/-- Every balance the store can answer with is the sum of the amounts in the
map. -/
def BalanceMatches (upstream : Upstream) (manager : UtxoManager) : Prop :=
  ∀ isSynced dagInfo iteration addressManager includeBalancePerAddress
    response book,
    getBalance upstream isSynced dagInfo iteration manager addressManager
        includeBalancePerAddress = .ok (response, book) →
      response.available.toNat + response.pending.toNat =
        ((HashMap.values manager.utxosByOutpoint).map
          fun utxo => utxo.amount.toNat).sum

theorem Consistent.balanceMatches {manager : UtxoManager}
    (consistent : manager.Consistent) : manager.BalanceMatches upstream := by
  intro isSynced dagInfo iteration addressManager perAddress response book
    answered
  rw [getBalance_total answered]
  exact (consistent.agree.map fun utxo => utxo.amount.toNat).sum_eq

/-- In every run whose calls bring in only new outpoints, the two views of
the store agree in every state reached, and so does the balance. -/
theorem consistent_of_fresh_run {coinbaseMaturity : UInt64}
    {calls : List StoreCall} {manager : UtxoManager}
    (run : Runs.Run
      (Runs.restrict (fun state call => call.Fresh upstream state)
        (StoreStep upstream))
      (UtxoManager.new coinbaseMaturity) calls manager) :
    manager.Consistent ∧ manager.BalanceMatches upstream := by
  have consistent : manager.Consistent :=
    run.preserves (consistent_new coinbaseMaturity)
      fun _ _ _ holds taken => holds.step taken.1 taken.2
  exact ⟨consistent, consistent.balanceMatches⟩

section SampleRun

def ownAddress : Address :=
  ⟨.devnet, .pubKey, List.replicate 32 1, rfl⟩

def foreignAddress : Address :=
  ⟨.devnet, .pubKey, List.replicate 32 2, rfl⟩

def ownAddresses : AddressSet :=
  (∅ : AddressSet).insert (devnet.addressToString ownAddress)
    ⟨1, 0, .external⟩

/-- A confirmed output of the wallet. -/
def confirmedEntry : RpcUtxosByAddressesEntry where
  address := some (devnet.addressToString ownAddress)
  outpoint := ⟨FixedBytes.zero 32, 0⟩
  utxoEntry := ⟨500, devnet.payToAddressScript ownAddress, 10, false, none⟩

/-- A payment of the wallet that spends it, with change. -/
def ownPayment : WalletSignableTransaction where
  transaction := .fully
    { tx := .new 0
        [⟨⟨FixedBytes.zero 32, 0⟩, [], 0, .sigOpCount 1⟩]
        [.new 300 (devnet.payToAddressScript foreignAddress),
          .new 150 (devnet.payToAddressScript ownAddress)]
        0 SubnetworkId.native 0 []
      entries := [some
        ⟨500, devnet.payToAddressScript ownAddress, 10, false, none⟩]
      calculatedFee := none
      calculatedNonContextualMasses := none }
  derivationPaths := []
  addressByInputIndex := [⟨1, 0, .external⟩]
  addressByOutputIndex := [foreignAddress, ownAddress]

/-- A sync, a payment, and a sync that replays it. -/
def paymentCalls : List StoreCall :=
  [.updateUtxoSet ownAddresses [confirmedEntry] [],
    .addMempoolTransaction ownAddresses ownPayment,
    .updateUtxoSet ownAddresses [confirmedEntry] []]

theorem paymentCalls_consistent :
    ∃ manager, Runs.Run (StoreStep devnet) (.new 100) paymentCalls manager ∧
      manager.Consistent ∧ manager.BalanceMatches devnet := by
  have performed :
      ((StoreCall.updateUtxoSet ownAddresses [confirmedEntry] []).perform
        devnet (.new 100)).Returns fun first =>
      (StoreCall.addMempoolTransaction ownAddresses ownPayment).Fresh
        devnet first ∧
      ((StoreCall.addMempoolTransaction ownAddresses ownPayment).perform
        devnet first).Returns fun second =>
      (StoreCall.updateUtxoSet ownAddresses [confirmedEntry] []).Fresh
        devnet second ∧
      ((StoreCall.updateUtxoSet ownAddresses [confirmedEntry] []).perform
        devnet second).Returns fun _ => True := by
    decide +kernel
  have initiallyFresh :
      (StoreCall.updateUtxoSet ownAddresses [confirmedEntry] []).Fresh
        devnet (.new 100) := by
    decide +kernel
  obtain ⟨first, synced, addFresh, second, paid, replayFresh, third, replayed,
    _⟩ := performed
  refine ⟨third, ?_, consistent_of_fresh_run
    (.extend (.extend (.extend .start ⟨initiallyFresh, .returned synced⟩)
      ⟨addFresh, .returned paid⟩) ⟨replayFresh, .returned replayed⟩)⟩
  exact .extend (.extend (.extend .start (.returned synced))
    (.returned paid)) (.returned replayed)

end SampleRun

section DoubleListing

/-- A mempool transaction that pays two wallet addresses. -/
def doublePayment : RpcTransaction where
  inputs := []
  outputs :=
    [⟨1000, ⟨0, [1]⟩, some "first"⟩, ⟨2000, ⟨0, [2]⟩, some "second"⟩]
  verboseTransactionId := some (FixedBytes.zero 32)

/-- The node lists the transaction under each address it pays. -/
def doubleListing : StoreCall :=
  .updateUtxoSet
    ((∅ : AddressSet).insert "first" ⟨1, 0, .external⟩
      |>.insert "second" ⟨2, 0, .external⟩)
    [] [⟨[], [doublePayment]⟩, ⟨[], [doublePayment]⟩]

def insertionOrder : IterationOrder WalletAddress BalancesEntry where
  entries map := map.entries.map fun entry => (entry.1, entry.2)
  perm _ := List.Perm.refl _

def emptyBook : AddressManager :=
  .new ⟨[⟨[]⟩], 0, 0, 1, 0⟩ .devnet

/-- After one sync from the empty store the vector has each output twice, the
map has it once, and the balance is doubled. -/
theorem doubleListing_counts_twice :
    ∃ manager, Runs.Run (StoreStep devnet) (.new 100) [doubleListing]
        manager ∧
      ¬(manager.utxosSortedByAmount.map WalletUtxo.outpoint).Nodup ∧
      ¬manager.BalanceMatches devnet := by
  have doubled :
      (doubleListing.perform devnet (.new 100)).Returns fun manager =>
        ¬(manager.utxosSortedByAmount.map WalletUtxo.outpoint).Nodup ∧
        ((HashMap.values manager.utxosByOutpoint).map
          fun utxo => utxo.amount.toNat).sum = 3000 ∧
        (getBalance devnet true (.ok 0) insertionOrder manager emptyBook
          false).Returns fun answer =>
            answer.1.available.toNat + answer.1.pending.toNat = 6000 := by
    decide +kernel
  obtain ⟨manager, performed, repeated, stored, answer, answered, balance⟩ :=
    doubled
  refine ⟨manager, .extend .start (.returned performed), repeated, ?_⟩
  intro counted
  have equal := counted _ _ _ _ _ _ _ answered
  omega

end DoubleListing

end UtxoManager

end Kaswallet
