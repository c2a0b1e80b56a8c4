import Igra.Kaswallet.AddressFreshness
import Igra.Kaswallet.Service
import Igra.Kaswallet.StoreRuns

/-!
# The wallet daemon

The UTXO store is shared by the requests and the task that syncs it.  A send
holds its lock from the creation of its batch to the last submission, and so
does a broadcast, so no sync comes in between; calls of the address manager
may.
-/

open Kaspa Rust Runs

namespace Kaswallet

namespace KasWalletService

variable (upstream : Upstream) (service : KasWalletService)

/-- `create_unsigned_transactions_from_description`, and the address manager
that is left. -/
def createUnsignedTransactionsFromDescription (moment : CreateMoment)
    (description : TransactionDescription) (fuel : Nat) :
    WalletResult (List WalletSignableTransaction) × AddressManager :=
  if !moment.isSynced then
    (Outcome.err (.sync .notYetSynced), moment.addressManager)
  else
    service.generator.createUnsignedTransactions upstream moment.surroundings
      moment.manager moment.addressManager description fuel

/-- `send` up to the submission, and the address manager that is left. -/
def prepareSend (signatures : Signatures) (moment : CreateMoment)
    (transactionDescription : Option TransactionDescription)
    (password : String) (fuel : Nat) :
    WalletResult (List WalletSignableTransaction) × AddressManager :=
  match transactionDescription with
  | none =>
      (Outcome.err (.userInput (.missingField "transaction_description")),
        moment.addressManager)
  | some description =>
      let (unsigned, left) := service.createUnsignedTransactionsFromDescription
        upstream moment description fuel
      (unsigned >>= signTransactions signatures
        (service.decryptMnemonics password), left)

end KasWalletService

/-- What the holder of the lock has yet to submit, and whether it was
broadcast by a client. -/
structure Submitting where
  transactions : List WalletSignableTransaction
  broadcast : Bool

structure Daemon where
  addressManager : AddressManager
  utxoManager : UtxoManager
  submitting : Option Submitting
  /-- the UTXOs that the last sync collected -/
  collected : List WalletUtxo
  /-- the transactions that were broadcast and submitted since -/
  broadcast : List WalletSignableTransaction

inductive DaemonEvent where
  /-- a call of the address manager, by a request or by the scan -/
  | calls (call : AddressCall) (save : WalletResult Unit)
  | creates (isSynced : Bool)
      (surroundings : TransactionGenerator.Surroundings)
      (transactionDescription : Option TransactionDescription) (fuel : Nat)
  | sends (isSynced : Bool)
      (surroundings : TransactionGenerator.Surroundings)
      (transactionDescription : Option TransactionDescription)
      (password : String) (fuel : Nat)
  | broadcasts (transactions : List Proto.WalletSignableTransaction)
  /-- the node answers for the next transaction -/
  | submits (reply : Except String TransactionId)
  /-- the lock is released -/
  | releases
  | refreshes (rpcUtxoEntries : List RpcUtxosByAddressesEntry)
      (mempool : List RpcMempoolEntryByAddress)

/-- The state after a call that returns a value or an error.  There is none
after a panic. -/
def afterCall {α State : Type} (returned : α → State) (refused : State) :
    WalletResult α → Option State
  | .ok value => some (returned value)
  | .error (.error _) => some refused
  | .error _ => none

theorem afterCall_eq_some {α State : Type} {returned : α → State}
    {refused next : State} {outcome : WalletResult α} :
    afterCall returned refused outcome = some next ↔
      (∃ value, outcome = .ok value ∧ returned value = next) ∨
        ∃ error, outcome = Outcome.err error ∧ refused = next := by
  unfold afterCall Outcome.err
  split
  · simp
  · simp
  · simp_all

namespace Daemon

def started (coinbaseMaturity : UInt64)
    (addressManager : AddressManager) : Daemon where
  addressManager := addressManager
  utxoManager := .new coinbaseMaturity
  submitting := none
  collected := []
  broadcast := []

section Events

variable (upstream : Upstream) (signatures : Signatures)
  (service : KasWalletService)

/-- What a request that has just taken the lock finds. -/
def moment (daemon : Daemon) (isSynced : Bool)
    (surroundings : TransactionGenerator.Surroundings) :
    KasWalletService.CreateMoment where
  isSynced := isSynced
  surroundings := surroundings
  manager := daemon.utxoManager
  addressManager := daemon.addressManager

/-- The next transaction, submitted as `submit_transactions` does it. -/
def submission (daemon : Daemon) (transaction : WalletSignableTransaction)
    (reply : Except String TransactionId) : Submission :=
  submitTransactions upstream service.configuredSubnetworkId
    ⟨fun _ => reply, fun _ => daemon.addressManager.addresses⟩ 0
    daemon.utxoManager [transaction]

def submitted (daemon : Daemon) (transaction : WalletSignableTransaction)
    (later : Submitting) (tracked : UtxoManager) : Daemon :=
  { daemon with
    utxoManager := tracked
    submitting := some later
    broadcast :=
      if later.broadcast then daemon.broadcast ++ [transaction]
      else daemon.broadcast }

/-- The store when `update_utxo_set` returns. -/
def refreshed (daemon : Daemon)
    (rpcUtxoEntries : List RpcUtxosByAddressesEntry)
    (mempool : List RpcMempoolEntryByAddress) :
    WalletResult (List WalletUtxo × UtxoManager) := do
  let collected ← UtxoManager.collectedUtxos daemon.addressManager.addresses
    rpcUtxoEntries mempool
  let manager ← daemon.utxoManager.updateUtxoSet upstream
    daemon.addressManager.addresses rpcUtxoEntries mempool
  pure (collected, manager)

def perform (daemon : Daemon) : DaemonEvent → Option Daemon
  | .calls call save =>
      some { daemon with
        addressManager :=
          (call.perform upstream daemon.addressManager save).2 }
  | .creates isSynced surroundings transactionDescription fuel =>
      match daemon.submitting, transactionDescription with
      | some _, _ => none
      | none, none => some daemon
      | none, some description =>
          some { daemon with
            addressManager :=
              (service.createUnsignedTransactionsFromDescription upstream
                (daemon.moment isSynced surroundings) description fuel).2 }
  | .sends isSynced surroundings transactionDescription password fuel =>
      match daemon.submitting with
      | some _ => none
      | none =>
          let (prepared, left) := service.prepareSend upstream signatures
            (daemon.moment isSynced surroundings) transactionDescription
            password fuel
          let holds := { daemon with addressManager := left }
          afterCall (fun transactions =>
            { holds with submitting := some ⟨transactions, false⟩ }) holds
            prepared
  | .broadcasts transactions =>
      match daemon.submitting with
      | some _ => none
      | none =>
          afterCall (fun signed =>
            { daemon with submitting := some ⟨signed, true⟩ }) daemon
            (Outcome.collect (walletSignableTransactionFromProto upstream)
              transactions)
  | .submits reply =>
      match daemon.submitting with
      | some ⟨transaction :: rest, broadcast⟩ =>
          let submission :=
            daemon.submission upstream service transaction reply
          afterCall (fun _ => daemon.submitted transaction ⟨rest, broadcast⟩
              submission.manager)
            { daemon with submitting := none } submission.result
      | _ => none
  | .releases =>
      match daemon.submitting with
      | some ⟨[], _⟩ => some { daemon with submitting := none }
      | _ => none
  | .refreshes rpcUtxoEntries mempool =>
      match daemon.submitting with
      | some _ => none
      | none =>
          afterCall (fun (collected, manager) =>
            { daemon with
              utxoManager := manager
              collected := collected
              broadcast := [] }) daemon
            (daemon.refreshed upstream rpcUtxoEntries mempool)

/-- One event of the daemon. -/
def Advances (daemon : Daemon) (event : DaemonEvent) (next : Daemon) :
    Prop :=
  daemon.perform upstream signatures service event = some next

end Events

end Daemon

end Kaswallet
