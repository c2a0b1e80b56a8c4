import Igra.Kaswallet.Model
import Igra.Rust.BinarySearch
import Igra.Rust.Integer
import Mathlib.Data.List.Sort

/-!
# The UTXO store

`UtxoManager` keeps the wallet's unspent outputs twice, sorted by amount and
indexed by outpoint, and remembers the transactions it has submitted.  A call
looks addresses up in the address book as it stands when the call runs.
-/

open Kaspa Rust

namespace Kaswallet

section NodeView

/-- `RpcUtxoEntry`. -/
structure RpcUtxoEntry where
  amount : UInt64
  scriptPublicKey : ScriptPublicKey
  blockDaaScore : UInt64
  isCoinbase : Bool
  covenantId : Option Hash
deriving DecidableEq

/-- `RpcUtxosByAddressesEntry`, with the address as its text. -/
structure RpcUtxosByAddressesEntry where
  address : Option String
  outpoint : WalletOutpoint
  utxoEntry : RpcUtxoEntry
deriving DecidableEq

structure RpcTransactionOutput where
  value : UInt64
  scriptPublicKey : ScriptPublicKey
  /-- `verbose_data.script_public_key_address` -/
  verboseAddress : Option String
deriving DecidableEq

structure RpcTransaction where
  /-- `previous_outpoint` of each input -/
  inputs : List WalletOutpoint
  outputs : List RpcTransactionOutput
  /-- `verbose_data.transaction_id` -/
  verboseTransactionId : Option TransactionId
deriving DecidableEq

/-- `RpcMempoolEntryByAddress`: the transactions of the node's mempool that
spend from or pay to one address. -/
structure RpcMempoolEntryByAddress where
  sending : List RpcTransaction
  receiving : List RpcTransaction
deriving DecidableEq

end NodeView

structure UtxoManager where
  coinbaseMaturity : UInt64
  utxosSortedByAmount : List WalletUtxo
  utxosByOutpoint : HashMap WalletOutpoint WalletUtxo
  mempoolTransactions : List WalletSignableTransaction

namespace UtxoManager

def new (coinbaseMaturity : UInt64) : UtxoManager where
  coinbaseMaturity := coinbaseMaturity
  utxosSortedByAmount := []
  utxosByOutpoint := ∅
  mempoolTransactions := []

def insertUtxo (manager : UtxoManager) (outpoint : WalletOutpoint)
    (utxo : WalletUtxo) : UtxoManager :=
  let position := insertionPoint
    (binarySearchBy (fun existing => compare existing.amount utxo.amount)
      manager.utxosSortedByAmount)
  { manager with
    utxosByOutpoint := manager.utxosByOutpoint.insert outpoint utxo
    utxosSortedByAmount :=
      manager.utxosSortedByAmount.insertIdx position utxo }

def containsUtxo (manager : UtxoManager) (outpoint : WalletOutpoint) : Bool :=
  decide (outpoint ∈ manager.utxosByOutpoint)

def removeUtxo (manager : UtxoManager)
    (outpoint : WalletOutpoint) : UtxoManager :=
  if outpoint ∈ manager.utxosByOutpoint then
    { manager with
      utxosByOutpoint := manager.utxosByOutpoint.erase outpoint
      utxosSortedByAmount := manager.utxosSortedByAmount.eraseP
        fun existing => decide (existing.outpoint = outpoint) }
  else manager

/-- The UTXO that `apply_mempool_transaction` stores for an output: the wallet
replays its own transactions, so the output counts as confirmed. -/
def ownUtxo (outpoint : WalletOutpoint) (output : TransactionOutput)
    (address : WalletAddress) : WalletUtxo where
  outpoint := outpoint
  utxoEntry :=
    { amount := output.value
      scriptPublicKey := output.scriptPublicKey
      blockDaaScore := 0
      isCoinbase := false
      isUnconfirmed := false }
  address := address

/-- The body of the output loop of `apply_mempool_transaction`. -/
def applyOutput (upstream : Upstream) (addresses : AddressSet)
    (transaction : WalletSignableTransaction) (manager : UtxoManager)
    (indexed : TransactionOutput × Nat) : WalletResult UtxoManager := do
  let address ← Outcome.index transaction.addressByOutputIndex indexed.2
  match addresses.lookup (upstream.addressToString address) with
  | none => pure manager
  | some walletAddress =>
      let outpoint : WalletOutpoint :=
        ⟨upstream.transactionId transaction.tx, UInt32.ofNat indexed.2⟩
      pure (manager.insertUtxo outpoint
        (ownUtxo outpoint indexed.1 walletAddress))

/-- The input loop of `apply_mempool_transaction`. -/
def removeInputs (manager : UtxoManager) (tx : Transaction) : UtxoManager :=
  tx.inputs.foldl
    (fun current input => current.removeUtxo
      (.ofTransactionOutpoint input.previousOutpoint)) manager

def applyMempoolTransaction (upstream : Upstream) (addresses : AddressSet)
    (manager : UtxoManager) (transaction : WalletSignableTransaction) :
    WalletResult UtxoManager :=
  transaction.tx.outputs.zipIdx.foldlM
    (applyOutput upstream addresses transaction)
    (manager.removeInputs transaction.tx)

def addMempoolTransaction (upstream : Upstream) (addresses : AddressSet)
    (manager : UtxoManager) (transaction : WalletSignableTransaction) :
    WalletResult UtxoManager :=
  applyMempoolTransaction upstream addresses
    { manager with
      mempoolTransactions := manager.mempoolTransactions ++ [transaction] }
    transaction

/-- The outpoints that transactions in the node's mempool spend. -/
def excludedOutpoints
    (mempool : List RpcMempoolEntryByAddress) : List WalletOutpoint :=
  mempool.flatMap fun entry =>
    entry.sending.flatMap fun transaction => transaction.inputs

/-- `is_spendable_rpc_utxo_entry`. -/
def isSpendableRpcUtxoEntry (entry : RpcUtxoEntry) : Bool :=
  entry.covenantId.isNone

/-- `WalletUtxoEntry::try_from(RpcUtxoEntry)`. -/
def walletUtxoEntryOfRpc (entry : RpcUtxoEntry) :
    WalletResult WalletUtxoEntry :=
  match entry.covenantId with
  | some covenantId =>
      Outcome.err (.storage (.io "rpc_utxo_entry"
        (s!"UTXO is covenant-bound (covenant_id=" ++
          Hex.encode covenantId.bytes ++
          "); wallet cannot spend covenants")))
  | none =>
      .ok
        { amount := entry.amount
          scriptPublicKey := entry.scriptPublicKey
          blockDaaScore := entry.blockDaaScore
          isCoinbase := entry.isCoinbase
          isUnconfirmed := false }

/-- The body of the first loop of `update_utxo_set`: `none` when the entry is
skipped. -/
def confirmedUtxo (addresses : AddressSet) (exclude : List WalletOutpoint)
    (rpcUtxoEntry : RpcUtxosByAddressesEntry) :
    WalletResult (Option WalletUtxo) :=
  if rpcUtxoEntry.outpoint ∈ exclude then .ok none
  else if !isSpendableRpcUtxoEntry rpcUtxoEntry.utxoEntry then .ok none
  else do
    let entry ← walletUtxoEntryOfRpc rpcUtxoEntry.utxoEntry
    let rpcAddress ← Outcome.ofOption
      (.storage (.io "rpc_utxo_entry" "address missing from RPC UTXO entry"))
      rpcUtxoEntry.address
    let address ← Outcome.ofOption
      (.storage (.io rpcAddress "address not found in address set"))
      (addresses.lookup rpcAddress)
    pure (some ⟨rpcUtxoEntry.outpoint, entry, address⟩)

/-- The UTXO of one output of a transaction in the node's mempool; `none` when
the output is skipped. -/
def receivedUtxo (addresses : AddressSet) (exclude : List WalletOutpoint)
    (transactionId : TransactionId)
    (indexed : RpcTransactionOutput × Nat) : Option WalletUtxo := do
  let outputAddress ← indexed.1.verboseAddress
  let address ← addresses.lookup outputAddress
  let outpoint : WalletOutpoint := ⟨transactionId, UInt32.ofNat indexed.2⟩
  if outpoint ∈ exclude then none
  else
    some
      { outpoint
        utxoEntry :=
          { amount := indexed.1.value
            scriptPublicKey := indexed.1.scriptPublicKey
            blockDaaScore := 0
            isCoinbase := false
            isUnconfirmed := true }
        address }

def receivedUtxos (addresses : AddressSet) (exclude : List WalletOutpoint)
    (transaction : RpcTransaction) : List WalletUtxo :=
  match transaction.verboseTransactionId with
  | none => []
  | some transactionId =>
      transaction.outputs.zipIdx.filterMap
        (receivedUtxo addresses exclude transactionId)

/-- The `wallet_utxos` that `update_utxo_set` collects from the two views of
the node. -/
def collectedUtxos (addresses : AddressSet)
    (rpcUtxoEntries : List RpcUtxosByAddressesEntry)
    (mempool : List RpcMempoolEntryByAddress) :
    WalletResult (List WalletUtxo) := do
  let exclude := excludedOutpoints mempool
  let confirmed ←
    Outcome.collect (confirmedUtxo addresses exclude) rpcUtxoEntries
  let received := mempool.flatMap fun entry =>
    entry.receiving.flatMap (receivedUtxos addresses exclude)
  pure (confirmed.reduceOption ++ received)

/-- `wallet_utxos.sort_by_key(|a| a.utxo_entry.amount)`, a stable sort. -/
def sortByAmount (utxos : List WalletUtxo) : List WalletUtxo :=
  utxos.insertionSort fun left right => left.amount ≤ right.amount

/-- `update_utxos_sorted_by_amount` and `update_utxos_by_outpoint`. -/
def rebuild (manager : UtxoManager) (utxos : List WalletUtxo) : UtxoManager :=
  { manager with
    utxosSortedByAmount := sortByAmount utxos
    utxosByOutpoint := HashMap.insertAll WalletUtxo.outpoint ∅ utxos }

/-- Each input of the transaction is in the store. -/
def containsInputs (manager : UtxoManager) (tx : Transaction) : Bool :=
  tx.inputs.all fun input =>
    manager.containsUtxo (.ofTransactionOutpoint input.previousOutpoint)

/-- The loop of `apply_mempool_transactions_after_update`: a transaction one of
whose inputs is gone was either accepted or double-spent. -/
def replay (upstream : Upstream) (addresses : AddressSet) :
    List WalletSignableTransaction → UtxoManager → WalletResult UtxoManager
  | [], manager => .ok manager
  | transaction :: rest, manager =>
      if manager.containsInputs transaction.tx then do
        let applied ←
          addMempoolTransaction upstream addresses manager transaction
        replay upstream addresses rest applied
      else replay upstream addresses rest manager

def applyMempoolTransactionsAfterUpdate (upstream : Upstream)
    (addresses : AddressSet) (manager : UtxoManager) :
    WalletResult UtxoManager :=
  replay upstream addresses manager.mempoolTransactions
    { manager with mempoolTransactions := [] }

def updateUtxoSet (upstream : Upstream) (addresses : AddressSet)
    (manager : UtxoManager) (rpcUtxoEntries : List RpcUtxosByAddressesEntry)
    (mempool : List RpcMempoolEntryByAddress) : WalletResult UtxoManager := do
  let utxos ← collectedUtxos addresses rpcUtxoEntries mempool
  applyMempoolTransactionsAfterUpdate upstream addresses
    (manager.rebuild utxos)

/-- `is_utxo_unspendable_with`. -/
def isUtxoUnspendableWith (coinbaseMaturity : UInt64) (utxo : WalletUtxo)
    (virtualDaaScore : UInt64) : WalletResult Bool :=
  if utxo.utxoEntry.isUnconfirmed then .ok true
  else if !utxo.utxoEntry.isCoinbase then .ok false
  else do
    let maturity ← checkedAdd utxo.utxoEntry.blockDaaScore coinbaseMaturity
    pure (decide (maturity > virtualDaaScore))

def isUtxoUnspendable (manager : UtxoManager) (utxo : WalletUtxo)
    (virtualDaaScore : UInt64) : WalletResult Bool :=
  isUtxoUnspendableWith manager.coinbaseMaturity utxo virtualDaaScore

end UtxoManager

end Kaswallet
