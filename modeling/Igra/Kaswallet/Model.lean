import Igra.Kaspa.Transaction
import Igra.Kaswallet.Proto
import Igra.Rust.HashMap

/-!
# Wallet data

The wallet-side types of `kaswallet`'s common crate and its errors, without
source locations.
-/

open Kaspa Rust

namespace Kaswallet

section Errors

inductive UserInputError where
  | invalidAddress (input reason : String)
  | invalidArgument (reason : String)
  | missingField (field : String)
deriving DecidableEq

inductive CryptoError where
  | bip32Derivation (reason : String)
  | scriptError (stage reason : String)
  | wrongPassword
  | keyFileMalformed (path reason : String)
  | keyFileCorrupt (reason : String)
  | encryptionFailed (reason : String)
deriving DecidableEq

inductive RpcError where
  | transport (reason : String)
  | kaspadStatus (operation : String) (code : Proto.Code) (message : String)
deriving DecidableEq

inductive StorageError where
  | io (path reason : String)
deriving DecidableEq

inductive TransactionError where
  | buildFailed (reason : String)
  | insufficientFunds (requiredSompi availableSompi : UInt64)
  | utxoNotFound (outpoint : TransactionOutpoint)
  | feeTooLow (providedSompi requiredSompi : UInt64)
  | notFullySigned
  | verifyFailed (reason : String)
  | rejected (txId : TransactionId) (nodeMessage : String)
  | orphan (txId : TransactionId)
  | doubleSpend (txId : TransactionId)
      (conflictingOutpoint : Option TransactionOutpoint)
  | submitRpc (txId : TransactionId) (source : RpcError)
deriving DecidableEq

inductive SyncError where
  | notYetSynced
deriving DecidableEq

inductive WalletError where
  | userInput (error : UserInputError)
  | crypto (error : CryptoError)
  | rpc (error : RpcError)
  | storage (error : StorageError)
  | transaction (error : TransactionError)
  | sync (error : SyncError)
deriving DecidableEq

abbrev WalletResult := Outcome WalletError

/-- `map_err` of a third-party result into a wallet error. -/
def mapError {α : Type} (wrap : String → WalletError) :
    Except String α → WalletResult α
  | .ok value => .ok value
  | .error reason => Outcome.err (wrap reason)

@[simp] theorem mapError_eq_ok {α : Type} {wrap : String → WalletError}
    {result : Except String α} {value : α} :
    mapError wrap result = .ok value ↔ result = .ok value := by
  cases result <;> simp [mapError]

end Errors

inductive Keychain where
  | external
  | internal
deriving DecidableEq

namespace Keychain

/-- `keychain as u32`. -/
def toUInt32 : Keychain → UInt32
  | .external => 0
  | .internal => 1

end Keychain

structure WalletAddress where
  index : UInt32
  cosignerIndex : UInt16
  keychain : Keychain
deriving DecidableEq

structure WalletOutpoint where
  transactionId : TransactionId
  index : UInt32
deriving DecidableEq

/-- `WalletOutpoint::from(TransactionOutpoint)`. -/
def WalletOutpoint.ofTransactionOutpoint
    (outpoint : TransactionOutpoint) : WalletOutpoint :=
  ⟨outpoint.transactionId, outpoint.index⟩

/-- `TransactionOutpoint::new(outpoint.transaction_id, outpoint.index)`. -/
def WalletOutpoint.toTransactionOutpoint
    (outpoint : WalletOutpoint) : TransactionOutpoint :=
  ⟨outpoint.transactionId, outpoint.index⟩

@[simp] theorem WalletOutpoint.ofTransactionOutpoint_toTransactionOutpoint
    (outpoint : WalletOutpoint) :
    WalletOutpoint.ofTransactionOutpoint outpoint.toTransactionOutpoint =
      outpoint :=
  rfl

@[simp] theorem WalletOutpoint.toTransactionOutpoint_ofTransactionOutpoint
    (outpoint : TransactionOutpoint) :
    (WalletOutpoint.ofTransactionOutpoint outpoint).toTransactionOutpoint =
      outpoint :=
  rfl

structure WalletUtxoEntry where
  amount : UInt64
  scriptPublicKey : ScriptPublicKey
  blockDaaScore : UInt64
  isCoinbase : Bool
  /-- ingested from the node's mempool view, so it may disappear -/
  isUnconfirmed : Bool
deriving DecidableEq

/-- `UtxoEntry::from(WalletUtxoEntry)`. -/
def WalletUtxoEntry.toUtxoEntry (entry : WalletUtxoEntry) : UtxoEntry where
  amount := entry.amount
  scriptPublicKey := entry.scriptPublicKey
  blockDaaScore := entry.blockDaaScore
  isCoinbase := entry.isCoinbase
  covenantId := none

/-- `WalletUtxoEntry::from(UtxoEntry)`. -/
def WalletUtxoEntry.ofUtxoEntry (entry : UtxoEntry) : WalletUtxoEntry where
  amount := entry.amount
  scriptPublicKey := entry.scriptPublicKey
  blockDaaScore := entry.blockDaaScore
  isCoinbase := entry.isCoinbase
  isUnconfirmed := false

structure WalletUtxo where
  outpoint : WalletOutpoint
  utxoEntry : WalletUtxoEntry
  address : WalletAddress
deriving DecidableEq

namespace WalletUtxo

def amount (utxo : WalletUtxo) : UInt64 :=
  utxo.utxoEntry.amount

end WalletUtxo

structure WalletPayment where
  address : Address
  amount : UInt64
deriving DecidableEq

/-- How far a transaction has been signed. -/
inductive WalletSigned where
  | fully (tx : SignableTransaction)
  | partially (tx : SignableTransaction)
deriving DecidableEq

namespace WalletSigned

/-- `inner()` and `into_inner()`. -/
def inner : WalletSigned → SignableTransaction
  | .fully tx => tx
  | .partially tx => tx

end WalletSigned

structure WalletSignableTransaction where
  transaction : WalletSigned
  derivationPaths : List DerivationPath
  addressByInputIndex : List WalletAddress
  addressByOutputIndex : List Address
deriving DecidableEq

namespace WalletSignableTransaction

/-- `transaction.transaction.inner().tx`. -/
def tx (transaction : WalletSignableTransaction) : Transaction :=
  transaction.transaction.inner.tx

/-- `new_from_unsigned`. -/
def newFromUnsigned (transaction : SignableTransaction)
    (derivationPaths : List DerivationPath)
    (addressByInputIndex : List WalletAddress)
    (addressByOutputIndex : List Address) : WalletSignableTransaction where
  transaction := .partially transaction
  derivationPaths := derivationPaths
  addressByInputIndex := addressByInputIndex
  addressByOutputIndex := addressByOutputIndex

end WalletSignableTransaction

/-- Wallet addresses by the text of their kaspa address. -/
abbrev AddressSet := HashMap String WalletAddress

end Kaswallet
